import ShaderGraph.Proofs.History
/-! Where 32 bits end. A handle is stored one up in a word, so that none is zero; the places that fit
are just those an arena gives before it is full, and only what is past them saturates. The counter of
a variable is bounded by the statements, whose arena is full before the counter could wrap. -/
namespace ShaderGraph

open Build

/-- The word that stands for a handle, one more than its place. -/
def Handle.word {s : NodeSort} (h : Handle s) : UInt32 := .ofNat (h.index + 1)

section

variable {s : NodeSort}

theorem wordBelow {h : Handle s} (below : h.index < Handle.limit) : h.word.toNat = h.index + 1 :=
  UInt32.toNat_ofNat_of_lt' (Nat.succ_lt_succ below)

theorem wordOfIndex (n : Nat) :
    (Handle.ofIndex n : Handle s).word.toNat = min (n + 1) (UInt32.size - 1) := by
  have place : (Handle.ofIndex n : Handle s).index = min n (Handle.limit - 1) := rfl
  rw [wordBelow, place]
  · simp only [Handle.limit, UInt32.size]
    omega
  · simp only [place, Handle.limit]
    omega

theorem ofIndexSame {m n : Nat} : (Handle.ofIndex m : Handle s) = .ofIndex n ↔
    m = n ∨ Handle.limit - 1 ≤ m ∧ Handle.limit - 1 ≤ n := by
  rw [Handle.sameIndex]
  simp only [Handle.ofIndex]
  omega

end

namespace Arena

variable {s : NodeSort} {α : Type}

inductive Appended (a : Arena s α) (n : α) : Outcome (Handle s × Arena s α) → Prop
  | full (most : Handle.limit ≤ a.size) : Appended a n (abort (.full a.size))
  | placed {h : Handle s} (room : a.size < Handle.limit) (next : a.next = .ok h)
      (place : h.index = a.size) : Appended a n (.ok (h, a.push n))

theorem appended (a : Arena s α) (n : α) : a.Appended n (a.append n) := by
  by_cases room : a.size < Handle.limit
  · rw [appendOk.mpr ⟨room, rfl, rfl⟩]
    exact .placed room (nextOk.mpr ⟨room, rfl⟩) rfl
  · have full : a.append n = abort (.full a.size) := by simp [append, next, room, abort, Except.map]
    rw [full]
    exact .full (Nat.le_of_not_lt room)

inductive Filled : List (Handle s) → Arena s α → Prop
  | new : Filled [] {}
  | given {hs : List (Handle s)} {a b : Arena s α} {n : α} {h : Handle s} (before : Filled hs a)
      (grown : a.append n = .ok (h, b)) : Filled (hs ++ [h]) b
  | stopped {hs : List (Handle s)} {a : Arena s α} {n : α} {why : Failure} (before : Filled hs a)
      (failed : a.append n = .error why) : Filled hs a

variable {hs : List (Handle s)} {a : Arena s α}

theorem Filled.places (filled : Filled hs a) :
    hs.map Handle.index = List.range a.size ∧ a.size ≤ Handle.limit := by
  induction filled with
  | new => exact ⟨rfl, Nat.zero_le _⟩
  | given _ grown ih =>
    obtain ⟨room, rfl, rfl⟩ := appendOk.mp grown
    rw [pushSize, List.range_succ, List.map_append, ih.1]
    exact ⟨rfl, room⟩
  | stopped _ _ ih => exact ih

theorem Filled.rising (filled : Filled hs a) : hs.Pairwise fun g h => g.index < h.index := by
  rw [← List.pairwise_map (R := (· < ·)), filled.places.1]
  exact List.pairwise_lt_range

theorem Filled.fits (filled : Filled hs a) {h : Handle s} (inside : h ∈ hs) :
    h.index < Handle.limit := by
  obtain ⟨places, most⟩ := filled.places
  have among : h.index ∈ List.range a.size := places ▸ List.mem_map_of_mem inside
  exact Nat.lt_of_lt_of_le (List.mem_range.mp among) most

structure Orderly (hs : List (Handle s)) (a : Arena s α) : Prop where
  appends : ∀ n, a.Appended n (a.append n)
  places : hs.map Handle.index = List.range a.size
  apart : hs.Nodup
  rising : hs.Pairwise fun g h => g.index < h.index
  words : hs.Pairwise fun g h => g.word < h.word
  filled : ∀ h ∈ hs, h.word ≠ 0

theorem Filled.orderly (filled : Filled hs a) : Orderly hs a where
  appends := a.appended
  places := filled.places.1
  apart := List.nodup_iff_pairwise_ne.mpr (filled.rising.imp fun less same => by
    rw [same] at less
    exact Nat.lt_irrefl _ less)
  rising := filled.rising
  words := by
    refine filled.rising.imp_of_mem fun one two less => ?_
    rw [UInt32.lt_iff_toNat_lt, wordBelow (filled.fits one), wordBelow (filled.fits two)]
    exact Nat.succ_lt_succ less
  filled h inside zero := by
    have word := wordBelow (filled.fits inside)
    rw [zero] at word
    exact absurd word (by simp)

end Arena

structure Program.Bounded (p : Program) : Prop where
  atMost : ∀ ⦃v var⦄, p.vars.get? v = some var → var.mutations.toNat ≤ p.stmts.size
  steps : ∀ ⦃scope target value answer q⦄, (Call.assign scope target value).run p = .ok answer q →
    ∃ v var now, p.root target = .ok (some v) ∧ p.vars.get? v = some var ∧
      q.vars.get? v = some now ∧ now.mutations = var.mutations + 1 ∧
      now.mutations.toNat = var.mutations.toNat + 1

theorem Built.bounded {p : Program} (built : Built p) : p.Bounded where
  atMost v var at_ := built.counted at_ ▸ timesAssignedBound p v
  steps scope target value answer q ran := by
    obtain ⟨_, made⟩ := quietOk ran
    obtain ⟨v, rooted, room, -, -, vars⟩ := assignCounts made
    obtain ⟨var, at_, -⟩ := (rootedOf rooted).variable
    have grown := Arena.getReplaceOld (g := v) at_ fun w => { w with mutations := w.mutations + 1 }
    rw [if_pos rfl] at grown
    refine ⟨v, var, _, rooted, at_, vars ▸ grown, rfl, ?_⟩
    rw [built.counted.next at_ room, built.counted at_]

theorem handlesApart {s : NodeSort} {α : Type} {hs : List (Handle s)} {a : Arena s α}
    (filled : Arena.Filled hs a) {p : Program} (reachable : Reachable p) :
    Arena.Orderly hs a ∧
      (∀ n, (Handle.ofIndex n : Handle s).word.toNat = min (n + 1) (UInt32.size - 1)) ∧
      (∀ m n, (Handle.ofIndex m : Handle s) = .ofIndex n ↔
        m = n ∨ Handle.limit - 1 ≤ m ∧ Handle.limit - 1 ≤ n) ∧
      p.Bounded :=
  ⟨filled.orderly, wordOfIndex, fun _ _ => ofIndexSame, (reachableBuilt reachable).bounded⟩

def raisedRun : List Call :=
  [.addStage .fragment, .declare ⟨0⟩ "i" .int1 none, .read ⟨0⟩, .assign ⟨0⟩ ⟨0⟩ ⟨0⟩]

theorem raisedRuns : ∃ p var, Program.after { name := "p" } raisedRun = some p ∧
    p.vars.get? ⟨0⟩ = some var ∧ var.mutations = 1 ∧ p.stmts.size = 2 ∧
    ∃ answer q, (Call.assign ⟨0⟩ ⟨0⟩ ⟨0⟩).run p = .ok answer q ∧ p.root ⟨0⟩ = .ok (some ⟨0⟩) :=
  ⟨_, _, rfl, rfl, rfl, rfl, _, _, rfl, rfl⟩

theorem handlesApartRaised : ∃ (p : Program) (a : Arena .var String),
    Program.after { name := "p" } raisedRun = some p ∧ Arena.Filled [⟨0⟩, ⟨1⟩] a ∧ a.size = 2 ∧
    Arena.Orderly [⟨0⟩, ⟨1⟩] a ∧
    (Handle.ofIndex 4294967295 : Handle .var) = .ofIndex 4294967294 ∧
    ∃ var now answer q, (Call.assign ⟨0⟩ ⟨0⟩ ⟨0⟩).run p = .ok answer q ∧
      p.vars.get? ⟨0⟩ = some var ∧ q.vars.get? ⟨0⟩ = some now ∧ var.mutations = 1 ∧
      now.mutations = 2 ∧ now.mutations.toNat = var.mutations.toNat + 1 := by
  obtain ⟨p, var, ran, at_, one, -, answer, q, assigned, rooted⟩ := raisedRuns
  have filled : Arena.Filled [⟨0⟩, ⟨1⟩] (⟨#["a", "b"]⟩ : Arena .var String) :=
    .given (n := "b") (.given (n := "a") .new rfl) rfl
  obtain ⟨orderly, -, same, counts⟩ := handlesApart filled ((Reachable.new "p").after ran)
  obtain ⟨v, old, now, known, before, after, next, more⟩ := counts.steps assigned
  cases rooted.symm.trans known
  cases at_.symm.trans before
  exact ⟨p, _, ran, filled, rfl, orderly, (same _ _).mpr (by decide), var, now, answer, q, assigned, at_,
    after, one, by rw [next, one]; rfl, more⟩

end ShaderGraph
