import ShaderGraph.Arena
/-! Growth and replacement as total operations on arenas. An append that succeeds is a push at
the fresh handle, and an adjustment that succeeds is a replacement in place. -/
namespace ShaderGraph

theorem Handle.same {s : NodeSort} {g h : Handle s} (same : g.index = h.index) : g = h := by
  cases g; cases h; cases same; rfl

theorem Handle.sameIndex {s : NodeSort} {g h : Handle s} : g = h ↔ g.index = h.index :=
  ⟨fun same => by rw [same], Handle.same⟩

namespace Arena

variable {s : NodeSort} {α : Type}

def fresh (a : Arena s α) : Handle s := ⟨a.size⟩

def push (a : Arena s α) (n : α) : Arena s α := ⟨a.nodes.push n⟩

def replace (a : Arena s α) (h : Handle s) (f : α → α) : Arena s α := ⟨a.nodes.modify h.index f⟩

@[simp] theorem freshIndex (a : Arena s α) : a.fresh.index = a.size := rfl

@[simp] theorem pushSize (a : Arena s α) (n : α) : (a.push n).size = a.size + 1 := by
  simp [push, size]

@[simp] theorem replaceSize (a : Arena s α) (h : Handle s) (f : α → α) :
    (a.replace h f).size = a.size := by simp [replace, size]

theorem getPush (a : Arena s α) (n : α) (h : Handle s) :
    (a.push n).get? h = if h = a.fresh then some n else a.get? h := by
  simp only [push, get?, Array.getElem?_push, Handle.sameIndex, freshIndex, size]

@[simp] theorem getFresh (a : Arena s α) (n : α) : (a.push n).get? a.fresh = some n := by
  simp [getPush]

theorem getReplace (a : Arena s α) (g h : Handle s) (f : α → α) :
    (a.replace g f).get? h = if g = h then (a.get? h).map f else a.get? h := by
  simp only [replace, get?, Array.getElem?_modify, Handle.sameIndex]

theorem below {a : Arena s α} {h : Handle s} {n : α} (at_ : a.get? h = some n) :
    h.index < a.size := getBelow.mp (by rw [at_]; rfl)

theorem atBelow {a : Arena s α} {h : Handle s} (inside : h.index < a.size) :
    ∃ n, a.get? h = some n := Option.isSome_iff_exists.mp (getBelow.mpr inside)

theorem neFresh {a : Arena s α} {h : Handle s} {n : α} (at_ : a.get? h = some n) :
    h ≠ a.fresh := by
  intro same
  have := below at_
  rw [same, freshIndex] at this
  omega

theorem getPushOld {a : Arena s α} {h : Handle s} {n : α} (at_ : a.get? h = some n) (m : α) :
    (a.push m).get? h = some n := by
  rw [getPush, if_neg (neFresh at_), at_]

theorem getPushed {a : Arena s α} {h : Handle s} {n m : α} (at_ : (a.push m).get? h = some n) :
    (h = a.fresh ∧ n = m) ∨ a.get? h = some n := by
  rw [getPush] at at_
  split at at_
  · exact .inl ⟨by assumption, (Option.some.inj at_).symm⟩
  · exact .inr at_

theorem getReplaceOld {a : Arena s α} {g h : Handle s} {n : α} (at_ : a.get? h = some n)
    (f : α → α) : (a.replace g f).get? h = some (if g = h then f n else n) := by
  rw [getReplace, at_]
  split <;> rfl

theorem getReplaced {a : Arena s α} {g h : Handle s} {m : α} {f : α → α}
    (at_ : (a.replace g f).get? h = some m) :
    ∃ n, a.get? h = some n ∧ m = if g = h then f n else n := by
  rw [getReplace] at at_
  by_cases here : g = h
  · rw [if_pos here] at at_
    obtain ⟨n, old, same⟩ := Option.map_eq_some_iff.mp at_
    exact ⟨n, old, by rw [if_pos here, same]⟩
  · rw [if_neg here] at at_
    exact ⟨m, at_, by rw [if_neg here]⟩

theorem replaceFresh (a : Arena s α) (n : α) (f : α → α) :
    (a.push n).replace a.fresh f = a.push (f n) := by
  refine congrArg Arena.mk (Array.ext_getElem? fun i => ?_)
  rw [Array.getElem?_modify, push, Array.getElem?_push, Array.getElem?_push, freshIndex, size]
  by_cases last : i = a.nodes.size
  · simp [last]
  · rw [if_neg (Ne.symm last)]
    simp [last]

theorem same {a b : Arena s α} (sized : a.size = b.size)
    (each : ∀ ⦃h n⦄, a.get? h = some n → b.get? h = some n) : a = b := by
  refine congrArg Arena.mk (Array.ext sized fun i inA inB => ?_)
  have there := each (h := ⟨i⟩) (Array.getElem?_eq_getElem inA)
  exact (Option.some.inj (there.symm.trans (Array.getElem?_eq_getElem inB)))

theorem replaceApart {a : Arena s α} {g h : Handle s} (apart : g ≠ h) (f k : α → α) :
    (a.replace g f).replace h k = (a.replace h k).replace g f := by
  refine same (by simp) fun l n at_ => ?_
  rw [← at_, getReplace, getReplace, getReplace, getReplace]
  by_cases atG : g = l
  · rw [if_pos atG, if_pos atG, if_neg (atG ▸ Ne.symm apart), if_neg (atG ▸ Ne.symm apart)]
  · rw [if_neg atG, if_neg atG]

theorem replaceOver {a : Arena s α} {h : Handle s} {f k : α → α} (hides : ∀ n, k (f n) = k n) :
    (a.replace h f).replace h k = a.replace h k := by
  refine same (by simp) fun l n at_ => ?_
  rw [← at_, getReplace, getReplace, getReplace]
  by_cases here : h = l
  · rw [if_pos here, if_pos here, if_pos here, Option.map_map]
    exact congrArg (Option.map · _) (funext hides).symm
  · rw [if_neg here, if_neg here, if_neg here]

theorem findReplaced {β : Type} {a : Arena s α} {view : α → β} {g h : Handle s} {f : α → α}
    (kept : ∀ n, view (f n) = view n) :
    ((a.replace g f).find h).map view = (a.find h).map view := by
  rw [find, find, getReplace, replaceSize]
  cases a.get? h with
  | none => rw [Option.map_none, ite_self]
  | some n =>
    by_cases here : g = h
    · rw [if_pos here]
      exact congrArg Except.ok (kept n)
    · rw [if_neg here]

theorem nextOk {a : Arena s α} {h : Handle s} :
    a.next = .ok h ↔ a.size < Handle.limit ∧ h = a.fresh := by
  unfold next
  split
  · rename_i room
    have index := ofIndexBelow (s := s) room
    constructor
    · intro given
      cases given
      exact ⟨room, Handle.same index⟩
    · intro h
      obtain ⟨-, rfl⟩ := h
      exact congrArg Except.ok (Handle.same index)
  · rename_i full
    exact ⟨fun given => (by cases given), fun given => absurd given.1 full⟩

theorem appendOk {a b : Arena s α} {n : α} {h : Handle s} :
    a.append n = .ok (h, b) ↔ a.size < Handle.limit ∧ h = a.fresh ∧ b = a.push n := by
  unfold append
  cases given : a.next with
  | error e =>
    refine ⟨fun grown => (by cases grown), fun ⟨room, _⟩ => ?_⟩
    rw [nextOk.mpr ⟨room, rfl⟩] at given
    cases given
  | ok g =>
    obtain ⟨room, rfl⟩ := nextOk.mp given
    constructor
    · intro grown
      cases grown
      exact ⟨room, rfl, rfl⟩
    · intro h
      obtain ⟨-, rfl, rfl⟩ := h
      rfl

theorem adjustOk {a b : Arena s α} {h : Handle s} {f : α → α} :
    a.adjust h f = .ok b ↔ h.index < a.size ∧ b = a.replace h f := by
  unfold adjust
  split
  · rename_i inside
    exact ⟨fun made => (by cases made; exact ⟨inside, rfl⟩), fun made => (by rw [made.2]; rfl)⟩
  · rename_i outside
    exact ⟨fun made => (by cases made), fun made => absurd made.1 outside⟩

theorem findOk {a : Arena s α} {h : Handle s} {n : α} : a.find h = .ok n ↔ a.get? h = some n := by
  refine ⟨fun read => ?_, findOfGet⟩
  unfold find at read
  split at read
  · rename_i m at_
    cases read
    exact at_
  · cases read

theorem fetchOk {a : Arena s α} {h : Handle s} {n : α} : a.fetch h = .ok n ↔ a.get? h = some n :=
  ⟨fetchSome, fetchOfGet⟩

theorem memNodes {a : Arena s α} {n : α} : n ∈ a.nodes.toList ↔ ∃ h, a.get? h = some n := by
  simp only [List.mem_iff_getElem?, Array.getElem?_toList, get?]
  constructor
  · intro inside
    obtain ⟨i, at_⟩ := inside
    exact ⟨⟨i⟩, at_⟩
  · intro inside
    obtain ⟨h, at_⟩ := inside
    exact ⟨h.index, at_⟩

theorem memEntries {a : Arena s α} (fits : a.size ≤ Handle.limit) {h : Handle s} {n : α} :
    (h, n) ∈ a.entries ↔ a.get? h = some n := by
  simp only [entries, List.mem_map, List.mem_zipIdx_iff_getElem?, Prod.mk.injEq, Prod.exists,
    Array.getElem?_toList, get?]
  constructor
  · intro h
    obtain ⟨m, i, at_, same, rfl⟩ := h
    have inside : i < Handle.limit := by
      have := (Array.getElem?_eq_some_iff.mp at_).1
      simp only [size] at fits
      omega
    rw [← same, ofIndexBelow inside]
    exact at_
  · intro at_
    have inside : h.index < Handle.limit := by
      have := (Array.getElem?_eq_some_iff.mp at_).1
      simp only [size] at fits
      omega
    exact ⟨n, h.index, at_, Handle.same (ofIndexBelow inside), rfl⟩

end Arena

end ShaderGraph
