import ShaderGraph.Proofs.Stamps
/-! Sets of stamps under union. However a set was put together, it holds of each variable the stamp
that was put in last, and nothing else tells two sets apart; the laws of unions follow. Comparing
two sets looks at their variables alone, and what is stale in another set at both counts. -/
namespace ShaderGraph

theorem lastSingle (v : VarId) (s : Stamp) : lastOf v [s] = if s.var = v then some s else none := by
  by_cases same : s.var = v <;> simp [lastOf, same]

namespace Stamps

inductive Made : List Stamp → Stamps → Prop
  | empty : Made [] .empty
  | insert {stamps : List Stamp} {set : Stamps} (made : Made stamps set) (s : Stamp) :
      Made (stamps ++ [s]) (set.insert s)
  | union {stamps others : List Stamp} {set other : Stamps} (made : Made stamps set)
      (also : Made others other) : Made (stamps ++ others) (set.union other)
  | collect (stamps : List Stamp) : Made stamps (.ofList stamps)

def AtMost (c d : Stamps) : Prop :=
  ∀ ⦃v s⦄, c.get? v = some s → ∃ t, d.get? v = some t ∧ s.mutation ≤ t.mutation

section

variable {stamps others : List Stamp} {a b c d : Stamps} {s : Stamp} {v : VarId}

theorem Made.get (made : Made stamps a) (v : VarId) : a.get? v = lastOf v stamps := by
  induction made with
  | empty => rfl
  | insert made s ih =>
    rw [getInsert, lastAppend, lastSingle, ih]
    split
    · rfl
    · rfl
  | union made also ih later => rw [getUnion, lastAppend, ih, later]
  | collect stamps => exact getOfList stamps v

theorem Made.collected (made : Made stamps a) : a = ofList stamps :=
  sameAt fun v => (made.get v).trans (getOfList stamps v).symm

theorem unionAssoc (a b c : Stamps) : (a.union b).union c = a.union (b.union c) :=
  sameAt fun v => by rw [getUnion, getUnion, getUnion, getUnion, Option.or_assoc]

theorem unionSelf (a : Stamps) : a.union a = a :=
  sameAt fun v => by rw [getUnion, Option.or_self]

theorem unionEmpty (a : Stamps) : a.union empty = a := rfl

theorem emptyUnion (a : Stamps) : empty.union a = a := ofOwn a

theorem memVars : v ∈ a.vars ↔ a.contains v = true := by
  rw [vars, List.mem_map, contains, Option.isSome_iff_exists]
  constructor
  · rintro ⟨s, inside, rfl⟩
    exact ⟨s, getMem.mp inside⟩
  · rintro ⟨s, found⟩
    exact ⟨s, List.mem_of_find?_eq_some found, getVar found⟩

theorem varsIncreasing (a : Stamps) : a.vars.Pairwise fun v w => v.index < w.index :=
  List.pairwise_map.mpr a.increasing

theorem sameStateIff : a.sameState b = true ↔ ∀ v, a.contains v = b.contains v := by
  rw [sameState, beq_iff_eq]
  constructor
  · intro same v
    rw [Bool.eq_iff_iff, ← memVars, ← memVars, same]
  · intro same
    exact sortedSame a.varsIncreasing b.varsIncreasing fun v => by rw [memVars, memVars, same]

theorem memStale : s ∈ a.staleIn c ↔
    s ∈ a.toList ∧ ∃ t, c.get? s.var = some t ∧ s.mutation < t.mutation := by
  simp [staleIn, Option.any_eq_true]

theorem staleIncreasing (a c : Stamps) : Increasing (a.staleIn c) := a.increasing.filter _

theorem staleGrows (most : c.AtMost d) : (a.staleIn c).Sublist (a.staleIn d) := by
  refine List.monotone_filter_right a.toList fun s late => ?_
  obtain ⟨t, found, later⟩ := (Option.any_eq_true ..).mp late
  obtain ⟨u, there, least⟩ := most found
  refine (Option.any_eq_true ..).mpr ⟨u, there, decide_eq_true ?_⟩
  exact UInt32.lt_of_lt_of_le (of_decide_eq_true later) least

end

structure Merges (stamps : List Stamp) (a b c : Stamps) : Prop where
  ordered : Increasing a.toList
  listed : ∀ s, s ∈ a.toList ↔ lastOf s.var stamps = some s
  found : ∀ v, a.get? v = lastOf v stamps
  inserted : stamps.foldl insert empty = a
  collected : ofList stamps = a
  union : ∀ v, (a.union b).get? v = (b.get? v).or (a.get? v)
  associative : (a.union b).union c = a.union (b.union c)
  idempotent : a.union a = a
  nothingAfter : a.union empty = a
  nothingBefore : empty.union a = a
  alike : a.sameState b = true ↔ ∀ v, a.contains v = b.contains v
  stale : ∀ s, s ∈ a.staleIn c ↔ s ∈ a.toList ∧ ∃ t, c.get? s.var = some t ∧ s.mutation < t.mutation
  staleOrdered : Increasing (a.staleIn c)
  staleGrows : ∀ d, c.AtMost d → (a.staleIn c).Sublist (a.staleIn d)

end Stamps

theorem stampsMerged {stamps : List Stamp} {a : Stamps} (made : Stamps.Made stamps a) (b c : Stamps) :
    Stamps.Merges stamps a b c where
  ordered := a.increasing
  listed s := by rw [Stamps.getMem, made.get]
  found := made.get
  inserted := made.collected.symm
  collected := made.collected.symm
  union := Stamps.getUnion a b
  associative := Stamps.unionAssoc a b c
  idempotent := Stamps.unionSelf a
  nothingAfter := Stamps.unionEmpty a
  nothingBefore := Stamps.emptyUnion a
  alike := Stamps.sameStateIff
  stale _ := Stamps.memStale
  staleOrdered := Stamps.staleIncreasing a c
  staleGrows _ := Stamps.staleGrows

theorem stampsMergedReplaced : ∃ a b : Stamps, a = (Stamps.ofList [⟨⟨2⟩, 1⟩, ⟨⟨0⟩, 4⟩]).insert ⟨⟨2⟩, 0⟩ ∧
    b = Stamps.ofList [⟨⟨0⟩, 1⟩, ⟨⟨2⟩, 3⟩] ∧ a.toList = [⟨⟨0⟩, 4⟩, ⟨⟨2⟩, 0⟩] ∧
    (a.union b).toList = b.toList ∧ a.sameState b = true ∧ a ≠ b ∧ a.staleIn b = [⟨⟨2⟩, 0⟩] ∧
    Stamps.Merges ([⟨⟨2⟩, 1⟩, ⟨⟨0⟩, 4⟩] ++ [⟨⟨2⟩, 0⟩]) a b b :=
  ⟨_, _, rfl, rfl, by decide, by decide, by decide, by decide, by decide,
    stampsMerged ((Stamps.Made.collect _).insert _) _ _⟩

end ShaderGraph
