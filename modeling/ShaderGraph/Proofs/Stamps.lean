import Mathlib.Data.List.Sort
import ShaderGraph.Proofs.Arena
import ShaderGraph.Stamp
/-! Sets of stamps as maps. A set answers each variable with its stamp; putting a stamp in changes
the answer for its variable alone, and a union answers as its right side where that knows one. -/
namespace ShaderGraph

theorem findPlace (s : Stamp) (stamps : List Stamp) (v : VarId) :
    (Stamps.place s stamps).find? (fun t => t.var == v) =
      if s.var = v then some s else stamps.find? fun t => t.var == v := by
  induction stamps with
  | nil => by_cases same : s.var = v <;> simp [Stamps.place, same]
  | cons t rest ih =>
    simp only [Stamps.place]
    split
    · by_cases same : s.var = v <;> simp [same]
    · rename_i notBefore
      split
      · rename_i after
        have different : t.var ≠ s.var := by
          intro same
          rw [same] at after
          exact Nat.lt_irrefl _ after
        rw [List.find?_cons, List.find?_cons, ih]
        by_cases found : t.var = v
        · subst found
          simp [different.symm]
        · rw [beq_eq_false_iff_ne.mpr found]
      · rename_i notAfter
        have same : t.var = s.var := Handle.same (by omega)
        by_cases found : s.var = v <;> simp [same, found]

theorem sortedSame {α : Type} {place : α → Nat} {one two : List α}
    (first : one.Pairwise fun a b => place a < place b)
    (second : two.Pairwise fun a b => place a < place b) (same : ∀ a, a ∈ one ↔ a ∈ two) :
    one = two := by
  have irrefl : Std.Irrefl fun a b : α => place a < place b := ⟨fun _ => Nat.lt_irrefl _⟩
  have asymm : Std.Asymm fun a b : α => place a < place b := ⟨fun _ _ => Nat.lt_asymm⟩
  exact first.eq_of_mem_iff second same

def lastOf (v : VarId) (stamps : List Stamp) : Option Stamp :=
  (stamps.filter fun s => s.var == v).getLast?

theorem lastAppend (v : VarId) (one two : List Stamp) :
    lastOf v (one ++ two) = (lastOf v two).or (lastOf v one) := by
  rw [lastOf, List.filter_append, List.getLast?_append]
  rfl

theorem lastSome {v : VarId} {stamps : List Stamp} :
    (lastOf v stamps).isSome ↔ ∃ s ∈ stamps, s.var = v := by
  simp [lastOf]

namespace Stamps

theorem getInsert (set : Stamps) (s : Stamp) (v : VarId) :
    (set.insert s).get? v = if s.var = v then some s else set.get? v := findPlace s set.toList v

theorem getVar {set : Stamps} {v : VarId} {s : Stamp} (found : set.get? v = some s) : s.var = v := by
  simpa using List.find?_some found

theorem getMem {set : Stamps} {s : Stamp} : s ∈ set.toList ↔ set.get? s.var = some s := by
  refine ⟨fun inside => ?_, List.mem_of_find?_eq_some⟩
  obtain ⟨stamps, ordered⟩ := set
  change stamps.find? (fun t => t.var == s.var) = some s
  induction stamps with
  | nil => cases inside
  | cons t rest ih =>
    obtain ⟨first, tail⟩ := List.pairwise_cons.mp ordered
    rcases List.mem_cons.mp inside with rfl | later
    · simp
    · have other : t.var ≠ s.var := by
        intro same
        have less := first s later
        rw [same] at less
        exact Nat.lt_irrefl _ less
      rw [List.find?_cons, beq_eq_false_iff_ne.mpr other]
      exact ih tail later

theorem getInsertAll (set : Stamps) {stamps : List Stamp} (ordered : Increasing stamps) (v : VarId) :
    (set.insertAll stamps).get? v = (stamps.find? fun s => s.var == v).or (set.get? v) := by
  induction stamps generalizing set with
  | nil => rfl
  | cons s rest ih =>
    obtain ⟨first, tail⟩ := List.pairwise_cons.mp ordered
    have step : (set.insertAll (s :: rest)).get? v = ((set.insert s).insertAll rest).get? v := rfl
    rw [step, ih (set.insert s) tail, getInsert, List.find?_cons]
    by_cases same : s.var = v
    · -- the list is increasing, so no later stamp is of the same variable
      have absent : (rest.find? fun t => t.var == v) = none := by
        refine List.find?_eq_none.mpr fun t inside found => ?_
        have less := first t inside
        rw [same, ← beq_iff_eq.mp found] at less
        exact Nat.lt_irrefl _ less
      simp [same, absent]
    · rw [if_neg same, beq_eq_false_iff_ne.mpr same]

theorem getWritten (set : Stamps) (stamps : List Stamp) (v : VarId) :
    (set.insertAll stamps).get? v = (lastOf v stamps).or (set.get? v) := by
  induction stamps generalizing set with
  | nil => rfl
  | cons s rest ih =>
    have step : (set.insertAll (s :: rest)).get? v = ((set.insert s).insertAll rest).get? v := rfl
    have first : lastOf v (s :: rest) = (lastOf v rest).or (lastOf v [s]) := lastAppend v [s] rest
    rw [step, ih, getInsert, first, Option.or_assoc]
    by_cases same : s.var = v <;> simp [lastOf, same]

theorem memOfList {stamps : List Stamp} (ordered : Increasing stamps) {s : Stamp} :
    s ∈ (ofList stamps).toList ↔ s ∈ stamps := by
  have found : (ofList stamps).get? s.var = (⟨stamps, ordered⟩ : Stamps).get? s.var :=
    (getInsertAll empty ordered s.var).trans (Option.or_none ..)
  rw [getMem, found, ← getMem]

theorem getOfList (stamps : List Stamp) (v : VarId) : (ofList stamps).get? v = lastOf v stamps :=
  (getWritten empty stamps v).trans (Option.or_none ..)

theorem sameAt {a b : Stamps} (same : ∀ v, a.get? v = b.get? v) : a = b :=
  ext (sortedSame a.increasing b.increasing fun s => by rw [getMem, getMem, same])

theorem ofOwn (set : Stamps) : ofList set.toList = set :=
  sameAt fun v => (getInsertAll empty set.increasing v).trans (Option.or_none ..)

theorem getUnion (set other : Stamps) (v : VarId) :
    (set.union other).get? v = (other.get? v).or (set.get? v) :=
  getInsertAll set other.increasing v

end Stamps

end ShaderGraph
