import ShaderGraph.Arena
/-! Stamps of mutable state. A stamp is a variable with the number of assignments that had
been built to it; a set of stamps holds at most one per variable, in handle order. -/
namespace ShaderGraph

structure Stamp where
  var : VarId
  mutation : UInt32
  deriving DecidableEq, Repr

def Stamp.sameState (a b : Stamp) : Bool := a.var == b.var

def Increasing (stamps : List Stamp) : Prop :=
  stamps.Pairwise fun a b => a.var.index < b.var.index

instance (stamps : List Stamp) : Decidable (Increasing stamps) := by
  unfold Increasing; infer_instance

structure Stamps where
  toList : List Stamp := []
  increasing : Increasing toList := by exact List.Pairwise.nil
  deriving Repr

namespace Stamps

theorem ext {a b : Stamps} (same : a.toList = b.toList) : a = b := by
  cases a; cases b; cases same; rfl

instance : DecidableEq Stamps := fun a b =>
  if same : a.toList = b.toList then isTrue (ext same)
  else isFalse fun h => same (by rw [h])

def empty : Stamps := {}

def place (s : Stamp) : List Stamp → List Stamp
  | [] => [s]
  | t :: rest =>
    if s.var.index < t.var.index then s :: t :: rest
    else if t.var.index < s.var.index then t :: place s rest
    else s :: rest

theorem memPlace {s t : Stamp} {stamps : List Stamp} (inside : t ∈ place s stamps) :
    t = s ∨ t ∈ stamps := by
  induction stamps with
  | nil => simpa [place] using inside
  | cons u rest ih =>
    simp only [place] at inside
    split at inside
    · simpa using inside
    · split at inside
      · rcases List.mem_cons.mp inside with h | h
        · exact .inr (by simp [h])
        · rcases ih h with h | h
          · exact .inl h
          · exact .inr (List.mem_cons_of_mem _ h)
      · rcases List.mem_cons.mp inside with h | h
        · exact .inl h
        · exact .inr (List.mem_cons_of_mem _ h)

theorem placeIncreasing (s : Stamp) {stamps : List Stamp} (h : Increasing stamps) :
    Increasing (place s stamps) := by
  induction stamps with
  | nil => exact List.pairwise_singleton ..
  | cons t rest ih =>
    have tail := List.pairwise_cons.mp h
    simp only [place]
    split
    · rename_i before
      refine List.pairwise_cons.mpr ⟨?_, h⟩
      intro u inside
      rcases List.mem_cons.mp inside with same | later
      · subst same; exact before
      · exact Nat.lt_trans before (tail.1 u later)
    · split
      · rename_i after
        refine List.pairwise_cons.mpr ⟨?_, ih tail.2⟩
        intro u inside
        rcases memPlace inside with same | later
        · subst same; exact after
        · exact tail.1 u later
      · refine List.pairwise_cons.mpr ⟨?_, tail.2⟩
        intro u inside
        have := tail.1 u inside
        omega

def insert (set : Stamps) (s : Stamp) : Stamps :=
  ⟨place s set.toList, placeIncreasing s set.increasing⟩

def insertAll (set : Stamps) (stamps : List Stamp) : Stamps := stamps.foldl insert set

def ofList (stamps : List Stamp) : Stamps := empty.insertAll stamps

def union (set other : Stamps) : Stamps := set.insertAll other.toList

def get? (set : Stamps) (v : VarId) : Option Stamp := set.toList.find? fun s => s.var == v

def contains (set : Stamps) (v : VarId) : Bool := (set.get? v).isSome

def size (set : Stamps) : Nat := set.toList.length

def isEmpty (set : Stamps) : Bool := set.toList.isEmpty

def vars (set : Stamps) : List VarId := set.toList.map Stamp.var

def sameState (set other : Stamps) : Bool := set.vars == other.vars

def staleIn (set current : Stamps) : List Stamp :=
  set.toList.filter fun s => (current.get? s.var).any fun c => s.mutation < c.mutation

end Stamps

end ShaderGraph
