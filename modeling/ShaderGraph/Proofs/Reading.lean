import Mathlib.Data.List.Nodup
import Mathlib.Data.List.Perm.Subperm
import ShaderGraph.Check
import ShaderGraph.Proofs.Sound
/-! What an expression reads. Operands lead to older expressions and end by themselves; bindings
lead from a slot to any expression, so a walk that follows them ends only where no slot reaches
itself. Then a walk opens each slot at most once, and the depth bound of the walks is enough. -/
namespace ShaderGraph

open Relation

namespace Program

variable (p : Program)

def Operand (e o : ExprId) : Prop := ∃ node, p.exprs.get? e = some node ∧ o ∈ node.op.operands

def Contains : ExprId → ExprId → Prop := ReflTransGen p.Operand

def AtSlot (e : ExprId) (s : SlotId) : Prop := ∃ node, p.exprs.get? e = some node ∧ node.op = .slot s

def AtVar (e : ExprId) (v : VarId) : Prop := ∃ node, p.exprs.get? e = some node ∧ node.op = .read v

def IsBound (s : SlotId) (value : ExprId) : Prop :=
  ∃ slot, p.slots.get? s = some slot ∧ slot.value = some value

def Holds (e : ExprId) (s : SlotId) : Prop := ∃ o, p.Contains e o ∧ p.AtSlot o s

def Feeds (i j : SlotId) : Prop := ∃ value, p.IsBound i value ∧ p.Holds value j

def Acyclic : Prop := ∀ s, ¬ TransGen p.Feeds s s

inductive Follows (e : ExprId) : ExprId → Prop
  | operand {o : ExprId} (step : p.Operand e o) : Follows e o
  | bound {s : SlotId} {value : ExprId} (reader : p.AtSlot e s) (bound : p.IsBound s value) :
      Follows e value

def Reads (e : ExprId) (v : VarId) : Prop := ∃ o, ReflTransGen p.Follows e o ∧ p.AtVar o v

def Ends : Nat → ExprId → Prop
  | 0, _ => False
  | n + 1, e => ∀ o, p.Follows e o → Ends n o

def Leads (path : List SlotId) (e : ExprId) : Prop :=
  ∀ i ∈ path, ∀ j, p.Holds e j → TransGen p.Feeds i j

/-- A walk may stand at `e` with the slots of `path` open. -/
structure Trail (path : List SlotId) (e : ExprId) : Prop where
  once : path.Nodup
  stand : ∀ s ∈ path, s.index < p.slots.size
  leads : p.Leads path e

/-- How many steps a walk can still make. A slot that is left to open is worth a whole round of
operands. -/
def stepsLeft (path : List SlotId) (e : ExprId) : Nat :=
  (p.slots.size - path.length) * (p.exprs.size + 1) + e.index

end Program

section

variable {p : Program}

theorem Program.AtSlot.op {e : ExprId} {s : SlotId} {node : Expr} (reader : p.AtSlot e s)
    (at_ : p.exprs.get? e = some node) : node.op = .slot s := by
  obtain ⟨again, there, op⟩ := reader
  cases at_.symm.trans there
  exact op

theorem Program.AtVar.op {e : ExprId} {v : VarId} {node : Expr} (read : p.AtVar e v)
    (at_ : p.exprs.get? e = some node) : node.op = .read v := by
  obtain ⟨again, there, op⟩ := read
  cases at_.symm.trans there
  exact op

theorem Program.AtSlot.holds {e : ExprId} {s : SlotId} (reader : p.AtSlot e s) : p.Holds e s :=
  ⟨e, .refl, reader⟩

theorem Program.Holds.operand {e o : ExprId} {s : SlotId} (step : p.Operand e o)
    (holds : p.Holds o s) : p.Holds e s := by
  obtain ⟨a, under, reader⟩ := holds
  exact ⟨a, .head step under, reader⟩

namespace Program.Leads

variable {path : List SlotId} {e o value : ExprId} {s : SlotId}

theorem nil : p.Leads [] e := fun _ inside => by cases inside

theorem operand (leads : p.Leads path e) (step : p.Operand e o) : p.Leads path o :=
  fun i inside _ holds => leads i inside _ (holds.operand step)

theorem opened (leads : p.Leads path e) (reader : p.AtSlot e s) (bound : p.IsBound s value) :
    p.Leads (s :: path) value := by
  intro i inside j holds
  rcases List.mem_cons.mp inside with rfl | inside
  · exact .single ⟨value, bound, holds⟩
  · exact .tail (leads i inside s reader.holds) ⟨value, bound, holds⟩

theorem closed (leads : p.Leads path e) (acyclic : p.Acyclic) (reader : p.AtSlot e s) :
    s ∉ path := fun inside => acyclic s (leads s inside s reader.holds)

end Program.Leads

theorem pathLength {sort : NodeSort} {size : Nat} {path : List (Handle sort)} (once : path.Nodup)
    (stand : ∀ h ∈ path, h.index < size) : path.length ≤ size := by
  have indices : (path.map Handle.index).Nodup :=
    List.Nodup.map (fun _ _ same => Handle.same same) once
  have inside : path.map Handle.index ⊆ List.range size := by
    intro i there
    obtain ⟨h, held, rfl⟩ := List.mem_map.mp there
    exact List.mem_range.mpr (stand h held)
  have fits := (List.subperm_of_subset indices inside).length_le
  rwa [List.length_map, List.length_range] at fits

theorem Built.operand (built : Built p) {e o : ExprId} (step : p.Operand e o) :
    o.index < e.index ∧ o.index < p.exprs.size := by
  obtain ⟨node, at_, inside⟩ := step
  obtain ⟨fits, older⟩ := built.expr at_
  obtain ⟨t, typed⟩ := fits.operand inside
  exact ⟨older o inside, typed.below⟩

theorem Built.bound (built : Built p) {s : SlotId} {value : ExprId} (bound : p.IsBound s value) :
    s.index < p.slots.size ∧ value.index < p.exprs.size := by
  obtain ⟨slot, at_, holds⟩ := bound
  exact ⟨Arena.below at_, ((built.slot at_).typed value holds).below⟩

theorem Program.Trail.start {e : ExprId} : p.Trail [] e :=
  ⟨List.nodup_nil, fun _ none => (by cases none), .nil⟩

theorem stepsAtStart {e : ExprId} (below : e.index < p.exprs.size) :
    p.stepsLeft [] e < p.depthBound := by
  rw [Program.depthBound, Program.stepsLeft, Nat.succ_mul]
  simp only [List.length_nil, Nat.sub_zero]
  omega

theorem Built.trailOperand (built : Built p) {path : List SlotId} {e o : ExprId}
    (trail : p.Trail path e) (step : p.Operand e o) :
    p.Trail path o ∧ p.stepsLeft path o < p.stepsLeft path e := by
  have older := (built.operand step).1
  refine ⟨⟨trail.once, trail.stand, trail.leads.operand step⟩, ?_⟩
  unfold Program.stepsLeft
  omega

theorem Built.trailBound (built : Built p) {path : List SlotId} {e value : ExprId} {s : SlotId}
    (trail : p.Trail path e) (reader : p.AtSlot e s) (bound : p.IsBound s value)
    (closed : s ∉ path) :
    p.Trail (s :: path) value ∧ p.stepsLeft (s :: path) value < p.stepsLeft path e := by
  obtain ⟨known, below⟩ := built.bound bound
  have once : (s :: path).Nodup := List.nodup_cons.mpr ⟨closed, trail.once⟩
  have stand : ∀ t ∈ s :: path, t.index < p.slots.size :=
    List.forall_mem_cons.mpr ⟨known, trail.stand⟩
  refine ⟨⟨once, stand, trail.leads.opened reader bound⟩, ?_⟩
  have left : p.slots.size - path.length = (p.slots.size - (s :: path).length) + 1 := by
    have fits := pathLength once stand
    simp only [List.length_cons] at fits ⊢
    omega
  unfold Program.stepsLeft
  rw [left, Nat.succ_mul]
  omega

theorem Built.endsWithin (built : Built p) (acyclic : p.Acyclic) {n : Nat} {path : List SlotId}
    {e : ExprId} (trail : p.Trail path e) (enough : p.stepsLeft path e < n) : p.Ends n e := by
  induction n generalizing path e with
  | zero => exact absurd enough (Nat.not_lt_zero _)
  | succ n ih =>
    intro o step
    cases step with
    | operand step =>
      obtain ⟨trail, fewer⟩ := built.trailOperand trail step
      exact ih trail (by omega)
    | bound reader bound =>
      have closed := trail.leads.closed acyclic reader
      obtain ⟨trail, fewer⟩ := built.trailBound trail reader bound closed
      exact ih trail (by omega)

theorem Built.ends (built : Built p) (acyclic : p.Acyclic) {e : ExprId}
    (inside : e.index < p.exprs.size) : p.Ends p.depthBound e :=
  built.endsWithin acyclic .start (stepsAtStart inside)

end

end ShaderGraph
