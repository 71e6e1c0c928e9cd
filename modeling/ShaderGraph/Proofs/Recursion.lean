import Mathlib.Data.Finset.Card
import Mathlib.Data.Finset.Range
import ShaderGraph.Proofs.Rendering
/-! Recursions and what they call. A step that looks at its calls alone has exactly one solution
where no chain of calls goes on for ever, and fuel that outlasts the chains gives this solution. The
calls that writing an expression makes end: a call for an operand goes to an older expression, and a
call for what is bound to a slot leaves one slot less to open. -/
namespace ShaderGraph

open Relation

section

variable {α β : Type}

def Within (Calls : α → α → Prop) : Nat → α → Prop
  | 0, _ => False
  | n + 1, a => ∀ b, Calls a b → Within Calls n b

/-- What `step` gives for `a` depends on what it is given for the calls of `a`. -/
def Local (Calls : α → α → Prop) (step : (α → β) → α → β) : Prop :=
  ∀ ⦃f g : α → β⦄ ⦃a⦄, (∀ b, Calls a b → f b = g b) → step f a = step g a

/-- A solution satisfies the equation of a recursion, without fuel. -/
def Solves (step : (α → β) → α → β) (f : α → β) : Prop := ∀ a, f a = step f a

variable {Calls : α → α → Prop} {step : (α → β) → α → β} {f g : α → β}

theorem withinFounded (ends : ∀ a, ∃ n, Within Calls n a) :
    WellFounded fun next now => Calls now next := by
  have reached : ∀ n a, Within Calls n a → Acc (fun next now => Calls now next) a := by
    intro n
    induction n with
    | zero => exact fun a none => absurd none id
    | succ n ih => exact fun a calls => .intro a fun b call => ih b (calls b call)
  refine ⟨fun a => ?_⟩
  obtain ⟨n, ends⟩ := ends a
  exact reached n a ends

theorem solvedOnce (founded : WellFounded fun next now => Calls now next) (looks : Local Calls step)
    (one : Solves step f) (two : Solves step g) : f = g := by
  funext a
  induction a using founded.induction with
  | _ a ih => rw [one, two, looks ih]

section

variable {run : Nat → α → β} (unrolls : ∀ n, run (n + 1) = step (run n))
include unrolls

theorem runsAgree (looks : Local Calls step) {n m : Nat} {a : α} (one : Within Calls n a)
    (two : Within Calls m a) : run n a = run m a := by
  induction n generalizing m a with
  | zero => exact absurd one id
  | succ n ih =>
    cases m with
    | zero => exact absurd two id
    | succ m =>
      rw [unrolls, unrolls]
      exact looks fun b call => ih (one b call) (two b call)

theorem runSolves (looks : Local Calls step) (fuel : α → Nat)
    (enough : ∀ a, Within Calls (fuel a) a) : Solves step fun a => run (fuel a) a := by
  intro a
  have ends := enough a
  cases spent : fuel a with
  | zero =>
    rw [spent] at ends
    exact absurd ends id
  | succ n =>
    rw [spent] at ends
    simp only [spent, unrolls]
    exact looks fun b call => runsAgree unrolls looks (ends b call) (enough b)

end

end

namespace Program

variable (p : Program) (sp : Spelling)

inductive Calls : List SlotId × ExprId → List SlotId × ExprId → Prop
  | operand {opened : List SlotId} {e o : ExprId} (step : p.Operand e o) :
      Calls (opened, e) (opened, o)
  | bound {opened : List SlotId} {e value : ExprId} {s : SlotId} (reader : p.AtSlot e s)
      (bound : p.IsBound s value) (closed : s ∉ opened) : Calls (opened, e) (s :: opened, value)

def closedSlots (opened : List SlotId) : Finset Nat :=
  {i ∈ Finset.range p.slots.size | (⟨i⟩ : SlotId) ∉ opened}

def callsLeft (call : List SlotId × ExprId) : Nat :=
  (p.closedSlots call.1).card * (p.exprs.size + 1) + call.2.index

def writeStep (write : List SlotId × ExprId → Outcome String) (call : List SlotId × ExprId) :
    Outcome String := do
  p.renderNode sp (fun opened e => write (opened, e)) call.1 (← p.exprs.fetch call.2)

def targetStep (write : ExprId → Outcome String) (e : ExprId) : Outcome String := do
  p.renderTargetNode sp write e (← p.exprs.fetch e)

end Program

section

variable {p : Program} {sp : Spelling}

theorem closedFewer {opened : List SlotId} {s : SlotId} (stands : s.index < p.slots.size)
    (closed : s ∉ opened) :
    (p.closedSlots (s :: opened)).card < (p.closedSlots opened).card := by
  refine Finset.card_lt_card (Finset.ssubset_iff_of_subset ?_ |>.mpr ⟨s.index, ?_, ?_⟩)
  · intro i inside
    simp only [Program.closedSlots, Finset.mem_filter, List.mem_cons, not_or] at inside ⊢
    exact ⟨inside.1, inside.2.2⟩
  · simpa only [Program.closedSlots, Finset.mem_filter, Finset.mem_range] using ⟨stands, closed⟩
  · simp [Program.closedSlots]

theorem Built.callFewer (built : Built p) {now next : List SlotId × ExprId}
    (call : p.Calls now next) : p.callsLeft next < p.callsLeft now := by
  cases call with
  | operand step =>
    exact Nat.add_lt_add_left (built.operand step).1 _
  | @bound opened e value s reader bound closed =>
    obtain ⟨stands, below⟩ := built.bound bound
    have fewer : (p.closedSlots (s :: opened)).card + 1 ≤ (p.closedSlots opened).card :=
      closedFewer stands closed
    have round := Nat.mul_le_mul_right (p.exprs.size + 1) fewer
    rw [Nat.succ_mul] at round
    simp only [Program.callsLeft]
    omega

theorem Built.callsWithin (built : Built p) {n : Nat} {call : List SlotId × ExprId}
    (enough : p.callsLeft call < n) : Within p.Calls n call := by
  induction n generalizing call with
  | zero => exact absurd enough (Nat.not_lt_zero _)
  | succ n ih =>
    intro next made
    have fewer := built.callFewer made
    exact ih (by omega)

theorem callsBelow {call next : List SlotId × ExprId} (made : p.Calls call next) :
    call.2.index < p.exprs.size := by
  cases made with
  | operand step =>
    obtain ⟨node, at_, -⟩ := step
    exact Arena.below at_
  | bound reader =>
    obtain ⟨node, at_, -⟩ := reader
    exact Arena.below at_

theorem depthPositive : 0 < p.depthBound := Nat.mul_pos (Nat.succ_pos _) (Nat.succ_pos _)

theorem Built.depthEnough (built : Built p) (call : List SlotId × ExprId) :
    Within p.Calls p.depthBound call := by
  by_cases below : call.2.index < p.exprs.size
  · refine built.callsWithin ?_
    have fits : (p.closedSlots call.1).card ≤ p.slots.size :=
      (Finset.card_filter_le _ _).trans_eq (Finset.card_range _)
    have rounds := Nat.mul_le_mul_right (p.exprs.size + 1) fits
    rw [Program.callsLeft, Program.depthBound, Nat.succ_mul]
    omega
  · rw [← Nat.sub_add_cancel depthPositive]
    exact fun _ made => absurd (callsBelow made) below

theorem Built.callsEnd (built : Built p) : WellFounded fun next now => p.Calls now next :=
  withinFounded fun call => ⟨_, built.depthEnough call⟩

theorem Built.writeLocal (built : Built p) (sp : Spelling) : Local p.Calls (p.writeStep sp) := by
  rintro f g ⟨opened, e⟩ same
  unfold Program.writeStep
  cases at_ : p.exprs.get? e with
  | none => simp only [Arena.fetch, at_]; rfl
  | some node =>
    simp only [Arena.fetchOfGet at_, Bind.bind, Except.bind]
    by_cases slots : ∃ s, node.op = .slot s
    · obtain ⟨s, op⟩ := slots
      obtain ⟨slot, slotAt, -⟩ := Fits.slotAt (op ▸ (built.expr at_).1)
      obtain ⟨block, owner, -⟩ := (built.slot slotAt).owner
      simp only [Program.renderNode, op, Arena.fetchOfGet slotAt, Arena.fetchOfGet owner, Bind.bind,
        Except.bind]
      split
      · rfl
      · rename_i closed
        cases holds : slot.value with
        | none => rfl
        | some value => exact same _ (.bound ⟨node, at_, op⟩ ⟨slot, slotAt, holds⟩ closed)
    · obtain ⟨finish, parts⟩ := built.nodeParts at_ (fun s op => slots ⟨s, op⟩) sp
      rw [parts, parts]
      exact congrArg _ (Outcome.mapMSame fun o inside => same _ (.operand ⟨node, at_, inside⟩))

theorem Built.renderSolves (built : Built p) (sp : Spelling) :
    Solves (p.writeStep sp) fun call => p.renderWithin sp p.depthBound call.1 call.2 := by
  let run (n : Nat) (call : List SlotId × ExprId) := p.renderWithin sp n call.1 call.2
  have unrolls (n : Nat) : run (n + 1) = p.writeStep sp (run n) := rfl
  exact runSolves unrolls (built.writeLocal sp) (fun _ => p.depthBound) built.depthEnough

theorem Built.writtenNode (built : Built p) {e : ExprId} {node : Expr}
    (at_ : p.exprs.get? e = some node) (opened : List SlotId) :
    p.renderWithin sp p.depthBound opened e =
      p.renderNode sp (p.renderWithin sp p.depthBound) opened node := by
  have equation := built.renderSolves sp (opened, e)
  simpa only [Program.writeStep, Arena.fetchOfGet at_, Bind.bind, Except.bind] using equation

theorem Built.operandsWithin (built : Built p) {n : Nat} {e : ExprId} (enough : e.index < n) :
    Within p.Operand n e := by
  induction n generalizing e with
  | zero => exact absurd enough (Nat.not_lt_zero _)
  | succ n ih =>
    intro o step
    have older := (built.operand step).1
    exact ih (by omega)

theorem targetLocal (sp : Spelling) : Local p.Operand (p.targetStep sp) := by
  intro f g e same
  unfold Program.targetStep
  cases at_ : p.exprs.get? e with
  | none => simp only [Arena.fetch, at_]; rfl
  | some node =>
    simp only [Arena.fetchOfGet at_, Bind.bind, Except.bind, Program.renderTargetNode]
    have chain {base : ExprId} (inside : base ∈ node.op.operands) : f base = g base :=
      same base ⟨node, at_, inside⟩
    cases op : node.op with
    | column base | element base | swizzle base =>
      have inside : base ∈ node.op.operands := by simp [op, Operation.operands]
      simp only [chain inside]
    | _ => rfl

theorem Built.targetSolves (built : Built p) (sp : Spelling) :
    Solves (p.targetStep sp) fun e => p.renderTargetWithin sp (e.index + 1) e :=
  runSolves (fun _ => rfl) (targetLocal sp) (fun e => e.index + 1)
    fun _ => built.operandsWithin (Nat.lt_succ_self _)

theorem withinOfEnds {n : Nat} {e : ExprId} (ends : p.Ends n e) : Within p.Follows n e := by
  induction n generalizing e with
  | zero => exact ends
  | succ n ih => exact fun o step => ih (ends o step)

theorem followsBelow {e next : ExprId} (step : p.Follows e next) : e.index < p.exprs.size := by
  cases step with
  | operand step =>
    obtain ⟨node, at_, -⟩ := step
    exact Arena.below at_
  | bound reader =>
    obtain ⟨node, at_, -⟩ := reader
    exact Arena.below at_

theorem Built.readsEnough (built : Built p) (acyclic : p.Acyclic) (e : ExprId) :
    Within p.Follows p.depthBound e := by
  by_cases below : e.index < p.exprs.size
  · exact withinOfEnds (built.ends acyclic below)
  · rw [← Nat.sub_add_cancel depthPositive]
    exact fun _ step => absurd (followsBelow step) below

end

end ShaderGraph
