import ShaderGraph.Proofs.Reading
import ShaderGraph.Proofs.Stamps
/-! The variables that an expression caches. A node is given its list when it is built, from the
lists of its operands; neither operations nor mutability change afterwards, so the list is always
the one that a fresh walk over the operands would give. -/
namespace ShaderGraph

open Relation

def Ascending (vars : List VarId) : Prop := vars.Pairwise fun v w => v.index < w.index

theorem placeMem {v w : VarId} {vars : List VarId} : w ∈ placeVar v vars ↔ w = v ∨ w ∈ vars := by
  induction vars with
  | nil => rw [placeVar, List.mem_singleton, or_iff_left List.not_mem_nil]
  | cons u rest ih =>
    simp only [placeVar]
    split
    · exact List.mem_cons
    · split
      · rw [List.mem_cons, ih, List.mem_cons, or_left_comm]
      · rename_i above below
        have same : v = u := Handle.same (by omega)
        rw [same, List.mem_cons, ← or_assoc, or_self]

theorem Ascending.place {vars : List VarId} (ordered : Ascending vars) (v : VarId) :
    Ascending (placeVar v vars) := by
  induction vars with
  | nil => exact List.pairwise_singleton ..
  | cons u rest ih =>
    obtain ⟨first, later⟩ := List.pairwise_cons.mp ordered
    simp only [placeVar]
    split
    · rename_i below
      refine List.pairwise_cons.mpr ⟨fun w inside => ?_, ordered⟩
      rcases List.mem_cons.mp inside with rfl | inside
      · exact below
      · exact Nat.lt_trans below (first w inside)
    · split
      · rename_i above
        refine List.pairwise_cons.mpr ⟨fun w inside => ?_, ih later⟩
        rcases placeMem.mp inside with rfl | inside
        · exact above
        · exact first w inside
      · exact ordered

theorem orderedMem {v : VarId} {vars : List VarId} : v ∈ orderedVars vars ↔ v ∈ vars := by
  induction vars with
  | nil => rfl
  | cons w rest ih => rw [orderedVars, List.foldr_cons, placeMem, List.mem_cons, ← ih, orderedVars]

theorem orderedAscends (vars : List VarId) : Ascending (orderedVars vars) := by
  induction vars with
  | nil => exact .nil
  | cons w rest ih => exact ih.place w

theorem Ascending.same {vars others : List VarId} (one : Ascending vars)
    (two : Ascending others) (same : ∀ v, v ∈ vars ↔ v ∈ others) : vars = others :=
  sortedSame one two same

namespace Program

def ownVars (p : Program) : Operation → Outcome (List VarId)
  | .read v => do return if (← p.vars.fetch v).isMutable then [v] else []
  | _ => .ok []

def varsWithin (p : Program) : Nat → ExprId → Outcome (List VarId)
  | 0, _ => abort .endless
  | fuel + 1, e => do
    let node ← p.exprs.fetch e
    let own ← p.ownVars node.op
    let deeper ← node.op.operands.mapM (p.varsWithin fuel)
    return own ++ deeper.flatten

/-- The mutable variables that a walk from the expression over operands meets, with no cache. -/
def freshVars (p : Program) (e : ExprId) : Outcome (List VarId) :=
  (p.varsWithin (e.index + 1) e).map orderedVars

def IsMutable (p : Program) (v : VarId) : Prop :=
  ∃ var, p.vars.get? v = some var ∧ var.isMutable = true

def Depends (p : Program) (e : ExprId) (v : VarId) : Prop :=
  p.IsMutable v ∧ ∃ o, p.Contains e o ∧ p.AtVar o v

end Program

section

variable {p q : Program}

theorem ownVarsOk {op : Operation} {own : List VarId} (found : p.ownVars op = .ok own) (v : VarId) :
    v ∈ own ↔ op = .read v ∧ p.IsMutable v := by
  cases op with
  | read w =>
    simp only [Program.ownVars, Outcome.bindOk, Outcome.pureOk, Arena.fetchOk] at found
    obtain ⟨var, at_, rfl⟩ := found
    constructor
    · intro inside
      split at inside
      · rename_i changes
        rw [List.mem_singleton.mp inside]
        exact ⟨rfl, var, at_, changes⟩
      · cases inside
    · intro h
      obtain ⟨same, again, there, changes⟩ := h
      cases same
      cases at_.symm.trans there
      rw [if_pos changes]
      exact List.mem_cons_self
  | _ =>
    cases found
    simp

theorem stateOfOk {op : Operation} {state : List VarId} : p.stateOf op = .ok state ↔
    ∃ own nodes, p.ownVars op = .ok own ∧
      List.Forall₂ (fun o node => p.exprs.get? o = some node) op.operands nodes ∧
      orderedVars (own ++ (nodes.map Expr.state).flatten) = state := by
  have split : p.stateOf op = (do
      let own ← p.ownVars op
      let nodes ← op.operands.mapM p.exprs.fetch
      return orderedVars (own ++ (nodes.map Expr.state).flatten)) := by
    cases op with
    | read v =>
      simp only [Program.stateOf, Program.ownVars, bind_assoc, pure_bind]
      refine bind_congr fun var => ?_
      cases var.isMutable <;> rfl
    | _ => rfl
  simp only [split, Outcome.bindOk, Outcome.pureOk, Outcome.mapMOk, Arena.fetchOk]
  constructor
  · intro h
    obtain ⟨own, first, nodes, read, made⟩ := h
    exact ⟨own, nodes, first, read, made⟩
  · intro h
    obtain ⟨own, nodes, first, read, made⟩ := h
    exact ⟨own, first, nodes, read, made⟩

theorem Grows.ownVars (grows : Grows p q) {op : Operation} {own : List VarId}
    (found : p.ownVars op = .ok own) : q.ownVars op = .ok own := by
  cases op with
  | read v =>
    simp only [Program.ownVars, Outcome.bindOk, Outcome.pureOk, Arena.fetchOk] at found ⊢
    obtain ⟨var, at_, made⟩ := found
    obtain ⟨_, there, m, rfl⟩ := grows.vars at_
    exact ⟨_, there, made⟩
  | _ => exact found

theorem Grows.stateOf (grows : Grows p q) {op : Operation} {state : List VarId}
    (found : p.stateOf op = .ok state) : q.stateOf op = .ok state := by
  obtain ⟨own, nodes, first, read, made⟩ := stateOfOk.mp found
  refine stateOfOk.mpr ⟨own, nodes, grows.ownVars first, read.imp fun o node at_ => ?_, made⟩
  obtain ⟨_, there, rfl⟩ := grows.exprs at_
  exact there

theorem Built.cached (built : Built p) {e : ExprId} {node : Expr}
    (at_ : p.exprs.get? e = some node) : p.stateOf node.op = .ok node.state := by
  induction built with
  | new name => exact absurd at_ emptyGet
  | edit _ edit ih =>
    refine edit.grows.stateOf ?_
    cases edit with
    | expr fits known =>
      rcases Arena.getPushed at_ with ⟨rfl, rfl⟩ | old
      · exact known
      · exact ih old
    | slot =>
      rcases Arena.getPushed at_ with ⟨rfl, rfl⟩ | old
      · rfl
      · exact ih old
    | _ => exact ih at_

theorem Program.Depends.step {e : ExprId} {node : Expr} (at_ : p.exprs.get? e = some node)
    (v : VarId) : p.Depends e v ↔
      (node.op = .read v ∧ p.IsMutable v) ∨ ∃ o ∈ node.op.operands, p.Depends o v := by
  constructor
  · intro h
    obtain ⟨changes, o, under, read⟩ := h
    rcases ReflTransGen.cases_head under with rfl | ⟨next, step, further⟩
    · exact .inl ⟨read.op at_, changes⟩
    · obtain ⟨again, there, inside⟩ := step
      cases at_.symm.trans there
      exact .inr ⟨next, inside, changes, o, further, read⟩
  · intro h
    obtain ⟨read, changes⟩ | ⟨next, inside, changes, o, further, read⟩ := h
    · exact ⟨changes, e, .refl, node, at_, read⟩
    · exact ⟨changes, o, .head ⟨node, at_, inside⟩ further, read⟩

theorem dependsIff {e : ExprId} {node : Expr} {own : List VarId} {deeper : List (List VarId)}
    (at_ : p.exprs.get? e = some node) (first : p.ownVars node.op = .ok own)
    (each : List.Forall₂ (fun o vars => ∀ v, v ∈ vars ↔ p.Depends o v) node.op.operands deeper)
    (v : VarId) : v ∈ own ++ deeper.flatten ↔ p.Depends e v := by
  rw [List.mem_append, ownVarsOk first, Program.Depends.step at_]
  refine or_congr Iff.rfl ?_
  generalize node.op.operands = operands at each
  induction each with
  | nil => simp
  | cons same _ ih =>
    simp only [List.flatten_cons, List.mem_append, same, ih, List.mem_cons, exists_eq_or_imp]

theorem Built.stateMem (built : Built p) {e : ExprId} {node : Expr}
    (at_ : p.exprs.get? e = some node) (v : VarId) : v ∈ node.state ↔ p.Depends e v := by
  -- by recursion on the handle, since operands are older
  induction depth : e.index using Nat.strongRecOn generalizing e node v with
  | ind n ih =>
    obtain ⟨own, nodes, first, read, made⟩ := stateOfOk.mp (built.cached at_)
    have older := (built.expr at_).2
    rw [← made, orderedMem]
    refine dependsIff at_ first (List.forall₂_map_right_iff.mpr ?_) v
    have listed := (List.forall₂_and_left _ _).mpr ⟨older, read⟩
    exact listed.imp fun o inner ⟨less, there⟩ w => ih o.index (depth ▸ less) there w rfl

theorem Built.walkMem (built : Built p) {fuel : Nat} {e : ExprId} {node : Expr}
    (at_ : p.exprs.get? e = some node) (enough : e.index < fuel) :
    ∃ found, p.varsWithin fuel e = .ok found ∧ ∀ v, v ∈ found ↔ p.Depends e v := by
  induction fuel generalizing e node with
  | zero => exact absurd enough (Nat.not_lt_zero _)
  | succ fuel ih =>
    obtain ⟨own, nodes, first, -, -⟩ := stateOfOk.mp (built.cached at_)
    have walks : ∀ o ∈ node.op.operands,
        ∃ found, p.varsWithin fuel o = .ok found ∧ ∀ v, v ∈ found ↔ p.Depends o v := by
      intro o inside
      obtain ⟨older, stands⟩ := built.operand ⟨node, at_, inside⟩
      obtain ⟨inner, there⟩ := Arena.atBelow stands
      exact ih there (by omega)
    obtain ⟨deeper, read⟩ := Outcome.mapMTotal fun o inside => by
      obtain ⟨found, walked, -⟩ := walks o inside
      exact ⟨found, walked⟩
    refine ⟨own ++ deeper.flatten, ?_, dependsIff at_ first ?_⟩
    · simp only [Program.varsWithin, Outcome.bindOk, Outcome.pureOk, Arena.fetchOk]
      exact ⟨node, at_, own, first, deeper, read, rfl⟩
    · have listed := (List.forall₂_and_left _ _).mpr ⟨walks, Outcome.mapMOk.mp read⟩
      refine listed.imp fun o found ⟨walk, walked⟩ => ?_
      obtain ⟨again, same, each⟩ := walk
      cases walked.symm.trans same
      exact each

structure Program.Exact (p : Program) (e : ExprId) (state : List VarId) : Prop where
  ascends : Ascending state
  mem : ∀ v, v ∈ state ↔ p.Depends e v
  walked : p.freshVars e = .ok state

theorem Built.exact (built : Built p) {e : ExprId} {node : Expr}
    (at_ : p.exprs.get? e = some node) : p.Exact e node.state := by
  have mem := built.stateMem at_
  have ascends : Ascending node.state := by
    obtain ⟨own, nodes, -, -, made⟩ := stateOfOk.mp (built.cached at_)
    exact made ▸ orderedAscends _
  refine ⟨ascends, mem, ?_⟩
  obtain ⟨found, walked, same⟩ := built.walkMem at_ (Nat.lt_succ_self _)
  rw [Program.freshVars, walked]
  refine congrArg Except.ok ((orderedAscends found).same ascends fun v => ?_)
  rw [orderedMem, same, mem]

theorem reachableExact (reachable : Reachable p) {e : ExprId} {node : Expr}
    (at_ : p.exprs.get? e = some node) : p.Exact e node.state ∧
      ∀ q, ReflTransGen (fun p q => ∃ call, Step p call q) p q →
        q.exprs.get? e = some node ∧ q.Exact e node.state := by
  have built := reachableBuilt reachable
  refine ⟨built.exact at_, fun q later => ?_⟩
  have edits : Edits p q := by
    induction later with
    | refl => exact .refl
    | tail _ last ih =>
      obtain ⟨call, step⟩ := last
      exact ih.trans (stepEdits step)
  obtain ⟨_, there, rfl⟩ := edits.grows.exprs at_
  exact ⟨there, (built.edits edits).exact there⟩

def sharedRun : List Call :=
  [.addStage .fragment, .literal (.int 0), .declare ⟨0⟩ "a" .int1 (some ⟨0⟩),
    .declare ⟨0⟩ "b" .int1 (some ⟨0⟩), .uniform "u" .int1, .read ⟨1⟩, .read ⟨0⟩, .read ⟨2⟩,
    .binary .add ⟨1⟩ ⟨2⟩, .binary .add ⟨4⟩ ⟨3⟩, .binary .add ⟨5⟩ ⟨1⟩]

theorem sharedRuns : ∃ p q node, Program.after { name := "p" } sharedRun = some p ∧
    p.exprs.get? ⟨6⟩ = some node ∧ node.state = [⟨0⟩, ⟨1⟩] ∧
    Step p (.assign ⟨0⟩ ⟨2⟩ ⟨0⟩) q :=
  ⟨_, _, _, rfl, rfl, rfl, .answered _ rfl⟩

theorem reachableExactShared : ∃ p q node, Program.after { name := "p" } sharedRun = some p ∧
    Step p (.assign ⟨0⟩ ⟨2⟩ ⟨0⟩) q ∧ p.exprs.get? ⟨6⟩ = some node ∧ q.exprs.get? ⟨6⟩ = some node ∧
    p.Exact ⟨6⟩ [⟨0⟩, ⟨1⟩] ∧ q.Exact ⟨6⟩ [⟨0⟩, ⟨1⟩] := by
  obtain ⟨p, q, node, ran, at_, state, step⟩ := sharedRuns
  obtain ⟨now, later⟩ := reachableExact ((Reachable.new "p").after ran) at_
  obtain ⟨there, kept⟩ := later q (.single ⟨_, step⟩)
  exact ⟨p, q, node, ran, step, at_, there, state ▸ now, state ▸ kept⟩

end

end ShaderGraph
