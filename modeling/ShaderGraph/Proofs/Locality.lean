import ShaderGraph.Glsl.Dialect
import ShaderGraph.Wgsl.Dialect
import ShaderGraph.Proofs.Persistence
import ShaderGraph.Proofs.Recursion
/-! What writing an expression looks at: the expressions and inputs it reaches through operands
and bindings, and of a variable and a block what no call changes. A call that does not bind or
clear one of these inputs leaves the text as it is, and so does a run of such calls. -/
namespace ShaderGraph

open Relation

structure Spelling.Steady (sp : Spelling) : Prop where
  read : ∀ ⦃v w⦄, v.Kept w → sp.read w = sp.read v
  unbound : ∀ slot ⦃b c⦄, b.Kept c → sp.unbound slot c = sp.unbound slot b

inductive Spelling.Target : Spelling → Prop
  | pseudo : Target .pseudo
  | glsl : Target Glsl.spelling
  | wgsl (stage : StageKind) : Target (Wgsl.spelling stage)

def Program.Reaches (p : Program) (e : ExprId) (s : SlotId) : Prop :=
  ∃ o, ReflTransGen p.Follows e o ∧ p.AtSlot o s

def Program.Spared (p q : Program) (e : ExprId) : Prop :=
  ∀ s, p.Reaches e s → q.slots.get? s = p.slots.get? s

section

variable {p q r : Program} {sp : Spelling} {e o : ExprId}

theorem Spelling.Target.steady (target : sp.Target) : sp.Steady := by
  cases target with
  | pseudo =>
    refine ⟨fun v w kept => ?_, fun _ _ _ _ => rfl⟩
    obtain ⟨m, rfl⟩ := kept
    rfl
  | glsl | wgsl =>
    refine ⟨fun v w kept => ?_, fun slot b c kept => ?_⟩
    · obtain ⟨m, rfl⟩ := kept
      rfl
    · obtain ⟨inputs, outputs, rfl, -⟩ := kept
      rfl

theorem Program.Reaches.step (follows : p.Follows e o) {s : SlotId} (reaches : p.Reaches o s) :
    p.Reaches e s := by
  obtain ⟨a, further, reader⟩ := reaches
  exact ⟨a, .head follows further, reader⟩

theorem Program.Spared.step (spared : p.Spared q e) (follows : p.Follows e o) : p.Spared q o :=
  fun s reaches => spared s (reaches.step follows)

theorem Built.followsStands (built : Built p) (follows : p.Follows e o) :
    o.index < p.exprs.size := by
  cases follows with
  | operand step => exact (built.operand step).2
  | bound _ bound => exact (built.bound bound).2

theorem Program.Follows.source (follows : p.Follows e o) {node : Expr}
    (at_ : p.exprs.get? e = some node) :
    o ∈ node.op.operands ∨ ∃ s, node.op = .slot s ∧ p.IsBound s o := by
  cases follows with
  | operand step =>
    obtain ⟨other, there, inside⟩ := step
    cases at_.symm.trans there
    exact .inl inside
  | bound reader bound => exact .inr ⟨_, reader.op at_, bound⟩

theorem Grows.fetchExpr (grows : Grows p q) (stands : e.index < p.exprs.size) :
    q.exprs.fetch e = p.exprs.fetch e := by
  obtain ⟨node, at_⟩ := Arena.atBelow stands
  rw [Arena.fetchOfGet at_, Arena.fetchOfGet ((grows.exprAt stands).trans at_)]

theorem Built.renderNodeLocal (built : Built p) (grows : Grows p q) (steady : sp.Steady)
    {node : Expr} (at_ : p.exprs.get? e = some node)
    (same : ∀ s, p.AtSlot e s → q.slots.get? s = p.slots.get? s)
    (sub : List SlotId → ExprId → Outcome String) (opened : List SlotId) :
    q.renderNode sp sub opened node = p.renderNode sp sub opened node := by
  obtain ⟨fits, -⟩ := built.expr at_
  have fetched {o : ExprId} (inside : o ∈ node.op.operands) :
      q.exprs.fetch o = p.exprs.fetch o :=
    grows.fetchExpr (built.operand ⟨node, at_, inside⟩).2
  cases op : node.op with
  | read v =>
    obtain ⟨var, varAt, -⟩ := Fits.readAt (op ▸ fits)
    obtain ⟨now, there, kept⟩ := grows.vars varAt
    simp only [Program.renderNode, op, Arena.fetchOfGet varAt, Arena.fetchOfGet there, bind,
      Except.bind, steady.read kept]
  | slot s =>
    obtain ⟨slot, slotAt, -⟩ := Fits.slotAt (op ▸ fits)
    obtain ⟨block, blockAt, -⟩ := (built.slot slotAt).owner
    obtain ⟨now, there, kept⟩ := grows.blocks blockAt
    have slotThere := (same s ⟨node, at_, op⟩).trans slotAt
    have cycle : (cyclic slot now : Outcome String) = cyclic slot block := by
      obtain ⟨inputs, outputs, rfl, -⟩ := kept
      rfl
    simp only [Program.renderNode, op, Arena.fetchOfGet slotAt, Arena.fetchOfGet slotThere,
      Arena.fetchOfGet blockAt, Arena.fetchOfGet there, bind, Except.bind, cycle,
      steady.unbound slot kept]
  | binary _ left right =>
    have one := fetched (o := left) (by simp [op, Operation.operands])
    have two := fetched (o := right) (by simp [op, Operation.operands])
    simp only [Program.renderNode, op, Program.operandTy, one, two]
  | column base index | element base index =>
    have same := fetched (o := index) (by simp [op, Operation.operands])
    simp only [Program.renderNode, op, Program.indexText, same]
  | sample texture coord =>
    have same := fetched (o := texture) (by simp [op, Operation.operands])
    simp only [Program.renderNode, op, Program.samplerTy, Program.operandTy, same]
  | load texture coord =>
    have same := fetched (o := texture) (by simp [op, Operation.operands])
    simp only [Program.renderNode, op, Program.storageTy, Program.operandTy, same]
  | _ => simp only [Program.renderNode, op]

theorem Built.writeStepLocal (built : Built p) (grows : Grows p q) (steady : sp.Steady)
    {call : List SlotId × ExprId} (stands : call.2.index < p.exprs.size)
    (spared : p.Spared q call.2) (write : List SlotId × ExprId → Outcome String) :
    q.writeStep sp write call = p.writeStep sp write call := by
  obtain ⟨node, at_⟩ := Arena.atBelow stands
  simp only [Program.writeStep, grows.fetchExpr stands, Arena.fetchOfGet at_, bind, Except.bind]
  exact built.renderNodeLocal grows steady at_ (fun s reader => spared s ⟨_, .refl, reader⟩) _ _

theorem Program.Calls.follows {call next : List SlotId × ExprId} (made : p.Calls call next) :
    p.Follows call.2 next.2 := by
  cases made with
  | operand step => exact .operand step
  | bound reader bound => exact .bound reader bound

theorem Built.writtenLocal (built : Built p) (later : Built q) (grows : Grows p q)
    (steady : sp.Steady) {call : List SlotId × ExprId} (stands : call.2.index < p.exprs.size)
    (spared : p.Spared q call.2) : q.renderWithin sp q.depthBound call.1 call.2 =
      p.renderWithin sp p.depthBound call.1 call.2 := by
  let before (c : List SlotId × ExprId) := p.renderWithin sp p.depthBound c.1 c.2
  let after (c : List SlotId × ExprId) := q.renderWithin sp q.depthBound c.1 c.2
  -- in the order in which the calls over `p` end; the fuel over `q` is another
  induction call using built.callsEnd.induction with
  | _ call ih =>
    have same (next : List SlotId × ExprId) (made : p.Calls call next) :
        after next = before next :=
      ih next made (built.followsStands made.follows) (spared.step made.follows)
    calc after call
      _ = q.writeStep sp after call := later.renderSolves sp call
      _ = p.writeStep sp after call := built.writeStepLocal grows steady stands spared after
      _ = p.writeStep sp before call := built.writeLocal sp same
      _ = before call := (built.renderSolves sp call).symm

theorem Built.renderLocal (built : Built p) (later : Built q) (grows : Grows p q)
    (steady : sp.Steady) (stands : e.index < p.exprs.size) (spared : p.Spared q e) :
    q.render sp e = p.render sp e := by
  obtain ⟨node, at_⟩ := Arena.atBelow stands
  have there := (grows.exprAt stands).trans at_
  simp only [Program.render, Arena.findOfGet at_, Arena.findOfGet there, bind, Except.bind]
  have call : (([], e) : List SlotId × ExprId).2.index < p.exprs.size := stands
  exact built.writtenLocal later grows steady call spared

theorem Built.pseudoLocal (built : Built p) (later : Built q) (grows : Grows p q)
    (stands : e.index < p.exprs.size) (spared : p.Spared q e) : q.pseudo e = p.pseudo e := by
  rw [Program.pseudo, built.renderLocal later grows Spelling.Target.pseudo.steady stands spared,
    Program.pseudo]

theorem Built.targetWithinLocal (built : Built p) (later : Built q) (grows : Grows p q)
    (steady : sp.Steady) (stands : e.index < p.exprs.size) (spared : p.Spared q e) (fuel : Nat) :
    q.renderTargetWithin sp fuel e = p.renderTargetWithin sp fuel e := by
  induction fuel generalizing e with
  | zero => rfl
  | succ fuel ih =>
    obtain ⟨node, at_⟩ := Arena.atBelow stands
    have there := (grows.exprAt stands).trans at_
    simp only [Program.renderTargetWithin, Arena.fetchOfGet at_, Arena.fetchOfGet there, bind,
      Except.bind, Program.renderTargetNode]
    have along {o : ExprId} (inside : o ∈ node.op.operands) : p.Follows e o :=
      .operand ⟨node, at_, inside⟩
    have chain {o : ExprId} (inside : o ∈ node.op.operands) :
        q.renderTargetWithin sp fuel o = p.renderTargetWithin sp fuel o :=
      ih (built.followsStands (along inside)) (spared.step (along inside))
    have index {o : ExprId} (inside : o ∈ node.op.operands) :
        q.renderWithin sp q.depthBound [] o = p.renderWithin sp p.depthBound [] o := by
      have call : (([], o) : List SlotId × ExprId).2.index < p.exprs.size :=
        built.followsStands (along inside)
      exact built.writtenLocal later grows steady call (spared.step (along inside))
    have fetched {o : ExprId} (inside : o ∈ node.op.operands) :
        q.exprs.fetch o = p.exprs.fetch o :=
      grows.fetchExpr (built.followsStands (along inside))
    cases op : node.op with
    | read v =>
      obtain ⟨var, varAt, -⟩ := Fits.readAt (op ▸ (built.expr at_).1)
      obtain ⟨now, varThere, kept⟩ := grows.vars varAt
      simp only [Arena.fetchOfGet varAt, Arena.fetchOfGet varThere, steady.read kept]
    | column base i | element base i =>
      have first : base ∈ node.op.operands := by simp [op, Operation.operands]
      have second : i ∈ node.op.operands := by simp [op, Operation.operands]
      simp only [chain first, index second, Program.indexText, fetched second]
    | swizzle vector =>
      have first : vector ∈ node.op.operands := by simp [op, Operation.operands]
      simp only [chain first]
    | _ => simp only [built.pseudoLocal later grows stands spared]

theorem Built.targetLocal (built : Built p) (later : Built q) (grows : Grows p q)
    (steady : sp.Steady) (stands : e.index < p.exprs.size) (spared : p.Spared q e) :
    q.renderTarget sp e = p.renderTarget sp e := by
  obtain ⟨node, at_⟩ := Arena.atBelow stands
  have there := (grows.exprAt stands).trans at_
  simp only [Program.renderTarget, Arena.findOfGet at_, Arena.findOfGet there, bind, Except.bind]
  exact built.targetWithinLocal later grows steady stands spared _

theorem Built.reachedStands (built : Built p) {s : SlotId} (reaches : p.Reaches e s) :
    ∃ slot, p.slots.get? s = some slot := by
  obtain ⟨o, -, node, at_, op⟩ := reaches
  obtain ⟨slot, slotAt, -⟩ := Fits.slotAt (op ▸ (built.expr at_).1)
  exact ⟨slot, slotAt⟩

theorem Program.Spared.call (built : Built p) (spared : p.Spared q e) {call : Call}
    (step : Step q call r) (apart : ∀ s, p.Reaches e s → ¬ Attempt.Resets ⟨q, call⟩ s) :
    p.Spared r e := by
  intro s reaches
  obtain ⟨slot, at_⟩ := built.reachedStands reaches
  have still := (spared s reaches).trans at_
  obtain ⟨now, there, rfl | resets⟩ := stepSlots step still
  · exact there.trans at_.symm
  · exact absurd resets (apart s reaches)

theorem stepRendersSame (reachable : Reachable p) {call : Call} (step : Step p call q)
    (target : sp.Target) (stands : e.index < p.exprs.size)
    (apart : ∀ s, p.Reaches e s → ¬ Attempt.Resets ⟨p, call⟩ s) :
    q.render sp e = p.render sp e ∧ q.renderTarget sp e = p.renderTarget sp e := by
  have built := reachableBuilt reachable
  have later := reachableBuilt (.call reachable step)
  have grows := (stepEdits step).grows
  have spared : p.Spared q e := .call built (fun _ _ => rfl) step apart
  exact ⟨built.renderLocal later grows target.steady stands spared,
    built.targetLocal later grows target.steady stands spared⟩

def Program.Passes (p : Program) (e : ExprId) : Program → Prop :=
  ReflTransGen (fun q r => ∃ call, Step q call r ∧
    ∀ s, p.Reaches e s → ¬ Attempt.Resets ⟨q, call⟩ s) p

theorem runRendersSame (reachable : Reachable p) (passes : p.Passes e q) (target : sp.Target)
    (stands : e.index < p.exprs.size) :
    q.render sp e = p.render sp e ∧ q.renderTarget sp e = p.renderTarget sp e := by
  have built := reachableBuilt reachable
  obtain ⟨later, grows, spared⟩ : Reachable q ∧ Grows p q ∧ p.Spared q e := by
    induction passes with
    | refl => exact ⟨reachable, .refl p, fun _ _ => rfl⟩
    | tail _ last ih =>
      obtain ⟨later, grows, spared⟩ := ih
      obtain ⟨call, step, apart⟩ := last
      exact ⟨.call later step, grows.trans (stepEdits step).grows, .call built spared step apart⟩
  have later := reachableBuilt later
  exact ⟨built.renderLocal later grows target.steady stands spared,
    built.targetLocal later grows target.steady stands spared⟩

def negatedRun : List Call :=
  [.addStage .fragment, .literal (.int 7), .block ⟨0⟩ "use", .input ⟨0⟩ (some "a") .int1 (some ⟨0⟩),
    .input ⟨0⟩ (some "b") .int1 none, .unary .negate ⟨1⟩]

theorem negatedRuns : ∃ p q a b c, Program.after { name := "p" } negatedRun = some p ∧
    Step p (.bind ⟨1⟩ ⟨3⟩) q ∧ q ≠ p ∧ p.render .pseudo ⟨3⟩ = .ok "-(7)" ∧
    p.exprs.get? ⟨3⟩ = some a ∧ a.op = .unary .negate ⟨1⟩ ∧ p.exprs.get? ⟨1⟩ = some b ∧
    b.op = .slot ⟨0⟩ ∧ p.exprs.get? ⟨0⟩ = some c ∧ c.op = .literal (.int 7) ∧
    (p.slots.get? ⟨0⟩).map Slot.value = some (some ⟨0⟩) :=
  ⟨_, _, _, _, _, rfl, .answered _ rfl, by decide, rfl, rfl, rfl, rfl, rfl, rfl, rfl, rfl⟩

theorem otherInputRendersSame : ∃ p q, Program.after { name := "p" } negatedRun = some p ∧
    Step p (.bind ⟨1⟩ ⟨3⟩) q ∧ q ≠ p ∧ q.render .pseudo ⟨3⟩ = .ok "-(7)" := by
  obtain ⟨p, q, a, b, c, ran, step, differs, text, three, negates, one, reads, zero, seven, held⟩ :=
    negatedRuns
  have bound {value : ExprId} (bound : p.IsBound ⟨0⟩ value) : value = ⟨0⟩ := by
    obtain ⟨slot, at_, holds⟩ := bound
    rw [at_, Option.map_some, holds] at held
    cases held
    rfl
  -- from the negation a walk meets the reader of the first input, and then what is bound to it
  have walk {o : ExprId} (along : ReflTransGen p.Follows ⟨3⟩ o) : o ∈ [⟨3⟩, ⟨1⟩, ⟨0⟩] := by
    induction along with
    | refl => exact List.mem_cons_self
    | tail _ follows ih =>
      simp only [List.mem_cons, List.not_mem_nil, or_false] at ih
      rcases ih with rfl | rfl | rfl
      · rcases follows.source three with inside | ⟨s, op, -⟩
        · rw [negates] at inside
          simp [List.mem_singleton.mp inside]
        · cases negates.symm.trans op
      · rcases follows.source one with inside | ⟨s, op, holds⟩
        · rw [reads] at inside
          cases inside
        · cases reads.symm.trans op
          simp [bound holds]
      · rcases follows.source zero with inside | ⟨s, op, -⟩
        · rw [seven] at inside
          cases inside
        · cases seven.symm.trans op
  have only {s : SlotId} (reaches : p.Reaches ⟨3⟩ s) : s = ⟨0⟩ := by
    obtain ⟨o, along, reader⟩ := reaches
    have inside := walk along
    simp only [List.mem_cons, List.not_mem_nil, or_false] at inside
    rcases inside with rfl | rfl | rfl
    · cases negates.symm.trans (reader.op three)
    · cases reads.symm.trans (reader.op one)
      rfl
    · cases seven.symm.trans (reader.op zero)
  have same := stepRendersSame ((Reachable.new "p").after ran) step .pseudo (Arena.below three)
    fun s reaches resets => by
      cases only reaches
      cases resets
  exact ⟨p, q, ran, step, differs, same.1.trans text⟩

end

end ShaderGraph
