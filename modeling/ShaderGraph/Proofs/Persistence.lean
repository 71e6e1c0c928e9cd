import ShaderGraph.Proofs.Forest
import ShaderGraph.Proofs.History
/-! What a single call leaves of the program it is made on. A refused call leaves all of it but
for a name or a literal; a call that ends well adds nodes, and what it changes of the nodes that
stood is said here node by node. -/
namespace ShaderGraph

open Build

variable {p q : Program} {call : Call}

theorem Call.remainsParts (p : Program) (error : Error) (call : Call) :
    call.remains p error = { p with
      exprs := (call.remains p error).exprs, nameCounter := (call.remains p error).nameCounter } := by
  cases call with
  | declare | output =>
    dsimp only [Call.remains]
    split <;> rfl
  | _ => rfl

theorem refusedLocal {error : Error} (failed : call.run p = .error (.rejected error) q) {ty : Ty}
    (makes : ty ∈ call.localTy?) : OfOperand error ∨ error = unlocal ty ∧ ty.isStorable = false := by
  have either (unmade : Unmade ty p error q) :
      OfOperand error ∨ error = unlocal ty ∧ ty.isStorable = false := by
    cases unmade with
    | early operand => exact .inl operand
    | named unheld => exact .inr ⟨rfl, unheld⟩
  cases call with
  | declare =>
    cases makes
    exact either (spendsDeclare _ _ _ _ (quietFailed failed))
  | output =>
    cases makes
    exact either (spendsOutput _ _ _ (quietFailed failed))
  | _ => cases makes

theorem refusedLeaves {error : Error} (failed : call.run p = .error (.rejected error) q) :
    q = call.remains p error ∧ q = { p with exprs := q.exprs, nameCounter := q.nameCounter } ∧
      ∀ ty ∈ call.localTy?, OfOperand error ∨ error = unlocal ty ∧ ty.isStorable = false := by
  have left := refusedRemains failed
  refine ⟨left, ?_, fun ty makes => refusedLocal failed makes⟩
  rw [left]
  exact call.remainsParts p error

def textureRun : List Call :=
  [.addStage .fragment, .uniform "t" (.sampler ⟨.d2, .color⟩), .read ⟨0⟩]

theorem textureRefused : ∃ p q r, Program.after { name := "p" } textureRun = some p ∧
    (Call.declare ⟨0⟩ "t" (.sampler ⟨.d2, .color⟩) (some ⟨0⟩)).run p =
      .error (.rejected (unlocal (.sampler ⟨.d2, .color⟩))) q ∧
    (Call.elementAt ⟨0⟩ 2).run p = .error (.rejected (.typeMismatch "array" "sampler2d")) r :=
  ⟨_, _, _, rfl, rfl, rfl⟩

theorem refusedLeavesTexture : ∃ p q r, Program.after { name := "p" } textureRun = some p ∧
    (Call.declare ⟨0⟩ "t" (.sampler ⟨.d2, .color⟩) (some ⟨0⟩)).run p =
      .error (.rejected (unlocal (.sampler ⟨.d2, .color⟩))) q ∧ q = p.spent ∧
    (Call.elementAt ⟨0⟩ 2).run p = .error (.rejected (.typeMismatch "array" "sampler2d")) r ∧
    r = p.withExpr ⟨.literal (.int 2), .int1, []⟩ := by
  obtain ⟨p, q, r, ran, named, indexed⟩ := textureRefused
  have spent := (refusedLeaves named).1
  rw [Call.remains, if_pos rfl] at spent
  exact ⟨p, q, r, ran, named, spent, indexed, (refusedLeaves indexed).1⟩

namespace Attempt

inductive Refills : Attempt → BlockId → Prop
  | input {p q : Program} {b : BlockId} {name : Option String} {ty : Ty} {default : Option ExprId}
      {answer : Logged Answer} (ran : (Call.input b name ty default).run p = .ok answer q) :
      Refills ⟨p, .input b name ty default⟩ b
  | arrayInput {p q : Program} {b : BlockId} {name : Option String} {elem : Ty} {size : UInt32}
      {answer : Logged Answer} (ran : (Call.arrayInput b name elem size).run p = .ok answer q) :
      Refills ⟨p, .arrayInput b name elem size⟩ b
  | bind {p q : Program} {s : SlotId} {slot : Slot} {value : ExprId} {answer : Logged Answer}
      (ran : (Call.bind s value).run p = .ok answer q) (at_ : p.slots.get? s = some slot) :
      Refills ⟨p, .bind s value⟩ slot.block
  | clear {p q : Program} {s : SlotId} {slot : Slot} {answer : Logged Answer}
      (ran : (Call.clear s).run p = .ok answer q) (at_ : p.slots.get? s = some slot) :
      Refills ⟨p, .clear s⟩ slot.block

inductive Resets : Attempt → SlotId → Prop
  | bind {p q : Program} {s : SlotId} {value : ExprId} {answer : Logged Answer}
      (ran : (Call.bind s value).run p = .ok answer q) : Resets ⟨p, .bind s value⟩ s
  | clear {p q : Program} {s : SlotId} {answer : Logged Answer}
      (ran : (Call.clear s).run p = .ok answer q) : Resets ⟨p, .clear s⟩ s

end Attempt

theorem stepCalm (step : Step p call q) :
    Untouched p q ∨ call.stirs = true ∧ ∃ answer, call.run p = .ok answer q := by
  cases step with
  | refused error failed => exact .inl (refusedTrace failed).untouched
  | answered answer ran =>
    cases calm : call.stirs with
    | false => exact .inl (answeredCalm calm ran)
    | true => exact .inr ⟨rfl, answer, ran⟩

theorem fillStmts {s : SlotId} {value : Option ExprId} {m : Message}
    (ran : fillSlot s value p = .ok m q) : ∃ slot block all, p.slots.get? s = some slot ∧
      p.blocks.get? slot.block = some block ∧
      q.stmts = p.stmts.replace block.statement fun node => { node with reads := all } := by
  obtain ⟨slot, block, _, all, at_, owner, -, -, rfl⟩ := fillSlotOk ran
  exact ⟨slot, block, all, at_, owner, rfl⟩

theorem inputStmts {b : BlockId} {name : Option String} {ty : Ty} {default : Option ExprId}
    {made : Logged SlotId} (ran : input b name ty default p = .ok made q) :
    ∃ block all, p.blocks.get? b = some block ∧
      q.stmts = p.stmts.replace block.statement fun node => { node with reads := all } := by
  obtain ⟨_, -, ran⟩ := liftThen (getThen ran)
  split at ran
  · obtain ⟨_, -, ran⟩ := liftThen (getThen ran)
    obtain ⟨_, r, named, ran⟩ := bindOk.mp ran
    have early : r.blocks = p.blocks ∧ r.stmts = p.stmts := by
      rcases inputNameEdits named with rfl | rfl
      · exact ⟨rfl, rfl⟩
      · exact ⟨rfl, rfl⟩
    obtain ⟨blocks, stmts⟩ := early
    simp only [bindOk, getOk, liftOk, pureOk, addExprOk, addSlotNodeOk, adjustBlockOk,
      Arena.nextOk] at ran
    obtain ⟨_, _, ⟨rfl, rfl⟩, _, _, ⟨⟨-, rfl⟩, rfl⟩, _, _, ⟨_, -, -, rfl, rfl⟩,
      _, _, ⟨-, rfl, rfl⟩, _, _, ⟨-, rfl⟩, _, s, filled, rfl, rfl⟩ := ran
    obtain ⟨slot, block, all, at_, owner, same⟩ := fillStmts filled
    cases (Arena.getFresh _ _).symm.trans at_
    obtain ⟨old, there, rfl⟩ := Arena.getReplaced owner
    refine ⟨old, all, blocks ▸ there, ?_⟩
    rw [if_pos rfl] at same
    exact stmts ▸ same
  · exact (refuseOk.mp ran).elim

theorem refreshed (forest : Forest p) {b : BlockId} {block : Block} {all : Stamps}
    (owner : p.blocks.get? b = some block)
    (same : q.stmts = p.stmts.replace block.statement fun node => { node with reads := all })
    {s : StmtId} {node : Statement} (at_ : p.stmts.get? s = some node) :
    ∃ now, q.stmts.get? s = some now ∧ (now = node ∨ node.kind = .block b) := by
  refine ⟨_, same ▸ Arena.getReplaceOld at_ _, ?_⟩
  split
  · rename_i here
    subst here
    obtain ⟨stmt, found, kind, -⟩ := forest.blocks owner
    cases at_.symm.trans found
    exact .inr kind
  · exact .inl rfl

theorem stepReads (step : Step p call q) (forest : Forest p) {s : StmtId} {node : Statement}
    (at_ : p.stmts.get? s = some node) : ∃ now, q.stmts.get? s = some now ∧
      (now = node ∨ ∃ b, node.kind = .block b ∧ Attempt.Refills ⟨p, call⟩ b) := by
  have refilled {b : BlockId} {block : Block} {all : Stamps} (owner : p.blocks.get? b = some block)
      (same : q.stmts = p.stmts.replace block.statement fun node => { node with reads := all })
      (refills : Attempt.Refills ⟨p, call⟩ b) : ∃ now, q.stmts.get? s = some now ∧
        (now = node ∨ ∃ b, node.kind = .block b ∧ Attempt.Refills ⟨p, call⟩ b) := by
    obtain ⟨now, there, either⟩ := refreshed forest owner same at_
    exact ⟨now, there, either.imp_right fun kind => ⟨b, kind, refills⟩⟩
  have kept (stmts : p.stmts.Extends Eq q.stmts) : ∃ now, q.stmts.get? s = some now ∧
      (now = node ∨ ∃ b, node.kind = .block b ∧ Attempt.Refills ⟨p, call⟩ b) := by
    obtain ⟨_, there, rfl⟩ := stmts at_
    exact ⟨_, there, .inl rfl⟩
  rcases stepCalm step with calm | ⟨stirs, answer, ran⟩
  · exact kept calm.stmts
  cases call with
  | assign =>
    obtain ⟨_, ran⟩ := quietOk ran
    obtain ⟨_, -, -, stmts, -⟩ := assignCounts ran
    exact kept stmts
  | input =>
    obtain ⟨_, made⟩ := loggedOk ran
    obtain ⟨_, _, owner, same⟩ := inputStmts made
    exact refilled owner same (.input ran)
  | arrayInput =>
    obtain ⟨_, made⟩ := loggedOk ran
    obtain ⟨_, -, made⟩ := liftThen made
    obtain ⟨_, _, owner, same⟩ := inputStmts made
    exact refilled owner same (.arrayInput ran)
  | bind =>
    obtain ⟨_, made⟩ := bindRan ran
    obtain ⟨_, -, made⟩ := liftThen (getThen made)
    obtain ⟨_, -, made⟩ := liftThen (getThen made)
    obtain ⟨_, -, made⟩ := liftThen (getThen made)
    obtain ⟨_, _, filled, made⟩ := bindOk.mp made
    obtain ⟨-, rfl⟩ := pureOk.mp made
    obtain ⟨_, _, _, slotAt, owner, same⟩ := fillStmts filled
    exact refilled owner same (.bind ran slotAt)
  | clear =>
    obtain ⟨_, made⟩ := clearRan ran
    obtain ⟨_, -, made⟩ := liftThen (getThen made)
    obtain ⟨_, _, filled, made⟩ := bindOk.mp made
    obtain ⟨-, rfl⟩ := pureOk.mp made
    obtain ⟨_, _, _, slotAt, owner, same⟩ := fillStmts filled
    exact refilled owner same (.clear ran slotAt)
  | _ => cases stirs

theorem stepSlots (step : Step p call q) {s : SlotId} {slot : Slot}
    (at_ : p.slots.get? s = some slot) : ∃ now, q.slots.get? s = some now ∧
      (now = slot ∨ Attempt.Resets ⟨p, call⟩ s) := by
  have reset {t : SlotId} {f : Slot → Slot} (slots : q.slots = p.slots.replace t f)
      (resets : Attempt.Resets ⟨p, call⟩ t) : ∃ now, q.slots.get? s = some now ∧
        (now = slot ∨ Attempt.Resets ⟨p, call⟩ s) := by
    refine ⟨_, slots ▸ Arena.getReplaceOld at_ _, ?_⟩
    split
    · rename_i here
      exact .inr (here ▸ resets)
    · exact .inl rfl
  rcases stepCalm step with calm | ⟨stirs, answer, ran⟩
  · exact ⟨slot, calm.slots ▸ at_, .inl rfl⟩
  cases call with
  | assign =>
    obtain ⟨_, ran⟩ := quietOk ran
    obtain ⟨_, -, -, -, slots, -⟩ := assignCounts ran
    exact ⟨slot, slots ▸ at_, .inl rfl⟩
  | input =>
    obtain ⟨_, ran⟩ := loggedOk ran
    obtain ⟨-, -, _, _, -, -, -, slots⟩ := inputSlots ran
    exact ⟨slot, slots ▸ Arena.getPushOld at_ _, .inl rfl⟩
  | arrayInput =>
    obtain ⟨_, ran⟩ := loggedOk ran
    obtain ⟨_, -, ran⟩ := liftThen ran
    obtain ⟨-, -, _, _, -, -, -, slots⟩ := inputSlots ran
    exact ⟨slot, slots ▸ Arena.getPushOld at_ _, .inl rfl⟩
  | bind =>
    obtain ⟨_, made⟩ := bindRan ran
    obtain ⟨_, -, slots, -⟩ := bindSlots made
    exact reset slots (.bind ran)
  | clear =>
    obtain ⟨_, made⟩ := clearRan ran
    obtain ⟨slots, -⟩ := clearSlots made
    exact reset slots (.clear ran)
  | _ => cases stirs

theorem placedLength {node : Statement} {place : StmtId → List StmtId → List StmtId}
    (one : ∀ new l, (place new l).length = l.length + 1) {c : ScopeId} {home : Scope}
    (at_ : p.scopes.get? c = some home) : ∃ now, (p.placed node place).scopes.get? c = some now ∧
      now.statements.length ≤ home.statements.length + 1 := by
  refine ⟨_, Arena.getReplaceOld at_ _, ?_⟩
  split
  · exact Nat.le_of_eq (one _ _)
  · exact Nat.le_succ _

theorem atEndLength (new : StmtId) (l : List StmtId) :
    (Program.atEnd new l).length = l.length + 1 := by simp [Program.atEnd]

theorem insertBeforeLength (mark new : StmtId) (l : List StmtId) :
    (insertBefore mark new l).length = l.length + 1 := by
  induction l with
  | nil => rfl
  | cons s rest ih =>
    unfold insertBefore
    split
    · rfl
    · simp [ih]

theorem Edit.lengthens (edit : Edit p q) {c : ScopeId} {home : Scope}
    (at_ : p.scopes.get? c = some home) : ∃ now, q.scopes.get? c = some now ∧
      now.statements.length ≤ home.statements.length + 1 := by
  have same : home.statements.length ≤ home.statements.length + 1 := Nat.le_succ _
  cases edit with
  | stage => exact ⟨home, Arena.getPushOld at_ _, same⟩
  | declare | assign | store => exact placedLength atEndLength at_
  | branch =>
    exact placedLength atEndLength (Arena.getPushOld (Arena.getPushOld at_ _) _)
  | loop => exact placedLength atEndLength (Arena.getPushOld at_ _)
  | block => exact placedLength atEndLength (Arena.getPushOld at_ _)
  | output => exact placedLength (insertBeforeLength _) at_
  | _ => exact ⟨home, at_, same⟩

theorem stepLengthens (step : Step p call q) {c : ScopeId} {home : Scope}
    (at_ : p.scopes.get? c = some home) : ∃ now, q.scopes.get? c = some now ∧
      now.statements.length ≤ home.statements.length + 1 := by
  rcases stepEdit step with edit | asides
  · exact edit.lengthens at_
  · exact ⟨home, asides.scopes ▸ at_, Nat.le_succ _⟩

structure Persists (p : Program) (call : Call) (q : Program) : Prop where
  exprs : ∀ ⦃e node⦄, p.exprs.get? e = some node → q.exprs.get? e = some node
  vars : ∀ ⦃v var⦄, p.vars.get? v = some var → ∃ now, q.vars.get? v = some now ∧
    var.Kept now ∧ Rises ⟨p, call⟩ v var now
  stmts : ∀ ⦃s node⦄, p.stmts.get? s = some node → ∃ now, q.stmts.get? s = some now ∧
    node.Kept now ∧ (now = node ∨ ∃ b, node.kind = .block b ∧ Attempt.Refills ⟨p, call⟩ b)
  scopes : ∀ ⦃c home⦄, p.scopes.get? c = some home → ∃ now, q.scopes.get? c = some now ∧
    home.Kept now ∧ now.statements.length ≤ home.statements.length + 1
  blocks : ∀ ⦃b block⦄, p.blocks.get? b = some block → ∃ now, q.blocks.get? b = some now ∧
    block.Kept now
  slots : ∀ ⦃s slot⦄, p.slots.get? s = some slot → ∃ now, q.slots.get? s = some now ∧
    slot.Kept now ∧ (now = slot ∨ Attempt.Resets ⟨p, call⟩ s)
  stages : ∀ ⦃stage⦄, stage ∈ p.stages → ∃ now ∈ q.stages, stage.Kept now
  uniforms : p.uniforms <+: q.uniforms

theorem Arena.Extends.with {s : NodeSort} {α : Type} {kept : α → α → Prop} {a b : Arena s α}
    (extends_ : a.Extends kept b) {h : Handle s} {n : α} (at_ : a.get? h = some n) {also : α → Prop}
    (given : ∃ now, b.get? h = some now ∧ also now) :
    ∃ now, b.get? h = some now ∧ kept n now ∧ also now := by
  obtain ⟨now, there, more⟩ := given
  obtain ⟨_, again, keeps⟩ := extends_ at_
  cases there.symm.trans again
  exact ⟨now, there, keeps, more⟩

theorem stepPersists (reachable : Reachable p) (step : Step p call q) : Persists p call q := by
  have built := reachableBuilt reachable
  have grows := (stepEdits step).grows
  exact {
    exprs := fun e node at_ => by
      obtain ⟨_, there, rfl⟩ := grows.exprs at_
      exact there
    vars := fun v var at_ => grows.vars.with at_ (stepRises step built at_)
    stmts := fun s node at_ => grows.stmts.with at_ (stepReads step built.forest at_)
    scopes := fun c home at_ => grows.scopes.with at_ (stepLengthens step at_)
    blocks := grows.blocks
    slots := fun s slot at_ => grows.slots.with at_ (stepSlots step at_)
    stages := grows.stages
    uniforms := grows.uniforms }

def inputsRun : List Call :=
  [.addStage .fragment, .literal (.int 0), .declare ⟨0⟩ "i" .int1 (some ⟨0⟩), .read ⟨0⟩,
    .block ⟨0⟩ "use", .input ⟨0⟩ (some "x") .int1 (some ⟨1⟩),
    .input ⟨0⟩ (some "y") .int1 (some ⟨1⟩)]

theorem inputsCleared : ∃ p q x declared, Program.after { name := "p" } inputsRun = some p ∧
    Step p (.clear ⟨1⟩) q ∧ p.slots.get? ⟨0⟩ = some x ∧ p.stmts.get? ⟨0⟩ = some declared ∧
    declared.kind = .act (.declare ⟨0⟩ (some ⟨0⟩)) :=
  ⟨_, _, _, _, rfl, .answered _ rfl, rfl, rfl, rfl⟩

theorem stepPersistsCleared : ∃ p q x declared,
    Program.after { name := "p" } inputsRun = some p ∧ Step p (.clear ⟨1⟩) q ∧
    p.slots.get? ⟨0⟩ = some x ∧ q.slots.get? ⟨0⟩ = some x ∧
    p.stmts.get? ⟨0⟩ = some declared ∧ q.stmts.get? ⟨0⟩ = some declared := by
  obtain ⟨p, q, x, declared, ran, step, slotAt, stmtAt, kind⟩ := inputsCleared
  have persists := stepPersists ((Reachable.new "p").after ran) step
  obtain ⟨_, slotThere, -, rfl | resets⟩ := persists.slots slotAt
  · obtain ⟨_, stmtThere, -, rfl | ⟨b, opens, -⟩⟩ := persists.stmts stmtAt
    · exact ⟨p, q, _, _, ran, step, slotAt, slotThere, stmtAt, stmtThere⟩
    · cases kind.symm.trans opens
  · cases resets

end ShaderGraph
