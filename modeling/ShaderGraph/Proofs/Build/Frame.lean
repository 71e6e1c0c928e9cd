import ShaderGraph.Proofs.Build.Calls
/-! What a call leaves alone when it ends well. Calls other than an assignment keep the count of
every variable, and calls that neither add an input nor fill one keep every slot and what every
statement reads; what those few do is said in full. -/
namespace ShaderGraph

structure Untouched (p q : Program) : Prop where
  slots : q.slots = p.slots
  vars : p.vars.Extends Eq q.vars
  stmts : p.stmts.Extends Eq q.stmts

namespace Untouched

variable {p q r : Program}

theorem refl (p : Program) : Untouched p p := ⟨rfl, .refl fun _ => rfl, .refl fun _ => rfl⟩

theorem trans (one : Untouched p q) (two : Untouched q r) : Untouched p r :=
  ⟨two.slots.trans one.slots, .trans Eq.trans one.vars two.vars,
    .trans Eq.trans one.stmts two.stmts⟩

theorem same (slots : q.slots = p.slots) (vars : q.vars = p.vars) (stmts : q.stmts = p.stmts) :
    Untouched p q := ⟨slots, .same vars, .same stmts⟩

end Untouched

namespace Build

variable {α β : Type}

def Calm (x : Build α) : Prop := ∀ ⦃p a q⦄, x p = .ok a q → Untouched p q

namespace Calm

theorem pure (a : α) : Calm (pure a) := by
  intro p b q ran
  obtain ⟨-, rfl⟩ := pureOk.mp ran
  exact .refl p

theorem refuse (e : Error) : Calm (refuse e : Build α) := fun _ _ _ ran => (refuseOk.mp ran).elim

theorem bind {x : Build α} {f : α → Build β} (first : Calm x) (rest : ∀ a, Calm (f a)) :
    Calm (x >>= f) := by
  intro p b q ran
  obtain ⟨a, r, one, two⟩ := bindOk.mp ran
  exact (first one).trans (rest a two)

theorem get {f : Program → Build β} (rest : ∀ p, Calm (f p)) : Calm (get >>= f) :=
  fun p _ _ ran => rest p (getThen ran)

theorem lift {x : Outcome α} {f : α → Build β} (rest : ∀ a, Calm (f a)) :
    Calm (liftM x >>= f) := by
  intro p b q ran
  obtain ⟨a, -, ran⟩ := liftThen ran
  exact rest a ran

theorem name {stem : String} {f : String → Build β} (rest : ∀ name, Calm (f name)) :
    Calm (nextName stem >>= f) := by
  intro p b q ran
  exact Untouched.trans (q := p.spent) (.same rfl rfl rfl) (rest _ (nameThen ran))

theorem modify {f : Program → Program} {g : PUnit → Build β} (kept : ∀ p, Untouched p (f p))
    (rest : Calm (g ⟨⟩)) : Calm (modify f >>= g) := by
  intro p b q ran
  obtain ⟨_, r, made, ran⟩ := bindOk.mp ran
  exact (modifyOk.mp made ▸ kept p).trans (rest ran)

end Calm

theorem calmAddVariable (v : Variable) : Calm (addVariable v) := by
  intro p id q ran
  obtain ⟨-, -, rfl⟩ := addVariableOk.mp ran
  exact ⟨rfl, .push (fun _ => rfl) v, .same rfl⟩

theorem calmAddScope (s : Scope) : Calm (addScope s) := by
  intro p id q ran
  obtain ⟨-, -, rfl⟩ := addScopeOk.mp ran
  exact .same rfl rfl rfl

theorem calmAddStatement (s : Statement) : Calm (addStatement s) := by
  intro p id q ran
  obtain ⟨-, -, rfl⟩ := addStatementOk.mp ran
  exact ⟨rfl, .same rfl, .push (fun _ => rfl) s⟩

theorem calmAddBlockNode (b : Block) : Calm (addBlockNode b) := by
  intro p id q ran
  obtain ⟨-, -, rfl⟩ := addBlockNodeOk.mp ran
  exact .same rfl rfl rfl

theorem calmAddExpr (op : Operation) (ty : Ty) : Calm (addExpr op ty) := by
  intro p id q ran
  obtain ⟨_, -, -, -, rfl⟩ := addExprOk.mp ran
  exact .same rfl rfl rfl

theorem calmAdjustScope (s : ScopeId) (f : Scope → Scope) : Calm (adjustScope s f) := by
  intro p u q ran
  obtain ⟨-, rfl⟩ := adjustScopeOk.mp ran
  exact .same rfl rfl rfl

theorem calmAdjustBlock (b : BlockId) (f : Block → Block) : Calm (adjustBlock b f) := by
  intro p u q ran
  obtain ⟨-, rfl⟩ := adjustBlockOk.mp ran
  exact .same rfl rfl rfl

theorem calmPlaceStatement (scope : ScopeId) (kind : StatementKind) (reads : Stamps)
    (writes : List Stamp) : Calm (placeStatement scope kind reads writes) :=
  .bind (calmAddStatement _) fun _ => .bind (calmAdjustScope _ _) fun _ => .pure _

theorem calmOpenScope (name : String) (parent : ScopeId) (owner : StmtId) :
    Calm (openScope name parent owner) := .get fun _ => .lift fun _ => calmAddScope _

theorem calmNewLexical (scope : ScopeId) (name : String) (ty : Ty) :
    Calm (newLexical scope name ty) := by
  unfold newLexical
  split
  · exact .get fun _ => .lift fun _ => calmAddVariable _
  · exact .refuse _

theorem calmLiteral (value : Literal) : Calm (literal value) := calmAddExpr _ _

theorem calmRead (v : VarId) : Calm (read v) := .get fun _ => .lift fun _ => calmAddExpr _ _

theorem calmCompose (ty : Ty) (parts : List ExprId) : Calm (compose ty parts) :=
  .get fun _ => .lift fun _ => calmAddExpr _ _

theorem calmUnary (op : UnaryOp) (operand : ExprId) : Calm (unary op operand) :=
  .get fun _ => .lift fun _ => .lift fun _ => calmAddExpr _ _

theorem calmBinary (op : BinaryOp) (left right : ExprId) : Calm (binary op left right) :=
  .get fun _ => .lift fun _ => .get fun _ => .lift fun _ => .lift fun _ => calmAddExpr _ _

theorem calmSwizzle (vector : ExprId) (pattern : String) : Calm (swizzle vector pattern) :=
  .get fun _ => .lift fun _ => .lift fun _ => calmAddExpr _ _

theorem calmColumn (matrix index : ExprId) : Calm (column matrix index) := by
  refine .get fun p => .lift fun t => ?_
  cases t.column? with
  | none => exact .refuse _
  | some ty => exact .get fun _ => .lift fun _ => calmAddExpr _ _

theorem calmElement (array index : ExprId) : Calm (element array index) := by
  refine .get fun p => .lift fun t => ?_
  cases t.element? with
  | none => exact .refuse _
  | some part => exact .get fun _ => .lift fun _ => calmAddExpr _ _

theorem calmColumnAt (matrix : ExprId) (index : Int32) : Calm (columnAt matrix index) :=
  .bind (calmLiteral _) fun _ => calmColumn _ _

theorem calmElementAt (array : ExprId) (index : Int32) : Calm (elementAt array index) :=
  .bind (calmLiteral _) fun _ => calmElement _ _

theorem calmCall (f : Intrinsic) (args : List ExprId) : Calm (call f args) :=
  .get fun _ => .lift fun _ => .lift fun _ => calmAddExpr _ _

theorem calmConvert (operand : ExprId) (kind : ScalarKind) : Calm (convert operand kind) :=
  .get fun _ => .lift fun _ => .lift fun _ => calmAddExpr _ _

theorem calmSample (sampler coord : ExprId) : Calm (sample sampler coord) :=
  .get fun _ => .lift fun _ => calmAddExpr _ _

theorem calmLoad (storage coord : ExprId) : Calm (load storage coord) :=
  .get fun _ => .lift fun _ => calmAddExpr _ _

theorem calmPushStage (kind : StageKind) (workgroup : Option Workgroup) :
    Calm (pushStage kind workgroup) := by
  refine .get fun p => ?_
  split
  · exact .refuse _
  · exact .bind (calmAddScope _) fun _ => .modify (fun _ => .same rfl rfl rfl) (.pure _)

theorem calmAddCompute (size : Workgroup) : Calm (addCompute size) := by
  unfold addCompute
  split
  · exact .refuse _
  · exact calmPushStage _ _

theorem calmAddStage (kind : StageKind) : Calm (addStage kind) := by
  cases kind with
  | compute => exact calmAddCompute _
  | vertex | fragment => exact calmPushStage _ _

theorem calmUniform (name : String) (ty : Ty) : Calm (uniform name ty) := by
  unfold uniform
  split
  · exact .refuse _
  · exact .bind (calmAddVariable _) fun _ => .modify (fun _ => .same rfl rfl rfl) (.pure _)

theorem calmFindStage (kind : StageKind) : Calm (findStage kind) := by
  refine .get fun p => ?_
  cases p.stage? kind with
  | none => exact .refuse _
  | some s => exact .pure s

theorem calmStageInput (kind : StageKind) (name : String) (ty : Ty) :
    Calm (stageInput kind name ty) := by
  unfold stageInput
  split
  · exact .bind (calmFindStage _) fun _ => .bind (calmAddVariable _) fun _ =>
      .modify (fun _ => .same rfl rfl rfl) (.pure _)
  · exact .refuse _

theorem calmStageOutput (kind : StageKind) (name : String) (ty : Ty) :
    Calm (stageOutput kind name ty) := by
  unfold stageOutput
  split
  · exact .bind (calmFindStage _) fun _ => .bind (calmAddVariable _) fun _ =>
      .modify (fun _ => .same rfl rfl rfl) (.pure _)
  · exact .refuse _

theorem calmBuiltin (value : Builtin) : Calm (builtin value) := by
  refine .bind (calmFindStage _) fun stage => .get fun p => .lift fun known => ?_
  cases known with
  | some v => exact .pure v
  | none =>
    exact .bind (calmAddVariable _) fun _ => .modify (fun _ => .same rfl rfl rfl) (.pure _)

theorem calmDeclare (scope : ScopeId) (stem : String) (ty : Ty) (init : Option ExprId) :
    Calm (declare scope stem ty init) :=
  .get fun _ => .lift fun _ => .get fun _ => .lift fun _ => .name fun _ =>
    .bind (calmNewLexical _ _ _) fun _ => .get fun _ => .lift fun _ =>
      .bind (calmPlaceStatement _ _ _ _) fun _ => .pure _

theorem calmStore (scope : ScopeId) (storage coord value : ExprId) :
    Calm (store scope storage coord value) := by
  refine .get fun p => .lift fun _ => .lift fun s => .lift fun t => ?_
  split
  · exact .lift fun _ => .lift fun _ => calmPlaceStatement _ _ _ _
  · exact .refuse _

theorem calmBranch (scope : ScopeId) (condition : ExprId) : Calm (branch scope condition) := by
  refine .get fun p => .lift fun _ => .lift fun t => ?_
  split
  · exact .name fun _ => .get fun _ => .lift fun _ => .bind (calmOpenScope _ _ _) fun _ =>
      .bind (calmOpenScope _ _ _) fun _ => .get fun _ => .lift fun _ =>
        .bind (calmPlaceStatement _ _ _ _) fun _ => .pure _
  · exact .refuse _

theorem calmLoop (scope : ScopeId) (start stop : ExprId) : Calm (loop scope start stop) :=
  .get fun _ => .lift fun _ => .lift fun _ => .lift fun _ => .name fun _ => .get fun _ =>
    .lift fun _ => .bind (calmOpenScope _ _ _) fun _ => .name fun _ =>
      .bind (calmNewLexical _ _ _) fun _ => .get fun _ => .lift fun _ => .lift fun _ =>
        .bind (calmPlaceStatement _ _ _ _) fun _ => .pure _

theorem calmBlock (scope : ScopeId) (op : String) : Calm (block scope op) :=
  .get fun _ => .lift fun _ => .name fun _ => .get fun _ => .lift fun _ => .get fun _ =>
    .lift fun _ => .bind (calmOpenScope _ _ _) fun _ => .bind (calmPlaceStatement _ _ _ _)
      fun _ => .bind (calmAddBlockNode _) fun _ => .pure _

theorem calmOutput (b : BlockId) (name : Option String) (ty : Ty) : Calm (output b name ty) :=
  .get fun _ => .lift fun _ => .name fun _ => .bind (calmNewLexical _ _ _) fun _ =>
    .bind (calmAddStatement _) fun _ => .bind (calmAdjustScope _ _) fun _ =>
      .bind (calmAdjustBlock _ _) fun _ => .pure _

variable {p q : Program}

theorem assignCounts {scope : ScopeId} {target value : ExprId} {id : StmtId}
    (ran : assign scope target value p = .ok id q) :
    ∃ v, p.root target = .ok (some v) ∧ p.stmts.size < Handle.limit ∧
      p.stmts.Extends Eq q.stmts ∧ q.slots = p.slots ∧
      q.vars = p.vars.replace v fun w => { w with mutations := w.mutations + 1 } := by
  obtain ⟨_, -, ran⟩ := liftThen (getThen ran)
  obtain ⟨_, -, ran⟩ := liftThen ran
  obtain ⟨_, -, ran⟩ := liftThen ran
  obtain ⟨root, rooted, ran⟩ := liftThen ran
  cases root with
  | none =>
    obtain ⟨_, -, ran⟩ := liftThen ran
    exact (refuseOk.mp ran).elim
  | some v =>
    dsimp only at ran
    split at ran
    · simp only [bindOk, liftOk, bumpOk, placeStatementOk] at ran
      obtain ⟨_, _, ⟨-, rfl⟩, _, _, ⟨-, rfl⟩, _, _, ⟨_, -, -, rfl⟩, room, -, -, rfl⟩ := ran
      exact ⟨v, rooted, room, .push (fun _ => rfl) _, rfl, rfl⟩
    · exact (refuseOk.mp ran).elim

theorem fillSlots {s : SlotId} {value : Option ExprId} {m : Message}
    (ran : fillSlot s value p = .ok m q) : ∃ reads, initReads p value = .ok reads ∧
      q.slots = p.slots.replace s (fun slot => { slot with value, reads }) ∧ q.vars = p.vars := by
  obtain ⟨_, _, reads, _, -, -, known, -, rfl⟩ := fillSlotOk ran
  exact ⟨reads, known, rfl, rfl⟩

theorem bindSlots {s : SlotId} {value : ExprId} {made : Logged Unit}
    (ran : bind s value p = .ok made q) : ∃ reads, p.readStamps value = .ok reads ∧
      q.slots = p.slots.replace s (fun slot => { slot with value := some value, reads }) ∧
        q.vars = p.vars := by
  obtain ⟨_, -, ran⟩ := liftThen (getThen ran)
  obtain ⟨_, -, ran⟩ := liftThen (getThen ran)
  obtain ⟨_, -, ran⟩ := liftThen (getThen ran)
  obtain ⟨_, _, filled, ran⟩ := bindOk.mp ran
  obtain ⟨-, rfl⟩ := pureOk.mp ran
  exact fillSlots filled

theorem clearSlots {s : SlotId} {made : Logged Unit} (ran : clear s p = .ok made q) :
    q.slots = p.slots.replace s (fun slot => { slot with value := none, reads := .empty }) ∧
      q.vars = p.vars := by
  obtain ⟨_, -, ran⟩ := liftThen (getThen ran)
  obtain ⟨_, _, filled, ran⟩ := bindOk.mp ran
  obtain ⟨-, rfl⟩ := pureOk.mp ran
  obtain ⟨reads, known, slots, vars⟩ := fillSlots filled
  cases known
  exact ⟨slots, vars⟩

theorem readStampsSame {e : ExprId} {node : Expr} (at_ : p.exprs.get? e = some node)
    (there : q.exprs.get? e = some node) (vars : q.vars = p.vars) :
    q.readStamps e = p.readStamps e := by
  have now : q.stampNow = p.stampNow := by
    funext v
    rw [Program.stampNow, Program.stampNow, vars]
  rw [Program.readStamps, Program.readStamps, now, Arena.fetchOfGet at_, Arena.fetchOfGet there]

theorem inputSlots {b : BlockId} {name : Option String} {ty : Ty} {default : Option ExprId}
    {made : Logged SlotId} (ran : input b name ty default p = .ok made q) :
    made.value = p.slots.fresh ∧ q.vars = p.vars ∧ ∃ reads new,
      initReads p default = .ok reads ∧ new.value = default ∧ new.reads = reads ∧
        q.slots = p.slots.push new := by
  cases inputMade ran with
  | @made _ _ _ r _ _ typed named _ _ fresh filled =>
    have early : r.exprs = p.exprs ∧ r.vars = p.vars ∧ r.slots = p.slots := by
      rcases named with rfl | rfl
      · exact ⟨rfl, rfl, rfl⟩
      · exact ⟨rfl, rfl, rfl⟩
    obtain ⟨exprs, vars, slots⟩ := early
    obtain ⟨reads, known, filled, kept⟩ := fillSlots filled
    have filled : q.slots = (r.slots.push _).replace r.slots.fresh _ := filled
    rw [slots, Arena.replaceFresh] at filled
    refine ⟨fresh.trans (congrArg Arena.fresh slots), kept.trans vars, reads, _, ?_, rfl, rfl,
      filled⟩
    cases default with
    | none => exact known
    | some e =>
      -- the value stood before the input, and has the stamps it had
      obtain ⟨node, at_, -⟩ := typed e rfl
      refine (readStampsSame at_ (Arena.getPushOld (exprs ▸ at_) _) ?_).symm.trans known
      exact vars

end Build

end ShaderGraph
