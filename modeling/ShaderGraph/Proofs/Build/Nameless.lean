import ShaderGraph.Call
/-! Calls that give no name. However such a call ends, in an answer, a refusal or an abort, the
program counts as many names as before. -/
namespace ShaderGraph

def ended {ε σ α : Type} : EStateM.Result ε σ α → σ
  | .ok _ s => s
  | .error _ s => s

namespace Build

variable {α β : Type}

def Nameless (x : Build α) : Prop := ∀ p, (ended (x p)).nameCounter = p.nameCounter

namespace Nameless

theorem pure (a : α) : Nameless (pure a) := fun _ => rfl

theorem refuse (e : Error) : Nameless (refuse e : Build α) := fun _ => rfl

theorem outcome (x : Outcome α) : Nameless (liftM x) := fun p => by
  cases x with
  | ok a => rfl
  | error e => rfl

theorem bind {x : Build α} {f : α → Build β} (first : Nameless x) (rest : ∀ a, Nameless (f a)) :
    Nameless (x >>= f) := by
  intro p
  have before := first p
  change (ended (EStateM.bind x f p)).nameCounter = _
  unfold EStateM.bind
  split
  · rename_i a q ran
    rw [ran] at before
    exact (rest a q).trans before
  · rename_i e q failed
    rw [failed] at before
    exact before

theorem get {f : Program → Build β} (rest : ∀ p, Nameless (f p)) : Nameless (get >>= f) :=
  .bind (fun _ => rfl) rest

theorem lift {x : Outcome α} {f : α → Build β} (rest : ∀ a, Nameless (f a)) :
    Nameless (liftM x >>= f) := .bind (.outcome x) rest

theorem modify {f : Program → Program} (kept : ∀ p, (f p).nameCounter = p.nameCounter) :
    Nameless (modify f) := kept

theorem append {s : NodeSort} (arena : Program → Arena s α) (put : Program → Arena s α → Program)
    (kept : ∀ p a, (put p a).nameCounter = p.nameCounter) (n : α) :
    Nameless (do let p ← MonadState.get
                 let (h, a) ← (arena p).append n
                 MonadStateOf.set (put p a)
                 return h : Build (Handle s)) := by
  intro p
  change (ended ((liftM ((arena p).append n) >>= fun (h, a) => do
    MonadStateOf.set (put p a)
    return h : Build (Handle s)) p)).nameCounter = _
  cases (arena p).append n with
  | ok made => exact kept p made.2
  | error e => rfl

theorem adjust {s : NodeSort} (arena : Program → Arena s α) (put : Program → Arena s α → Program)
    (kept : ∀ p a, (put p a).nameCounter = p.nameCounter) (h : Handle s) (f : α → α) :
    Nameless (do let p ← MonadState.get
                 MonadStateOf.set (put p (← (arena p).adjust h f)) : Build PUnit) := by
  intro p
  change (ended ((liftM ((arena p).adjust h f) >>= fun a =>
    MonadStateOf.set (put p a) : Build PUnit) p)).nameCounter = _
  cases (arena p).adjust h f with
  | ok made => exact kept p made
  | error e => rfl

end Nameless

theorem namelessAddVariable (v : Variable) : Nameless (addVariable v) :=
  .append Program.vars (fun p vars => { p with vars }) (fun _ _ => rfl) v

theorem namelessAddScope (s : Scope) : Nameless (addScope s) :=
  .append Program.scopes (fun p scopes => { p with scopes }) (fun _ _ => rfl) s

theorem namelessAddStatement (s : Statement) : Nameless (addStatement s) :=
  .append Program.stmts (fun p stmts => { p with stmts }) (fun _ _ => rfl) s

theorem namelessAddBlockNode (b : Block) : Nameless (addBlockNode b) :=
  .append Program.blocks (fun p blocks => { p with blocks }) (fun _ _ => rfl) b

theorem namelessAddSlotNode (s : Slot) : Nameless (addSlotNode s) :=
  .append Program.slots (fun p slots => { p with slots }) (fun _ _ => rfl) s

theorem namelessAddExpr (op : Operation) (ty : Ty) : Nameless (addExpr op ty) := by
  intro p
  change (ended ((liftM (p.stateOf op) >>= fun state =>
    liftM (p.exprs.append ⟨op, ty, state⟩) >>= fun made => do
      MonadStateOf.set { p with exprs := made.2 }
      return made.1 : Build ExprId) p)).nameCounter = _
  cases p.stateOf op with
  | error e => rfl
  | ok state =>
    change (ended ((liftM (p.exprs.append ⟨op, ty, state⟩) >>= fun made => do
      MonadStateOf.set { p with exprs := made.2 }
      return made.1 : Build ExprId) p)).nameCounter = _
    cases p.exprs.append ⟨op, ty, state⟩ with
    | error e => rfl
    | ok made => rfl

theorem namelessAdjustVariable (v : VarId) (f : Variable → Variable) :
    Nameless (adjustVariable v f) :=
  .adjust Program.vars (fun p vars => { p with vars }) (fun _ _ => rfl) v f

theorem namelessAdjustScope (s : ScopeId) (f : Scope → Scope) : Nameless (adjustScope s f) :=
  .adjust Program.scopes (fun p scopes => { p with scopes }) (fun _ _ => rfl) s f

theorem namelessAdjustStatement (s : StmtId) (f : Statement → Statement) :
    Nameless (adjustStatement s f) :=
  .adjust Program.stmts (fun p stmts => { p with stmts }) (fun _ _ => rfl) s f

theorem namelessAdjustBlock (b : BlockId) (f : Block → Block) : Nameless (adjustBlock b f) :=
  .adjust Program.blocks (fun p blocks => { p with blocks }) (fun _ _ => rfl) b f

theorem namelessAdjustSlot (s : SlotId) (f : Slot → Slot) : Nameless (adjustSlot s f) :=
  .adjust Program.slots (fun p slots => { p with slots }) (fun _ _ => rfl) s f

theorem namelessPlaceStatement (scope : ScopeId) (kind : StatementKind) (reads : Stamps)
    (writes : List Stamp) : Nameless (placeStatement scope kind reads writes) :=
  .bind (namelessAddStatement _) fun _ => .bind (namelessAdjustScope _ _) fun _ => .pure _

theorem namelessOpenScope (name : String) (parent : ScopeId) (owner : StmtId) :
    Nameless (openScope name parent owner) := .get fun _ => .lift fun _ => namelessAddScope _

theorem namelessNewLexical (scope : ScopeId) (name : String) (ty : Ty) :
    Nameless (newLexical scope name ty) := by
  unfold newLexical
  split
  · exact .get fun _ => .lift fun _ => namelessAddVariable _
  · exact .refuse _

theorem namelessBump (v : VarId) : Nameless (bump v) :=
  .bind (namelessAdjustVariable _ _) fun _ => .get fun _ => .outcome _

theorem namelessRefreshReads (b : BlockId) : Nameless (refreshReads b) :=
  .get fun _ => .lift fun _ => .lift fun _ => .bind (namelessAdjustStatement _ _) fun _ => .pure _

theorem namelessFillSlot (s : SlotId) (value : Option ExprId) : Nameless (fillSlot s value) :=
  .get fun _ => .lift fun _ => .get fun _ => .lift fun _ => .bind (namelessAdjustSlot _ _) fun _ =>
    namelessRefreshReads _

theorem namelessLiteral (value : Literal) : Nameless (literal value) := namelessAddExpr _ _

theorem namelessRead (v : VarId) : Nameless (read v) :=
  .get fun _ => .lift fun _ => namelessAddExpr _ _

theorem namelessCompose (ty : Ty) (parts : List ExprId) : Nameless (compose ty parts) :=
  .get fun _ => .lift fun _ => namelessAddExpr _ _

theorem namelessUnary (op : UnaryOp) (operand : ExprId) : Nameless (unary op operand) :=
  .get fun _ => .lift fun _ => .lift fun _ => namelessAddExpr _ _

theorem namelessBinary (op : BinaryOp) (left right : ExprId) : Nameless (binary op left right) :=
  .get fun _ => .lift fun _ => .get fun _ => .lift fun _ => .lift fun _ => namelessAddExpr _ _

theorem namelessSwizzle (vector : ExprId) (pattern : String) : Nameless (swizzle vector pattern) :=
  .get fun _ => .lift fun _ => .lift fun _ => namelessAddExpr _ _

theorem namelessColumn (matrix index : ExprId) : Nameless (column matrix index) := by
  refine .get fun p => .lift fun t => ?_
  cases t.column? with
  | none => exact .refuse _
  | some ty => exact .get fun _ => .lift fun _ => namelessAddExpr _ _

theorem namelessElement (array index : ExprId) : Nameless (element array index) := by
  refine .get fun p => .lift fun t => ?_
  cases t.element? with
  | none => exact .refuse _
  | some part => exact .get fun _ => .lift fun _ => namelessAddExpr _ _

theorem namelessColumnAt (matrix : ExprId) (index : Int32) : Nameless (columnAt matrix index) :=
  .bind (namelessLiteral _) fun _ => namelessColumn _ _

theorem namelessElementAt (array : ExprId) (index : Int32) : Nameless (elementAt array index) :=
  .bind (namelessLiteral _) fun _ => namelessElement _ _

theorem namelessCall (f : Intrinsic) (args : List ExprId) : Nameless (call f args) :=
  .get fun _ => .lift fun _ => .lift fun _ => namelessAddExpr _ _

theorem namelessConvert (operand : ExprId) (kind : ScalarKind) : Nameless (convert operand kind) :=
  .get fun _ => .lift fun _ => .lift fun _ => namelessAddExpr _ _

theorem namelessSample (sampler coord : ExprId) : Nameless (sample sampler coord) :=
  .get fun _ => .lift fun _ => namelessAddExpr _ _

theorem namelessLoad (storage coord : ExprId) : Nameless (load storage coord) :=
  .get fun _ => .lift fun _ => namelessAddExpr _ _

theorem namelessPushStage (kind : StageKind) (workgroup : Option Workgroup) :
    Nameless (pushStage kind workgroup) := by
  refine .get fun p => ?_
  split
  · exact .refuse _
  · exact .bind (namelessAddScope _) fun _ => .bind (.modify fun _ => rfl) fun _ => .pure _

theorem namelessAddCompute (size : Workgroup) : Nameless (addCompute size) := by
  unfold addCompute
  split
  · exact .refuse _
  · exact namelessPushStage _ _

theorem namelessAddStage (kind : StageKind) : Nameless (addStage kind) := by
  cases kind with
  | compute => exact namelessAddCompute _
  | vertex | fragment => exact namelessPushStage _ _

theorem namelessUniform (name : String) (ty : Ty) : Nameless (uniform name ty) := by
  unfold uniform
  split
  · exact .refuse _
  · exact .bind (namelessAddVariable _) fun _ => .bind (.modify fun _ => rfl) fun _ => .pure _

theorem namelessFindStage (kind : StageKind) : Nameless (findStage kind) := by
  refine .get fun p => ?_
  cases p.stage? kind with
  | none => exact .refuse _
  | some s => exact .pure s

theorem namelessAdjustStage (kind : StageKind) (f : Stage → Stage) : Nameless (adjustStage kind f) :=
  .modify fun _ => rfl

theorem namelessStageInput (kind : StageKind) (name : String) (ty : Ty) :
    Nameless (stageInput kind name ty) := by
  unfold stageInput
  split
  · exact .bind (namelessFindStage _) fun _ => .bind (namelessAddVariable _) fun _ =>
      .bind (namelessAdjustStage _ _) fun _ => .pure _
  · exact .refuse _

theorem namelessStageOutput (kind : StageKind) (name : String) (ty : Ty) :
    Nameless (stageOutput kind name ty) := by
  unfold stageOutput
  split
  · exact .bind (namelessFindStage _) fun _ => .bind (namelessAddVariable _) fun _ =>
      .bind (namelessAdjustStage _ _) fun _ => .pure _
  · exact .refuse _

theorem namelessBuiltin (value : Builtin) : Nameless (builtin value) := by
  refine .bind (namelessFindStage _) fun stage => .get fun p => .lift fun known => ?_
  cases known with
  | some v => exact .pure v
  | none =>
    exact .bind (namelessAddVariable _) fun _ => .bind (namelessAdjustStage _ _) fun _ => .pure _

theorem namelessAssign (scope : ScopeId) (target value : ExprId) :
    Nameless (assign scope target value) := by
  refine .get fun p => .lift fun _ => .lift fun _ => .lift fun _ => .lift fun root => ?_
  cases root with
  | none => exact .lift fun _ => .refuse _
  | some v =>
    dsimp only
    split
    · exact .lift fun _ => .lift fun _ => .bind (namelessBump _) fun _ =>
        namelessPlaceStatement _ _ _ _
    · exact .refuse _

theorem namelessStore (scope : ScopeId) (storage coord value : ExprId) :
    Nameless (store scope storage coord value) := by
  refine .get fun p => .lift fun _ => .lift fun s => .lift fun t => ?_
  split
  · exact .lift fun _ => .lift fun _ => namelessPlaceStatement _ _ _ _
  · exact .refuse _

theorem namelessBind (s : SlotId) (value : ExprId) : Nameless (bind s value) :=
  .get fun _ => .lift fun _ => .get fun _ => .lift fun _ => .get fun _ => .lift fun _ =>
    .bind (namelessFillSlot _ _) fun _ => .pure _

theorem namelessClear (s : SlotId) : Nameless (clear s) :=
  .get fun _ => .lift fun _ => .bind (namelessFillSlot _ _) fun _ => .pure _

end Build

end ShaderGraph
