import ShaderGraph.Build.Interface
import ShaderGraph.Proofs.Build.Refusal
/-! Which calls leave the program alone when they are refused. Two spend a name first, and two
make a literal first; those are the only traces a refusal leaves. -/
namespace ShaderGraph.Build

variable {α β : Type}

inductive OfOperand : Error → Prop
  | handle (index size : Nat) : OfOperand (.badHandle index size)
  | mismatch (expected found : String) : OfOperand (.typeMismatch expected found)

def unlocal (ty : Ty) : Error := .unsupportedType s!"local variable of type {ty.name}"

theorem OfOperand.local {e : Error} (operand : OfOperand e) (ty : Ty) : e ≠ unlocal ty := by
  cases operand <;> exact Error.noConfusion

theorem findRefused {s : NodeSort} {γ : Type} {a : Arena s γ} {h : Handle s} {e : Error}
    (failed : a.find h = .error (.rejected e)) : e = .badHandle h.index a.size := by
  unfold Arena.find at failed
  split at failed
  · cases failed
  · cases failed
    rfl

theorem typeOfRefused {p : Program} {t : ExprId} {e : Error}
    (failed : p.typeOf t = .error (.rejected e)) : e = .badHandle t.index p.exprs.size := by
  unfold Program.typeOf at failed
  cases found : p.exprs.find t with
  | ok node =>
    rw [found] at failed
    cases failed
  | error why =>
    rw [found] at failed
    cases failed
    exact findRefused found

theorem checkInitRefused {p : Program} {ty : Ty} {init : Option ExprId} {e : Error}
    (failed : checkInit p ty init = .error (.rejected e)) : OfOperand e := by
  cases init with
  | none => cases failed
  | some init =>
    rcases Outcome.bindFailed failed with failed | ⟨t, -, failed⟩
    · exact typeOfRefused failed ▸ .handle _ _
    · split at failed
      · cases failed
      · cases failed
        exact .mismatch _ _

inductive Unmade (ty : Ty) (p : Program) : Error → Program → Prop
  | early {e : Error} (operand : OfOperand e) : Unmade ty p e p
  | named (unheld : ty.isStorable = false) : Unmade ty p (unlocal ty) p.spent

theorem Unmade.left {ty : Ty} {p q : Program} {e : Error} (unmade : Unmade ty p e q) :
    q = if e = unlocal ty then p.spent else p := by
  cases unmade with
  | early operand => rw [if_neg (operand.local ty)]
  | named => rw [if_pos rfl]

def Spends (ty : Ty) (x : Build α) : Prop :=
  ∀ ⦃p e q⦄, x p = .error (.rejected e) q → Unmade ty p e q

theorem Spends.get {ty : Ty} {f : Program → Build β} (rest : ∀ p, Spends ty (f p)) :
    Spends ty (get >>= f) := by
  intro p e q failed
  rcases bindFailed failed with failed | ⟨a, r, ran, failed⟩
  · cases failed
  · obtain ⟨rfl, rfl⟩ := getOk.mp ran
    exact rest p failed

theorem Spends.lift {ty : Ty} {x : Outcome α} {f : α → Build β}
    (checks : ∀ e, x = .error (.rejected e) → OfOperand e) (rest : ∀ a, Spends ty (f a)) :
    Spends ty (liftM x >>= f) := by
  intro p e q failed
  rcases bindFailed failed with failed | ⟨a, r, ran, failed⟩
  · cases x with
    | ok a => cases failed
    | error why =>
      cases failed
      exact .early (checks e rfl)
  · obtain ⟨-, rfl⟩ := liftOk.mp ran
    exact rest a failed

theorem Spends.find {ty : Ty} {s : NodeSort} {γ : Type} {a : Arena s γ} {h : Handle s}
    {f : γ → Build β} (rest : ∀ n, Spends ty (f n)) : Spends ty (liftM (a.find h) >>= f) :=
  .lift (fun _ failed => findRefused failed ▸ .handle _ _) rest

theorem newLexicalRefused {scope : ScopeId} {name : String} {ty : Ty} {p q : Program} {e : Error}
    (failed : newLexical scope name ty p = .error (.rejected e) q) :
    ty.isStorable = false ∧ e = unlocal ty := by
  unfold newLexical at failed
  split at failed
  · have firm : Firm (do addVariable ⟨name, ty, .lexical,
        some (← (← MonadState.get).scopes.fetch scope).stage, some scope, 0⟩ : Build VarId) :=
      .get fun p => .bind (.lift (p.scopes.fetchSure scope)) fun _ => firmAddVariable _
    exact (firm failed).elim
  · cases failed
    exact ⟨Bool.eq_false_iff.mpr (by assumption), rfl⟩

theorem Spends.local {scope : ScopeId} {stem : String} {ty : Ty} {f : VarId → Build β}
    (rest : ∀ v, Firm (f v)) :
    Spends ty (do f (← newLexical scope (← nextName stem) ty) : Build β) := by
  intro p e q failed
  rcases bindFailed failed with failed | ⟨name, r, ran, failed⟩
  · cases failed
  · obtain ⟨-, rfl⟩ := nextNameOk.mp ran
    rcases bindFailed failed with failed | ⟨v, r, -, failed⟩
    · obtain ⟨unheld, rfl⟩ := newLexicalRefused failed
      exact stillNewLexical _ _ _ failed ▸ .named unheld
    · exact (rest v failed).elim

theorem stillRead (v : VarId) : Still (read v) :=
  .get fun _ => .lift fun _ => (firmAddExpr _ _).still

theorem stillCompose (ty : Ty) (parts : List ExprId) : Still (compose ty parts) :=
  .get fun _ => .lift fun _ => (firmAddExpr _ _).still

theorem stillUnary (op : UnaryOp) (operand : ExprId) : Still (unary op operand) :=
  .get fun _ => .lift fun _ => .lift fun _ => (firmAddExpr _ _).still

theorem stillBinary (op : BinaryOp) (left right : ExprId) : Still (binary op left right) :=
  .get fun _ => .lift fun _ => .get fun _ => .lift fun _ => .lift fun _ => (firmAddExpr _ _).still

theorem stillSwizzle (vector : ExprId) (pattern : String) : Still (swizzle vector pattern) :=
  .get fun _ => .lift fun _ => .lift fun _ => (firmAddExpr _ _).still

theorem stillColumn (matrix index : ExprId) : Still (column matrix index) := by
  refine .get fun p => .lift fun t => ?_
  cases t.column? with
  | none => exact .refuse _
  | some ty => exact .get fun _ => .lift fun _ => (firmAddExpr _ _).still

theorem stillElement (array index : ExprId) : Still (element array index) := by
  refine .get fun p => .lift fun t => ?_
  cases t.element? with
  | none => exact .refuse _
  | some part => exact .get fun _ => .lift fun _ => (firmAddExpr _ _).still

theorem stillCall (f : Intrinsic) (args : List ExprId) : Still (call f args) :=
  .get fun _ => .lift fun _ => .lift fun _ => (firmAddExpr _ _).still

theorem stillConvert (operand : ExprId) (kind : ScalarKind) : Still (convert operand kind) :=
  .get fun _ => .lift fun _ => .lift fun _ => (firmAddExpr _ _).still

theorem stillSample (sampler coord : ExprId) : Still (sample sampler coord) :=
  .get fun _ => .lift fun _ => (firmAddExpr _ _).still

theorem stillLoad (storage coord : ExprId) : Still (load storage coord) :=
  .get fun _ => .lift fun _ => (firmAddExpr _ _).still

theorem stillPushStage (kind : StageKind) (workgroup : Option Workgroup) :
    Still (pushStage kind workgroup) := by
  refine .get fun p => ?_
  split
  · exact .refuse _
  · exact (Firm.bind (firmAddScope _) fun _ => .bind (.modify _) fun _ => .pure _).still

theorem stillAddCompute (size : Workgroup) : Still (addCompute size) := by
  unfold addCompute
  split
  · exact .refuse _
  · exact stillPushStage _ _

theorem stillAddStage (kind : StageKind) : Still (addStage kind) := by
  cases kind with
  | compute => exact stillAddCompute _
  | vertex | fragment => exact stillPushStage _ _

theorem stillUniform (name : String) (ty : Ty) : Still (uniform name ty) := by
  unfold uniform
  split
  · exact .refuse _
  · exact (Firm.bind (firmAddVariable _) fun _ => .bind (.modify _) fun _ => .pure _).still

theorem stillFindStage (kind : StageKind) : Still (findStage kind) := by
  refine .get fun p => ?_
  cases p.stage? kind with
  | none => exact .refuse _
  | some s => exact (Firm.pure s).still

theorem stillStageInput (kind : StageKind) (name : String) (ty : Ty) :
    Still (stageInput kind name ty) := by
  unfold stageInput
  split
  · exact .bind (stillFindStage kind) fun _ => .bind (firmAddVariable _) fun _ =>
      .bind (.modify _) fun _ => .pure _
  · exact .refuse _

theorem stillStageOutput (kind : StageKind) (name : String) (ty : Ty) :
    Still (stageOutput kind name ty) := by
  unfold stageOutput
  split
  · exact .bind (stillFindStage kind) fun _ => .bind (firmAddVariable _) fun _ =>
      .bind (.modify _) fun _ => .pure _
  · exact .refuse _

theorem findBuiltinSure (p : Program) (value : Builtin) (vars : List VarId) :
    (findBuiltin p value vars).Sure := by
  induction vars with
  | nil => exact .ok none
  | cons v rest ih =>
    refine (p.vars.fetchSure v).bind fun node => ?_
    split
    · exact .ok _
    · exact ih

theorem stillBuiltin (value : Builtin) : Still (builtin value) := by
  refine .bind (stillFindStage _) fun stage => .get fun p =>
    .bind (.lift (findBuiltinSure p value _)) fun known => ?_
  cases known with
  | some v => exact .pure v
  | none => exact .bind (firmAddVariable _) fun _ => .bind (.modify _) fun _ => .pure _

theorem spendsDeclare (scope : ScopeId) (stem : String) (ty : Ty) (init : Option ExprId) :
    Spends ty (declare scope stem ty init) :=
  .get fun _ => .find fun _ => .get fun _ => .lift (fun _ => checkInitRefused) fun _ =>
    .local fun _ => .get fun p => .bind (.lift (p.initReadsSure init)) fun _ =>
      .bind (firmPlaceStatement _ _ _ _) fun _ => .pure _

theorem targetReadsSure (p : Program) (e : ExprId) : (p.targetReads e).Sure := by
  have all (fuel : Nat) (e : ExprId) : (p.targetReadsWithin fuel e).Sure := by
    induction fuel generalizing e with
    | zero => exact .abort _
    | succ fuel ih =>
      refine (p.exprs.fetchSure e).bind fun node => ?_
      split
      · exact (ih _).bind fun _ => (p.readStampsSure _).bind fun _ => .ok _
      · exact (ih _).bind fun _ => (p.readStampsSure _).bind fun _ => .ok _
      · exact ih _
      · exact .ok _
  exact all _ e

theorem stillAssign (scope : ScopeId) (target value : ExprId) : Still (assign scope target value) := by
  refine .get fun p => .lift fun _ => .lift fun t => .lift fun u => .lift fun root => ?_
  cases root with
  | none => exact .lift fun _ => .refuse _
  | some v =>
    dsimp only
    split
    · exact (Firm.bind (.lift (p.readStampsSure value)) fun _ =>
        .bind (.lift (targetReadsSure p target)) fun _ => .bind (firmBump v) fun _ =>
          firmPlaceStatement _ _ _ _).still
    · exact .refuse _

theorem stillStore (scope : ScopeId) (storage coord value : ExprId) :
    Still (store scope storage coord value) := by
  refine .get fun p => .lift fun _ => .lift fun s => .lift fun t => ?_
  split
  · exact (Firm.bind (.lift (p.readStampsSure coord)) fun _ =>
      .bind (.lift (p.readStampsSure value)) fun _ => firmPlaceStatement _ _ _ _).still
  · exact .refuse _

theorem stillBranch (scope : ScopeId) (condition : ExprId) : Still (branch scope condition) := by
  refine .get fun p => .lift fun _ => .lift fun t => ?_
  split
  · exact (Firm.bind (.nextName _) fun _ => .get fun p => .bind (.lift p.stmts.nextSure) fun _ =>
      .bind (firmOpenScope _ _ _) fun _ => .bind (firmOpenScope _ _ _) fun _ => .get fun p =>
        .bind (.lift (p.readStampsSure condition)) fun _ =>
          .bind (firmPlaceStatement _ _ _ _) fun _ => .pure _).still
  · exact .refuse _

theorem stillLoop (scope : ScopeId) (start stop : ExprId) : Still (loop scope start stop) := by
  refine .get fun p => .lift fun _ => .lift fun _ => .lift fun _ => Firm.still ?_
  have counter (body : ScopeId) (name : String) : Firm (newLexical body name .int1) :=
    .get fun p => .bind (.lift (p.scopes.fetchSure body)) fun _ => firmAddVariable _
  exact .bind (.nextName _) fun _ => .get fun p => .bind (.lift p.stmts.nextSure) fun _ =>
    .bind (firmOpenScope _ _ _) fun _ => .bind (.nextName _) fun _ => .bind (counter _ _) fun _ =>
      .get fun p => .bind (.lift (p.readStampsSure start)) fun _ =>
        .bind (.lift (p.readStampsSure stop)) fun _ =>
          .bind (firmPlaceStatement _ _ _ _) fun _ => .pure _

theorem stillBlock (scope : ScopeId) (op : String) : Still (block scope op) :=
  .get fun _ => .lift fun _ => (Firm.bind (.nextName _) fun _ => .get fun p =>
    .bind (.lift p.blocks.nextSure) fun _ => .get fun p => .bind (.lift p.stmts.nextSure) fun _ =>
      .bind (firmOpenScope _ _ _) fun _ => .bind (firmPlaceStatement _ _ _ _) fun _ =>
        .bind (firmAddBlockNode _) fun _ => .pure _).still

theorem firmInputName (op : String) (ty : Ty) (name : Option String) : Firm (inputName op ty name) := by
  cases name with
  | none => exact .nextName _
  | some name => exact .pure name

theorem stillInput (b : BlockId) (name : Option String) (ty : Ty) (default : Option ExprId) :
    Still (input b name ty default) := by
  refine .get fun p => .lift fun node => ?_
  split
  · exact .get fun p => .lift fun _ => (Firm.bind (firmInputName _ _ _) fun _ => .get fun p =>
      .bind (.lift p.slots.nextSure) fun _ => .bind (firmAddExpr _ _) fun _ =>
        .bind (firmAddSlotNode _) fun _ => .bind (firmAdjustBlock _ _) fun _ =>
          .bind (firmFillSlot _ _) fun _ => .pure _).still
  · exact .refuse _

theorem stillArrayInput (b : BlockId) (name : Option String) (elem : Ty) (size : UInt32) :
    Still (arrayInput b name elem size) := .lift fun _ => stillInput _ _ _ _

theorem stillBind (s : SlotId) (value : ExprId) : Still (bind s value) :=
  .get fun _ => .lift fun _ => .get fun _ => .lift fun _ => .get fun p =>
    (Firm.bind (.lift (p.blocks.fetchSure _)) fun _ => .bind (firmFillSlot _ _) fun _ =>
      .pure _).still

theorem stillClear (s : SlotId) : Still (clear s) :=
  .get fun _ => .lift fun _ => (Firm.bind (firmFillSlot _ _) fun _ => .pure _).still

theorem spendsOutput (b : BlockId) (name : Option String) (ty : Ty) :
    Spends ty (output b name ty) :=
  .get fun _ => .find fun _ => .local fun _ => .bind (firmAddStatement _) fun _ =>
    .bind (firmAdjustScope _ _) fun _ => .bind (firmAdjustBlock _ _) fun _ => .pure _

end ShaderGraph.Build
