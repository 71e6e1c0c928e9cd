import ShaderGraph.Proofs.Build.Secure
import ShaderGraph.Proofs.Cached
import ShaderGraph.Proofs.Forest
import ShaderGraph.Proofs.Rendering
/-! A built program keeps no handle that leads nowhere. Every read that a call makes of its own
nodes is answered, walks end before their fuel does, and what is left to stop a call is an arena
that is full. -/
namespace ShaderGraph

open Build Relation

section

variable {p q : Program} {sp : Spelling}

theorem Built.renderWithinSafe (built : Built p) {fuel : Nat} {opened : List SlotId} {e : ExprId}
    (trail : p.Trail opened e) (enough : p.stepsLeft opened e < fuel)
    (below : e.index < p.exprs.size) : (p.renderWithin sp fuel opened e).Safe := by
  induction fuel generalizing opened e with
  | zero => exact absurd enough (Nat.not_lt_zero _)
  | succ fuel ih =>
    obtain ⟨node, at_⟩ := Arena.atBelow below
    refine .fetch at_ ?_
    by_cases slots : ∃ s, node.op = .slot s
    · obtain ⟨s, op⟩ := slots
      obtain ⟨slot, slotAt, -⟩ := Fits.slotAt (op ▸ (built.expr at_).1)
      obtain ⟨block, owner, -⟩ := (built.slot slotAt).owner
      simp only [Program.renderNode, op, Arena.fetchOfGet slotAt, Arena.fetchOfGet owner,
        Bind.bind, Except.bind]
      split
      · exact .reject _
      · rename_i closed
        cases holds : slot.value with
        | none => exact .ofResult _
        | some value =>
          have bound : p.IsBound s value := ⟨slot, slotAt, holds⟩
          obtain ⟨deeper, fewer⟩ := built.trailBound trail ⟨node, at_, op⟩ bound closed
          exact ih deeper (by omega) (built.bound bound).2
    · obtain ⟨finish, parts⟩ := built.nodeParts at_ (fun s op => slots ⟨s, op⟩) sp
      rw [parts]
      refine .map (.mapM fun o inside => ?_) finish
      have step : p.Operand e o := ⟨node, at_, inside⟩
      obtain ⟨along, fewer⟩ := built.trailOperand trail step
      exact ih along (by omega) (built.operand step).2

theorem Built.renderIndexSafe (built : Built p) {e : ExprId} (below : e.index < p.exprs.size) :
    (p.renderWithin sp p.depthBound [] e).Safe :=
  built.renderWithinSafe .start (stepsAtStart below) below

theorem Built.renderSafe (built : Built p) (sp : Spelling) (e : ExprId) : (p.render sp e).Safe :=
  .bind (p.exprs.findSafe e) fun _ found =>
    built.renderIndexSafe (Arena.below (Arena.findOk.mp found))

theorem Outcome.Safe.shown {x : Outcome String} (safe : x.Safe) :
    ∃ text, (match x with
      | .error (.rejected error) => .ok s!"<{error.message}>"
      | other => other) = Except.ok text := by
  rcases safe.cases with ⟨text, rfl⟩ | ⟨e, rfl⟩
  · exact ⟨text, rfl⟩
  · exact ⟨_, rfl⟩

theorem Built.pseudoOk (built : Built p) (e : ExprId) : ∃ text, p.pseudo e = .ok text :=
  (built.renderSafe .pseudo e).shown

theorem Built.walkSafe (built : Built p) {α : Type} {walk : Nat → ExprId → Outcome α}
    (step : ∀ ⦃fuel e node⦄, p.exprs.get? e = some node →
      (∀ o ∈ node.op.operands, o.index < p.exprs.size ∧ (walk fuel o).Safe) →
      (walk (fuel + 1) e).Safe) {fuel : Nat} {e : ExprId} (enough : e.index < fuel)
    (below : e.index < p.exprs.size) : (walk fuel e).Safe := by
  induction fuel generalizing e with
  | zero => exact absurd enough (Nat.not_lt_zero _)
  | succ fuel ih =>
    obtain ⟨node, at_⟩ := Arena.atBelow below
    refine step at_ fun o inside => ?_
    obtain ⟨older, stands⟩ := built.operand (e := e) ⟨node, at_, inside⟩
    exact ⟨stands, ih (by omega) stands⟩

theorem Built.targetWithinSafe (built : Built p) {fuel : Nat} {e : ExprId} (enough : e.index < fuel)
    (below : e.index < p.exprs.size) : (p.renderTargetWithin sp fuel e).Safe := by
  refine built.walkSafe (fun fuel e node at_ operands => .fetch at_ ?_) enough below
  have indexed {base index : ExprId} (ops : node.op.operands = [base, index])
      (write : String → IndexText → String) : Outcome.Safe (do
        let m ← p.renderTargetWithin sp fuel base
        let i ← p.renderWithin sp p.depthBound [] index
        return write m (← p.indexText index i)) := by
    have stands := (operands index (by simp [ops])).1
    obtain ⟨constant, made⟩ := indexTextOk stands
    exact .bind (operands base (by simp [ops])).2 fun _ _ =>
      .bind (built.renderIndexSafe stands) fun _ _ => .bind (.ofOk ⟨_, made _⟩) fun _ _ => .ok _
  unfold Program.renderTargetNode
  split
  · rename_i v op
    obtain ⟨var, varAt, -⟩ := Fits.readAt (op ▸ (built.expr at_).1)
    exact .fetch varAt (.ok _)
  · rename_i op
    exact indexed (by rw [op]; rfl) sp.columnTarget
  · rename_i op
    exact indexed (by rw [op]; rfl) sp.elementTarget
  · rename_i op
    exact .bind (operands _ (by simp [op, Operation.operands])).2 fun _ _ => .ok _
  · exact .bind (.ofOk (built.pseudoOk e)) fun _ _ => .reject _

theorem Built.renderTargetSafe (built : Built p) (sp : Spelling) (e : ExprId) :
    (p.renderTarget sp e).Safe :=
  .bind (p.exprs.findSafe e) fun _ found =>
    built.targetWithinSafe (Nat.lt_succ_self _) (Arena.below (Arena.findOk.mp found))

theorem Built.pseudoTargetOk (built : Built p) (e : ExprId) : ∃ text, p.pseudoTarget e = .ok text :=
  (built.renderTargetSafe .pseudo e).shown

theorem Built.readStampsOk (built : Built p) (grows : Grows p q) {e : ExprId}
    (below : e.index < p.exprs.size) : ∃ set, q.readStamps e = .ok set := by
  obtain ⟨node, at_⟩ := Arena.atBelow below
  obtain ⟨_, there, rfl⟩ := grows.exprs at_
  have each : ∀ v ∈ node.state, ∃ s, q.stampNow v = .ok s := by
    intro v inside
    obtain ⟨⟨var, varAt, -⟩, -⟩ := (built.stateMem at_ v).mp inside
    obtain ⟨now, varThere, -⟩ := grows.vars varAt
    exact ⟨_, by simp only [Program.stampNow, Arena.fetchOfGet varThere]; rfl⟩
  obtain ⟨stamps, made⟩ := Outcome.mapMTotal each
  exact ⟨_, by
    simp only [Program.readStamps, Arena.fetchOfGet there, made, Bind.bind, Except.bind]
    rfl⟩

theorem Built.initReadsOk (built : Built p) (grows : Grows p q) {init : Option ExprId}
    (stands : ∀ e ∈ init, e.index < p.exprs.size) : ∃ set, initReads q init = .ok set := by
  cases init with
  | none => exact ⟨.empty, rfl⟩
  | some e => exact built.readStampsOk grows (stands e rfl)

theorem slotReadsOk {slots : List SlotId} (stand : ∀ s ∈ slots, s.index < p.slots.size) :
    ∃ set, slotReads p slots = .ok set := by
  have all (start : Stamps) : ∃ set, slotReads.go p start slots = .ok set := by
    induction slots generalizing start with
    | nil => exact ⟨start, rfl⟩
    | cons s rest ih =>
      obtain ⟨slot, at_⟩ := Arena.atBelow (stand s List.mem_cons_self)
      obtain ⟨set, made⟩ := ih (fun t inside => stand t (List.mem_cons_of_mem _ inside))
        (start.union slot.reads)
      exact ⟨set, by simpa only [slotReads.go, Arena.fetchOfGet at_, Bind.bind, Except.bind] using made⟩
  exact all .empty

theorem Built.rootSafe (built : Built p) {e : ExprId} (below : e.index < p.exprs.size) :
    (p.root e).Safe := by
  refine built.walkSafe (fun fuel e node at_ operands => .fetch at_ ?_) (Nat.lt_succ_self _) below
  split
  · rename_i v op
    obtain ⟨var, varAt, -⟩ := Fits.readAt (op ▸ (built.expr at_).1)
    exact .fetch varAt (.ok _)
  · rename_i op
    exact (operands _ (by simp [op, Operation.operands])).2
  · rename_i op
    exact (operands _ (by simp [op, Operation.operands])).2
  · rename_i op
    exact .ite (operands _ (by simp [op, Operation.operands])).2 (.ok _)
  · exact .ok _

theorem Built.targetReadsSafe (built : Built p) {e : ExprId} (below : e.index < p.exprs.size) :
    (p.targetReads e).Safe := by
  refine built.walkSafe (fun fuel e node at_ operands => .fetch at_ ?_) (Nat.lt_succ_self _) below
  have indexed {base index : ExprId} (ops : node.op.operands = [base, index]) :
      Outcome.Safe (do
        return (← p.targetReadsWithin fuel base).union (← p.readStamps index)) :=
    .bind (operands base (by simp [ops])).2 fun _ _ =>
      .bind (.ofOk (built.readStampsOk (.refl p) (operands index (by simp [ops])).1)) fun _ _ => .ok _
  split
  · rename_i op
    exact indexed (by rw [op]; rfl)
  · rename_i op
    exact indexed (by rw [op]; rfl)
  · rename_i op
    exact (operands _ (by simp [op, Operation.operands])).2
  · exact .ok _

theorem secureLiteral (value : Literal) : Secure (literal value) p := secureAddExpr (.literal value)

theorem secureRead (v : VarId) : Secure (read v) p :=
  .get (.find fun _ at_ => secureAddExpr (.read at_))

theorem partTysSafe (ty : Ty) (kind : ScalarKind) (parts : List ExprId) :
    (partTys p ty kind parts).Safe := by
  induction parts with
  | nil => exact .ok []
  | cons part rest ih =>
    exact .bind (p.typeOfSafe part) fun _ _ => .ite (.reject _) (.bind ih fun _ _ => .ok _)

theorem checkComposeSafe (ty : Ty) (parts : List ExprId) : (checkCompose p ty parts).Safe := by
  unfold checkCompose
  split
  · exact .bind (partTysSafe _ _ _) fun _ _ => .ite (.ok _) (.reject _)
  · exact .reject _

theorem secureCompose (ty : Ty) (parts : List ExprId) : Secure (compose ty parts) p :=
  .get (.lift (checkComposeSafe ty parts) fun _ checked => secureAddExpr (checkComposeOk checked))

theorem secureUnary (op : UnaryOp) (operand : ExprId) : Secure (unary op operand) p :=
  .get (.lift (p.typeOfSafe _) fun _ typed => .lift (.ofResult _) fun _ result =>
    secureAddExpr (.unary (typeOfOk.mp typed) (ofResultOk.mp result)))

theorem secureBinary (op : BinaryOp) (left right : ExprId) : Secure (binary op left right) p :=
  .get (.lift (p.typeOfSafe _) fun _ one => .get (.lift (p.typeOfSafe _) fun _ two =>
    .lift (.ofResult _) fun _ result =>
      secureAddExpr (.binary (typeOfOk.mp one) (typeOfOk.mp two) (ofResultOk.mp result))))

theorem checkSwizzleSafe (t : Ty) (pattern : String) : (checkSwizzle t pattern).Safe := by
  unfold checkSwizzle
  split
  · refine .bind (.ofResult _) fun cs _ => ?_
    split
    · exact .reject _
    · split
      · exact .ok _
      · exact .reject _
  · exact .reject _

theorem secureSwizzle (vector : ExprId) (pattern : String) : Secure (swizzle vector pattern) p :=
  .get (.lift (p.typeOfSafe _) fun _ typed => .lift (checkSwizzleSafe _ _) fun _ checked =>
    secureAddExpr (checkSwizzleOk (typeOfOk.mp typed) checked))

theorem checkIndexSafe (index : ExprId) : (checkIndex p index).Safe :=
  .bind (p.typeOfSafe index) fun _ _ => .ite (.ok _) (.reject _)

theorem secureColumn (matrix index : ExprId) : Secure (column matrix index) p := by
  refine .get (.lift (p.typeOfSafe _) fun t typed => ?_)
  cases result : t.column? with
  | none => exact .refuse _
  | some ty =>
    exact .get (.lift (checkIndexSafe _) fun _ whole =>
      secureAddExpr (.column (typeOfOk.mp typed) result (checkIndexOk.mp whole)))

theorem secureElement (array index : ExprId) : Secure (element array index) p := by
  refine .get (.lift (p.typeOfSafe _) fun t typed => ?_)
  cases result : t.element? with
  | none => exact .refuse _
  | some part =>
    exact .get (.lift (checkIndexSafe _) fun _ whole =>
      secureAddExpr (.element (typeOfOk.mp typed) result (checkIndexOk.mp whole)))

theorem secureColumnAt (matrix : ExprId) (index : Int32) : Secure (columnAt matrix index) p :=
  .bind (secureLiteral _) fun _ _ _ => secureColumn _ _

theorem secureElementAt (array : ExprId) (index : Int32) : Secure (elementAt array index) p :=
  .bind (secureLiteral _) fun _ _ _ => secureElement _ _

theorem typesOfSafe (args : List ExprId) : (typesOf p args).Safe := .mapM fun e _ => p.typeOfSafe e

theorem secureCall (f : Intrinsic) (args : List ExprId) : Secure (Build.call f args) p :=
  .get (.lift (typesOfSafe args) fun _ typed => .lift (.ofResult _) fun _ result =>
    secureAddExpr (.call (typesOfOk typed) (ofResultOk.mp result)))

theorem convertTySafe (t : Ty) (kind : ScalarKind) : (convertTy t kind).Safe := by
  unfold convertTy
  split
  · exact .ok _
  · exact .ok _
  · exact .reject _

theorem secureConvert (operand : ExprId) (kind : ScalarKind) : Secure (convert operand kind) p :=
  .get (.lift (p.typeOfSafe _) fun _ typed => .lift (convertTySafe _ _) fun _ result =>
    secureAddExpr (.convert (typeOfOk.mp typed) result))

theorem checkSampleSafe (sampler coord : ExprId) : (checkSample p sampler coord).Safe := by
  refine .bind (p.typeOfSafe _) fun t _ => ?_
  split
  · exact .bind (p.typeOfSafe _) fun _ _ => .ite (.ok _) (.reject _)
  · exact .reject _

theorem secureSample (sampler coord : ExprId) : Secure (sample sampler coord) p :=
  .get (.lift (checkSampleSafe _ _) fun _ checked =>
    secureAddExpr (.sample (checkSampleOk checked).1 (checkSampleOk checked).2))

theorem checkStorageSafe (storage coord : ExprId) : (checkStorage p storage coord).Safe := by
  refine .bind (p.typeOfSafe _) fun t _ => ?_
  split
  · exact .bind (p.typeOfSafe _) fun _ _ => .ite (.ok _) (.reject _)
  · exact .reject _

theorem secureLoad (storage coord : ExprId) : Secure (load storage coord) p :=
  .get (.lift (checkStorageSafe _ _) fun _ checked =>
    secureAddExpr (.load (checkStorageOk checked).1 (checkStorageOk checked).2))

theorem securePushStage (kind : StageKind) (workgroup : Option Workgroup) :
    Secure (pushStage kind workgroup) p := by
  refine .get ?_
  split
  · exact .refuse _
  · exact .bind (secureAddScope _) fun _ _ _ => .bind .modify fun _ _ _ => .pure _

theorem secureAddCompute (size : Workgroup) : Secure (addCompute size) p := by
  unfold addCompute
  split
  · exact .refuse _
  · exact securePushStage _ _

theorem secureAddStage (kind : StageKind) : Secure (addStage kind) p := by
  cases kind with
  | compute => exact secureAddCompute _
  | vertex | fragment => exact securePushStage _ _

theorem secureUniform (name : String) (ty : Ty) : Secure (uniform name ty) p := by
  unfold uniform
  split
  · exact .refuse _
  · exact .bind (secureAddVariable _) fun _ _ _ => .bind .modify fun _ _ _ => .pure _

theorem secureFindStage (kind : StageKind) : Secure (findStage kind) p := by
  refine .get ?_
  cases p.stage? kind with
  | none => exact .refuse _
  | some s => exact .pure s

theorem secureStageInput (kind : StageKind) (name : String) (ty : Ty) :
    Secure (stageInput kind name ty) p := by
  unfold stageInput
  split
  · exact .bind (secureFindStage _) fun _ _ _ => .bind (secureAddVariable _) fun _ _ _ =>
      .bind .modify fun _ _ _ => .pure _
  · exact .refuse _

theorem secureStageOutput (kind : StageKind) (name : String) (ty : Ty) :
    Secure (stageOutput kind name ty) p := by
  unfold stageOutput
  split
  · exact .bind (secureFindStage _) fun _ _ _ => .bind (secureAddVariable _) fun _ _ _ =>
      .bind .modify fun _ _ _ => .pure _
  · exact .refuse _

theorem findBuiltinOk {value : Builtin} {vars : List VarId}
    (stand : ∀ v ∈ vars, ∃ var, p.vars.get? v = some var) :
    ∃ found, findBuiltin p value vars = .ok found := by
  induction vars with
  | nil => exact ⟨none, rfl⟩
  | cons v rest ih =>
    obtain ⟨var, at_⟩ := stand v List.mem_cons_self
    simp only [findBuiltin, Arena.fetchOfGet at_, Bind.bind, Except.bind]
    split
    · exact ⟨some v, rfl⟩
    · exact ih fun w inside => stand w (List.mem_cons_of_mem _ inside)

theorem Built.secureBuiltin (built : Built p) (value : Builtin) : Secure (builtin value) p := by
  refine .bind (secureFindStage _) fun stage q ran => ?_
  obtain ⟨found, rfl⟩ := findStageOk.mp ran
  have inside : stage ∈ p.stages := List.mem_of_find?_eq_some found
  have searched : ∃ known, findBuiltin p value stage.builtins = .ok known :=
    findBuiltinOk fun v there => (built.stage inside).1 v (List.mem_append_right _ there)
  refine .get (.lift (.ofOk searched) fun known _ => ?_)
  cases known with
  | some v => exact .pure v
  | none => exact .bind (secureAddVariable _) fun _ _ _ => .bind .modify fun _ _ _ => .pure _

theorem checkInitSafe (ty : Ty) (init : Option ExprId) : (checkInit p ty init).Safe := by
  cases init with
  | none => exact .ok ()
  | some e => exact .bind (p.typeOfSafe e) fun _ _ => .ite (.ok _) (.reject _)

theorem Built.secureDeclare (built : Built p) (scope : ScopeId) (stem : String) (ty : Ty)
    (init : Option ExprId) : Secure (declare scope stem ty init) p := by
  refine .get (.find fun home at_ => .get (.lift (checkInitSafe ty init) fun _ typed => .name ?_))
  refine .bind (secureNewLexical _ _ at_) fun v q made => ?_
  obtain ⟨-, _, again, -, -, rfl⟩ := newLexicalOk.mp made
  cases at_.symm.trans again
  have grows : Grows p (p.spent.withVar (p.lexical scope home stem ty)) :=
    (Grows.spent p).trans (.withVar _ _)
  have known := built.initReadsOk grows fun e given => (checkInitOk.mp typed e given).below
  refine .get (.lift (.ofOk known) fun _ _ => ?_)
  exact .bind (securePlaceStatement _ _ _ (Arena.below at_)) fun _ _ _ => .pure _

theorem Built.secureAssign (built : Built p) (scope : ScopeId) (target value : ExprId) :
    Secure (assign scope target value) p := by
  refine .get (.find fun home at_ => .lift (p.typeOfSafe target) fun t targetTyped =>
    .lift (p.typeOfSafe value) fun u valueTyped => ?_)
  have targetBelow := (typeOfOk.mp targetTyped).below
  refine .lift (built.rootSafe targetBelow) fun root rooted => ?_
  cases root with
  | none => exact .lift (.ofOk (built.pseudoOk target)) fun _ _ => .refuse _
  | some v =>
    dsimp only
    split
    · obtain ⟨var, read, -⟩ := (rootedOf rooted).variable
      refine .lift (.ofOk (built.readStampsOk (.refl p) (typeOfOk.mp valueTyped).below)) fun _ _ =>
        .lift (built.targetReadsSafe targetBelow) fun _ _ => ?_
      refine .bind (secureBump (Arena.below read)) fun _ q ran => ?_
      obtain ⟨_, -, -, rfl⟩ := bumpOk.mp ran
      exact securePlaceStatement _ _ _ (Arena.below at_)
    · exact .refuse _

theorem Built.secureStore (built : Built p) (scope : ScopeId) (storage coord value : ExprId) :
    Secure (store scope storage coord value) p := by
  refine .get (.find fun home at_ => .lift (checkStorageSafe storage coord) fun s checked =>
    .lift (p.typeOfSafe value) fun t typed => ?_)
  split
  · exact .lift (.ofOk (built.readStampsOk (.refl p) (checkStorageOk checked).2.below)) fun _ _ =>
      .lift (.ofOk (built.readStampsOk (.refl p) (typeOfOk.mp typed).below)) fun _ _ =>
        securePlaceStatement _ _ _ (Arena.below at_)
  · exact .refuse _

theorem Built.secureBranch (built : Built p) (scope : ScopeId) (condition : ExprId) :
    Secure (branch scope condition) p := by
  refine .get (.find fun home at_ => .lift (p.typeOfSafe condition) fun t typed => ?_)
  split
  · refine .name (.get (.next rfl fun _ => ?_))
    refine .bind (secureOpenScope at_) fun _ q opened => ?_
    obtain ⟨_, first, -, -, rfl⟩ := openScopeOk.mp opened
    cases at_.symm.trans first
    refine .bind (secureOpenScope (Arena.getPushOld at_ _)) fun _ q opened => ?_
    obtain ⟨_, second, -, -, rfl⟩ := openScopeOk.mp opened
    cases (Arena.getPushOld at_ _).symm.trans second
    have grows : Grows p (p.forked scope home) :=
      ((Grows.spent p).trans (.withScope _ _)).trans (.withScope _ _)
    refine .get (.lift (.ofOk (built.readStampsOk grows (typeOfOk.mp typed).below)) fun _ _ => ?_)
    refine .bind (securePlaceStatement _ _ _ ?_) fun _ _ _ => .pure _
    exact Arena.below (Arena.getPushOld (Arena.getPushOld at_ _) _)
  · exact .refuse _

theorem Built.secureLoop (built : Built p) (scope : ScopeId) (start stop : ExprId) :
    Secure (loop scope start stop) p := by
  refine .get (.find fun home at_ => .lift (checkIndexSafe start) fun _ startTyped =>
    .lift (checkIndexSafe stop) fun _ stopTyped => .name (.get (.next rfl fun _ => ?_)))
  refine .bind (secureOpenScope at_) fun _ q opened => ?_
  obtain ⟨_, first, -, rfl, rfl⟩ := openScopeOk.mp opened
  cases at_.symm.trans first
  refine .name (.bind (secureNewLexical _ _ (Arena.getFresh ..)) fun _ q made => ?_)
  obtain ⟨-, _, second, -, -, rfl⟩ := newLexicalOk.mp made
  cases (Arena.getFresh _ _).symm.trans second
  have grows : Grows p (p.counted scope home) :=
    (((Grows.spent p).trans (.withScope _ _)).trans (.spent _)).trans (.withVar _ _)
  have startBelow := (checkIndexOk.mp startTyped).below
  have stopBelow := (checkIndexOk.mp stopTyped).below
  refine .get (.lift (.ofOk (built.readStampsOk grows startBelow)) fun _ _ =>
    .lift (.ofOk (built.readStampsOk grows stopBelow)) fun _ _ => ?_)
  refine .bind (securePlaceStatement _ _ _ ?_) fun _ _ _ => .pure _
  exact Arena.below (Arena.getPushOld at_ _)

theorem secureBlock (scope : ScopeId) (op : String) : Secure (block scope op) p := by
  refine .get (.find fun home at_ => .name (.get (.next rfl fun _ => .get (.next rfl fun _ => ?_))))
  refine .bind (secureOpenScope at_) fun _ q opened => ?_
  obtain ⟨_, -, -, -, rfl⟩ := openScopeOk.mp opened
  refine .bind (securePlaceStatement _ _ _ (Arena.below (Arena.getPushOld at_ _))) fun _ _ _ => ?_
  exact .bind (secureAddBlockNode _) fun _ _ _ => .pure _

theorem checkBindingSafe (ty : Ty) (value : ExprId) : (checkBinding p ty value).Safe :=
  .bind (p.typeOfSafe value) fun _ _ => .ite (.ok _) (.reject _)

theorem checkDefaultSafe (ty : Ty) (default : Option ExprId) : (checkDefault p ty default).Safe := by
  cases default with
  | none => exact .ok ()
  | some e => exact checkBindingSafe ty e

theorem Built.secureFill (built : Built p) {s : SlotId} {slot : Slot} {value : Option ExprId}
    (at_ : p.slots.get? s = some slot) (stands : ∀ e ∈ value, e.index < p.exprs.size) :
    Secure (fillSlot s value) p := by
  obtain ⟨node, owner, -⟩ := (built.slot at_).owner
  obtain ⟨stmt, stmtAt, -⟩ := built.forest.blocks owner
  refine .get (.lift (.ofOk (built.initReadsOk (.refl p) stands)) fun reads _ => ?_)
  refine .get (.fetch at_ (.bind (secureAdjustSlot _ (Arena.below at_)) fun _ q ran => ?_))
  obtain ⟨-, rfl⟩ := adjustSlotOk.mp ran
  have inputs : ∀ t ∈ node.inputs, t.index < (p.bound s value reads).slots.size := by
    intro t inside
    obtain ⟨other, there, -⟩ := (built.block owner).1 t inside
    exact Nat.lt_of_lt_of_eq (Arena.below there) (Arena.replaceSize ..).symm
  refine .get (.fetch owner (.lift (.ofOk (slotReadsOk inputs)) fun _ _ => ?_))
  exact .bind (secureAdjustStatement _ (Arena.below stmtAt)) fun _ _ _ => .pure _

theorem secureInputName (op : String) (ty : Ty) (name : Option String) :
    Secure (inputName op ty name) p := by
  cases name with
  | none => exact fun _ _ given => by cases given
  | some name => exact .pure name

theorem Built.secureInput (built : Built p) (b : BlockId) (name : Option String) (ty : Ty)
    (default : Option ExprId) : Secure (input b name ty default) p := by
  refine .get (.find fun node at_ => ?_)
  split
  · rename_i storable
    refine .get (.lift (checkDefaultSafe ty default) fun _ checked => ?_)
    refine .bind (secureInputName _ _ _) fun given r named => ?_
    have early : Built r ∧ Grows p r ∧ r.blocks.get? b = some node := by
      rcases inputNameEdits named with rfl | rfl
      · exact ⟨built, .refl r, at_⟩
      · exact ⟨.edit built .spend, .spent p, at_⟩
    obtain ⟨builtNow, grows, there⟩ := early
    refine .get (.next rfl fun roomSlot => ?_)
    refine .bind (x := addExpr _ _) ?_ fun _ _ added => ?_
    · intro cause q failed
      refine (Secure.append (p := r) Program.exprs (fun p exprs => { p with exprs }) rfl
        ⟨.slot r.slots.fresh, ty, []⟩) failed
    obtain ⟨_, known, roomExpr, rfl, rfl⟩ := addExprOk.mp added
    cases known
    refine .bind (secureAddSlotNode _) fun _ _ added => ?_
    obtain ⟨-, rfl, rfl⟩ := addSlotNodeOk.mp added
    refine .bind (secureAdjustBlock _ (Arena.below there)) fun _ _ adjusted => ?_
    obtain ⟨-, rfl⟩ := adjustBlockOk.mp adjusted
    -- the program is whole again before the input is filled
    have slotted : Edit r (r.slotted b given ty) := .slot there storable roomExpr roomSlot
    refine .bind ((Built.edit builtNow slotted).secureFill (Arena.getFresh ..) fun e inside => ?_)
      fun _ _ _ => .pure _
    exact ((checkDefaultOk.mp checked e inside).mono (grows.trans slotted.grows)).below
  · exact .refuse _

theorem Built.secureArrayInput (built : Built p) (b : BlockId) (name : Option String) (elem : Ty)
    (size : UInt32) : Secure (arrayInput b name elem size) p :=
  .lift (.ofResult _) fun _ _ => built.secureInput _ _ _ _

theorem Built.secureBind (built : Built p) (s : SlotId) (value : ExprId) :
    Secure (Build.bind s value) p := by
  refine .get (.find fun slot at_ => .get (.lift (checkBindingSafe _ _) fun _ checked => ?_))
  obtain ⟨node, owner, -⟩ := (built.slot at_).owner
  refine .get (.fetch owner (.bind (built.secureFill at_ fun e inside => ?_) fun _ _ _ => .pure _))
  cases inside
  exact (checkBindingOk.mp checked).below

theorem Built.secureClear (built : Built p) (s : SlotId) : Secure (Build.clear s) p :=
  .get (.find fun _ at_ => .bind (built.secureFill at_ fun _ none => by cases none)
    fun _ _ _ => .pure _)

theorem Built.secureOutput (built : Built p) (b : BlockId) (name : Option String) (ty : Ty) :
    Secure (output b name ty) p := by
  refine .get (.find fun node at_ => .name ?_)
  obtain ⟨stmt, stmtAt, -, within⟩ := built.forest.blocks at_
  obtain ⟨home, around, -⟩ := built.forest.placed stmtAt
  rw [within] at around
  refine .bind (secureNewLexical _ _ around) fun _ _ made => ?_
  obtain ⟨-, _, -, -, -, rfl⟩ := newLexicalOk.mp made
  refine .bind (secureAddStatement _) fun _ _ added => ?_
  obtain ⟨-, -, rfl⟩ := addStatementOk.mp added
  refine .bind (secureAdjustScope _ (Arena.below around)) fun _ _ adjusted => ?_
  obtain ⟨-, rfl⟩ := adjustScopeOk.mp adjusted
  exact .bind (secureAdjustBlock _ (Arena.below at_)) fun _ _ _ => .pure _

theorem Build.Secure.quiet {α : Type} {answer : α → Answer} {x : Build α} (secure : Secure x p) :
    Secure (Call.quiet answer x) p := fun _ _ failed => secure (quietFailed failed)

theorem Build.Secure.logged {α : Type} {answer : α → Answer} {x : Build (Logged α)}
    (secure : Secure x p) : Secure (Call.logged answer x) p :=
  fun _ _ failed => secure (loggedFailed failed)

theorem Built.secure (built : Built p) (call : Call) : Secure call.run p := by
  cases call with
  | nextName stem => exact .quiet fun _ _ given => by cases given
  | addStage => exact .quiet (secureAddStage _)
  | addCompute => exact .quiet (secureAddCompute _)
  | uniform => exact .quiet (secureUniform _ _)
  | stageInput => exact .quiet (secureStageInput _ _ _)
  | stageOutput => exact .quiet (secureStageOutput _ _ _)
  | builtin => exact .quiet (built.secureBuiltin _)
  | literal => exact .quiet (secureLiteral _)
  | read => exact .quiet (secureRead _)
  | compose => exact .quiet (secureCompose _ _)
  | unary => exact .quiet (secureUnary _ _)
  | binary => exact .quiet (secureBinary _ _ _)
  | swizzle => exact .quiet (secureSwizzle _ _)
  | column => exact .quiet (secureColumn _ _)
  | columnAt => exact .quiet (secureColumnAt _ _)
  | element => exact .quiet (secureElement _ _)
  | elementAt => exact .quiet (secureElementAt _ _)
  | call => exact .quiet (secureCall _ _)
  | convert => exact .quiet (secureConvert _ _)
  | sample => exact .quiet (secureSample _ _)
  | load => exact .quiet (secureLoad _ _)
  | declare => exact .quiet (built.secureDeclare _ _ _ _)
  | assign => exact .quiet (built.secureAssign _ _ _)
  | store => exact .quiet (built.secureStore _ _ _ _)
  | branch => exact .quiet (built.secureBranch _ _)
  | loop => exact .quiet (built.secureLoop _ _ _)
  | block => exact .logged (secureBlock _ _)
  | input => exact .logged (built.secureInput _ _ _ _)
  | arrayInput => exact .logged (built.secureArrayInput _ _ _ _)
  | output => exact .quiet (built.secureOutput _ _ _)
  | bind slot value =>
    have secure : Secure (Call.logged (fun _ : Unit => Answer.done) (Build.bind slot value)) p :=
      .logged (built.secureBind slot value)
    exact secure
  | clear slot =>
    have secure : Secure (Call.logged (fun _ : Unit => Answer.done) (Build.clear slot)) p :=
      .logged (built.secureClear slot)
    exact secure

end

end ShaderGraph
