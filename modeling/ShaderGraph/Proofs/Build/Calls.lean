import ShaderGraph.Proofs.Build.Refusal
import ShaderGraph.Proofs.Edit
/-! Every builder call as a run of edits. A call that ends well is one edit, or two where it
makes a literal or binds a default; a refused one leaves at most a spent name or the literal. -/
namespace ShaderGraph.Build

variable {p q : Program}

theorem addExprEdit {op : Operation} {ty : Ty} {id : ExprId} (fits : Fits p op ty)
    (ran : addExpr op ty p = .ok id q) : Aside p q := by
  obtain ⟨state, known, room, -, rfl⟩ := addExprOk.mp ran
  exact ⟨.expr fits known room, rfl⟩

theorem literalEdit {value : Literal} {id : ExprId} (ran : literal value p = .ok id q) :
    Aside p q := addExprEdit (.literal value) ran

theorem readEdit {v : VarId} {id : ExprId} (ran : read v p = .ok id q) : Aside p q := by
  simp only [read, bindOk, getOk, liftOk, Arena.findOk] at ran
  obtain ⟨_, _, ⟨rfl, rfl⟩, var, _, ⟨at_, rfl⟩, ran⟩ := ran
  exact addExprEdit (.read at_) ran

theorem composeEdit {ty : Ty} {parts : List ExprId} {id : ExprId}
    (ran : compose ty parts p = .ok id q) : Aside p q := by
  simp only [compose, bindOk, getOk, liftOk] at ran
  obtain ⟨_, _, ⟨rfl, rfl⟩, _, _, ⟨checked, rfl⟩, ran⟩ := ran
  exact addExprEdit (checkComposeOk checked) ran

theorem unaryEdit {op : UnaryOp} {operand id : ExprId} (ran : unary op operand p = .ok id q) :
    Aside p q := by
  simp only [unary, bindOk, getOk, liftOk, typeOfOk, ofResultOk] at ran
  obtain ⟨_, _, ⟨rfl, rfl⟩, t, _, ⟨typed, rfl⟩, ty, _, ⟨result, rfl⟩, ran⟩ := ran
  exact addExprEdit (.unary typed result) ran

theorem binaryEdit {op : BinaryOp} {left right id : ExprId}
    (ran : binary op left right p = .ok id q) : Aside p q := by
  simp only [binary, bindOk, getOk, liftOk, typeOfOk, ofResultOk] at ran
  obtain ⟨_, _, ⟨rfl, rfl⟩, l, _, ⟨leftTyped, rfl⟩, _, _, ⟨rfl, rfl⟩, r, _, ⟨rightTyped, rfl⟩,
    ty, _, ⟨result, rfl⟩, ran⟩ := ran
  exact addExprEdit (.binary leftTyped rightTyped result) ran

theorem swizzleEdit {vector id : ExprId} {pattern : String}
    (ran : swizzle vector pattern p = .ok id q) : Aside p q := by
  simp only [swizzle, bindOk, getOk, liftOk, typeOfOk] at ran
  obtain ⟨_, _, ⟨rfl, rfl⟩, t, _, ⟨typed, rfl⟩, ⟨cs, ty⟩, _, ⟨checked, rfl⟩, ran⟩ := ran
  exact addExprEdit (checkSwizzleOk typed checked) ran

theorem columnEdit {matrix index id : ExprId} (ran : column matrix index p = .ok id q) :
    Aside p q := by
  simp only [column, bindOk, getOk, liftOk, typeOfOk] at ran
  obtain ⟨_, _, ⟨rfl, rfl⟩, t, _, ⟨typed, rfl⟩, ran⟩ := ran
  cases result : t.column? with
  | none =>
    simp only [result] at ran
    exact (refuseOk.mp ran).elim
  | some ty =>
    simp only [result, bindOk, getOk, liftOk, checkIndexOk] at ran
    obtain ⟨_, _, ⟨rfl, rfl⟩, _, _, ⟨whole, rfl⟩, ran⟩ := ran
    exact addExprEdit (.column typed result whole) ran

theorem elementEdit {array index id : ExprId} (ran : element array index p = .ok id q) :
    Aside p q := by
  simp only [element, bindOk, getOk, liftOk, typeOfOk] at ran
  obtain ⟨_, _, ⟨rfl, rfl⟩, t, _, ⟨typed, rfl⟩, ran⟩ := ran
  cases result : t.element? with
  | none =>
    simp only [result] at ran
    exact (refuseOk.mp ran).elim
  | some part =>
    simp only [result, bindOk, getOk, liftOk, checkIndexOk] at ran
    obtain ⟨_, _, ⟨rfl, rfl⟩, _, _, ⟨whole, rfl⟩, ran⟩ := ran
    exact addExprEdit (.element typed result whole) ran

theorem columnAtEdits {matrix id : ExprId} {index : Int32}
    (ran : columnAt matrix index p = .ok id q) : ∃ r, Aside p r ∧ Aside r q := by
  simp only [columnAt, bindOk] at ran
  obtain ⟨_, _, made, ran⟩ := ran
  exact ⟨_, literalEdit made, columnEdit ran⟩

theorem elementAtEdits {array id : ExprId} {index : Int32}
    (ran : elementAt array index p = .ok id q) : ∃ r, Aside p r ∧ Aside r q := by
  simp only [elementAt, bindOk] at ran
  obtain ⟨_, _, made, ran⟩ := ran
  exact ⟨_, literalEdit made, elementEdit ran⟩

theorem callEdit {f : Intrinsic} {args : List ExprId} {id : ExprId}
    (ran : call f args p = .ok id q) : Aside p q := by
  simp only [call, bindOk, getOk, liftOk, ofResultOk] at ran
  obtain ⟨_, _, ⟨rfl, rfl⟩, ts, _, ⟨typed, rfl⟩, ty, _, ⟨result, rfl⟩, ran⟩ := ran
  exact addExprEdit (.call (typesOfOk typed) result) ran

theorem convertEdit {operand id : ExprId} {kind : ScalarKind}
    (ran : convert operand kind p = .ok id q) : Aside p q := by
  simp only [convert, bindOk, getOk, liftOk, typeOfOk] at ran
  obtain ⟨_, _, ⟨rfl, rfl⟩, t, _, ⟨typed, rfl⟩, ty, _, ⟨result, rfl⟩, ran⟩ := ran
  exact addExprEdit (.convert typed result) ran

theorem sampleEdit {sampler coord id : ExprId} (ran : sample sampler coord p = .ok id q) :
    Aside p q := by
  simp only [sample, bindOk, getOk, liftOk] at ran
  obtain ⟨_, _, ⟨rfl, rfl⟩, s, _, ⟨checked, rfl⟩, ran⟩ := ran
  obtain ⟨texture, place⟩ := checkSampleOk checked
  exact addExprEdit (.sample texture place) ran

theorem loadEdit {storage coord id : ExprId} (ran : load storage coord p = .ok id q) :
    Aside p q := by
  simp only [load, bindOk, getOk, liftOk] at ran
  obtain ⟨_, _, ⟨rfl, rfl⟩, s, _, ⟨checked, rfl⟩, ran⟩ := ran
  obtain ⟨texture, place⟩ := checkStorageOk checked
  exact addExprEdit (.load texture place) ran

theorem pushStageEdit {kind : StageKind} {workgroup : Option Workgroup} {id : ScopeId}
    (sized : if kind = .compute then ∃ w, workgroup = some w ∧ w.isEmpty = false
      else workgroup = none)
    (ran : pushStage kind workgroup p = .ok id q) : Edit p q := by
  simp only [pushStage, bindOk, getOk] at ran
  obtain ⟨_, _, ⟨rfl, rfl⟩, ran⟩ := ran
  split at ran
  · exact (refuseOk.mp ran).elim
  · rename_i absent
    simp only [bindOk, addScopeOk, modifyOk, pureOk] at ran
    obtain ⟨_, _, ⟨room, rfl, rfl⟩, _, _, rfl, -, rfl⟩ := ran
    exact .stage (by simpa using absent) sized room

theorem addComputeEdit {size : Workgroup} {id : ScopeId} (ran : addCompute size p = .ok id q) :
    Edit p q := by
  unfold addCompute at ran
  split at ran
  · exact (refuseOk.mp ran).elim
  · rename_i runs
    exact pushStageEdit (by simpa using runs) ran

theorem addStageEdit {kind : StageKind} {id : ScopeId} (ran : addStage kind p = .ok id q) :
    Edit p q := by
  cases kind with
  | compute => exact addComputeEdit ran
  | vertex | fragment => exact pushStageEdit (by simp) ran

theorem uniformEdit {name : String} {ty : Ty} {id : VarId} (ran : uniform name ty p = .ok id q) :
    Edit p q := by
  unfold uniform at ran
  split at ran
  · exact (refuseOk.mp ran).elim
  · rename_i held
    simp only [bindOk, addVariableOk, modifyOk, pureOk] at ran
    obtain ⟨_, _, ⟨room, rfl, rfl⟩, _, _, rfl, -, rfl⟩ := ran
    exact .uniform held room

theorem findStageOk {kind : StageKind} {stage : Stage} :
    findStage kind p = .ok stage q ↔ p.stage? kind = some stage ∧ p = q := by
  simp only [findStage, bindOk, getOk]
  constructor
  · intro h
    obtain ⟨_, _, ⟨rfl, rfl⟩, ran⟩ := h
    cases found : p.stage? kind with
    | none =>
      simp only [found] at ran
      exact (refuseOk.mp ran).elim
    | some s =>
      simp only [found] at ran
      obtain ⟨rfl, rfl⟩ := pureOk.mp ran
      exact ⟨rfl, rfl⟩
  · intro h
    obtain ⟨found, rfl⟩ := h
    exact ⟨p, p, ⟨rfl, rfl⟩, by simp only [found]; exact pureOk.mpr ⟨rfl, rfl⟩⟩

theorem stageInputEdit {kind : StageKind} {name : String} {ty : Ty} {id : VarId}
    (ran : stageInput kind name ty p = .ok id q) : Edit p q := by
  unfold stageInput at ran
  split at ran
  · rename_i plain
    simp only [bindOk, findStageOk, addVariableOk, adjustStageOk, pureOk] at ran
    obtain ⟨stage, _, ⟨found, rfl⟩, _, _, ⟨room, rfl, rfl⟩, _, _, rfl, -, rfl⟩ := ran
    exact .stageInput plain found room
  · exact (refuseOk.mp ran).elim

theorem stageOutputEdit {kind : StageKind} {name : String} {ty : Ty} {id : VarId}
    (ran : stageOutput kind name ty p = .ok id q) : Edit p q := by
  unfold stageOutput at ran
  split at ran
  · rename_i plain
    simp only [bindOk, findStageOk, addVariableOk, adjustStageOk, pureOk] at ran
    obtain ⟨stage, _, ⟨found, rfl⟩, _, _, ⟨room, rfl, rfl⟩, _, _, rfl, -, rfl⟩ := ran
    exact .stageOutput plain found room
  · exact (refuseOk.mp ran).elim

theorem builtinEdit {value : Builtin} {id : VarId} (ran : builtin value p = .ok id q) :
    q = p ∨ Aside p q := by
  simp only [builtin, bindOk, findStageOk, getOk, liftOk] at ran
  obtain ⟨stage, _, ⟨found, rfl⟩, _, _, ⟨rfl, rfl⟩, known, _, ⟨searched, rfl⟩, ran⟩ := ran
  cases known with
  | some v =>
    obtain ⟨-, rfl⟩ := pureOk.mp ran
    exact .inl rfl
  | none =>
    simp only [bindOk, addVariableOk, adjustStageOk, pureOk] at ran
    obtain ⟨_, _, ⟨room, rfl, rfl⟩, _, _, rfl, -, rfl⟩ := ran
    exact .inr ⟨.builtin found searched room, rfl⟩

theorem declareEdit {scope : ScopeId} {stem : String} {ty : Ty} {init : Option ExprId} {v : VarId}
    (ran : declare scope stem ty init p = .ok v q) : Edit p q := by
  unfold declare at ran
  obtain ⟨home, at_, ran⟩ := liftThen (getThen ran)
  obtain ⟨_, typed, ran⟩ := liftThen (getThen ran)
  obtain ⟨_, _, made, ran⟩ := bindOk.mp (nameThen ran)
  obtain ⟨storable, again, found, roomVar, rfl, rfl⟩ := newLexicalOk.mp made
  cases (Arena.findOk.mp at_).symm.trans found
  obtain ⟨reads, known, ran⟩ := liftThen (getThen ran)
  obtain ⟨_, _, placed, ran⟩ := bindOk.mp ran
  obtain ⟨roomStmt, -, rfl, rfl⟩ := placeStatementOk.mp placed
  obtain ⟨-, rfl⟩ := pureOk.mp ran
  exact .declare found (checkInitOk.mp typed) storable known roomVar roomStmt

theorem assignEdit {scope : ScopeId} {target value : ExprId} {id : StmtId}
    (ran : assign scope target value p = .ok id q) : Edit p q := by
  simp only [assign, bindOk, getOk, liftOk, Arena.findOk, typeOfOk] at ran
  obtain ⟨_, _, ⟨rfl, rfl⟩, home, _, ⟨at_, rfl⟩, t, _, ⟨targetTyped, rfl⟩, u, _, ⟨valueTyped, rfl⟩,
    root, _, ⟨rooted, rfl⟩, ran⟩ := ran
  cases root with
  | none =>
    simp only [bindOk, refuseOk, and_false, exists_false] at ran
  | some v =>
    simp only at ran
    split at ran
    · rename_i same
      simp only [bindOk, liftOk, bumpOk, placeStatementOk] at ran
      obtain ⟨valueReads, _, ⟨knownValue, rfl⟩, targetReads, _, ⟨knownTarget, rfl⟩,
        _, _, ⟨var, read, rfl, rfl⟩, room, -, -, rfl⟩ := ran
      exact .assign at_ targetTyped (same ▸ valueTyped) rooted read knownValue knownTarget room
    · exact (refuseOk.mp ran).elim

theorem storeEdit {scope : ScopeId} {storage coord value : ExprId} {id : StmtId}
    (ran : store scope storage coord value p = .ok id q) : Edit p q := by
  simp only [store, bindOk, getOk, liftOk, Arena.findOk, typeOfOk] at ran
  obtain ⟨_, _, ⟨rfl, rfl⟩, home, _, ⟨at_, rfl⟩, s, _, ⟨checked, rfl⟩, t, _, ⟨typed, rfl⟩, ran⟩ := ran
  obtain ⟨texture, place⟩ := checkStorageOk checked
  split at ran
  · rename_i same
    simp only [bindOk, liftOk, placeStatementOk] at ran
    obtain ⟨coordReads, _, ⟨knownCoord, rfl⟩, valueReads, _, ⟨knownValue, rfl⟩, room, -, -, rfl⟩ := ran
    exact .store at_ texture place (same ▸ typed) knownCoord knownValue room
  · exact (refuseOk.mp ran).elim

theorem branchEdit {scope : ScopeId} {condition : ExprId} {made : Branch}
    (ran : branch scope condition p = .ok made q) : Edit p q := by
  unfold branch at ran
  obtain ⟨home, at_, ran⟩ := liftThen (getThen ran)
  obtain ⟨t, typed, ran⟩ := liftThen ran
  split at ran
  · rename_i same
    subst same
    obtain ⟨owner, next, ran⟩ := liftThen (getThen (nameThen ran))
    obtain ⟨roomStmt, rfl⟩ := Arena.nextOk.mp next
    obtain ⟨accept, _, opened, ran⟩ := bindOk.mp ran
    obtain ⟨one, first, -, rfl, rfl⟩ := openScopeOk.mp opened
    cases (Arena.findOk.mp at_).symm.trans first
    obtain ⟨reject, _, opened, ran⟩ := bindOk.mp ran
    obtain ⟨two, second, roomScopes, rfl, rfl⟩ := openScopeOk.mp opened
    cases (Arena.getPushOld first _).symm.trans second
    obtain ⟨reads, known, ran⟩ := liftThen (getThen ran)
    obtain ⟨_, _, placed, ran⟩ := bindOk.mp ran
    obtain ⟨-, -, rfl, rfl⟩ := placeStatementOk.mp placed
    obtain ⟨-, rfl⟩ := pureOk.mp ran
    exact .branch first (typeOfOk.mp typed) known (Arena.pushSize p.scopes _ ▸ roomScopes) roomStmt
  · exact (refuseOk.mp ran).elim

theorem loopEdit {scope : ScopeId} {start stop : ExprId} {made : Loop}
    (ran : loop scope start stop p = .ok made q) : Edit p q := by
  unfold loop at ran
  obtain ⟨home, at_, ran⟩ := liftThen (getThen ran)
  obtain ⟨_, startTyped, ran⟩ := liftThen ran
  obtain ⟨_, stopTyped, ran⟩ := liftThen ran
  obtain ⟨owner, next, ran⟩ := liftThen (getThen (nameThen ran))
  obtain ⟨roomStmt, rfl⟩ := Arena.nextOk.mp next
  obtain ⟨body, _, opened, ran⟩ := bindOk.mp ran
  obtain ⟨outer, first, roomScope, rfl, rfl⟩ := openScopeOk.mp opened
  cases (Arena.findOk.mp at_).symm.trans first
  obtain ⟨counter, _, made, ran⟩ := bindOk.mp (nameThen ran)
  obtain ⟨-, inner, second, roomVar, rfl, rfl⟩ := newLexicalOk.mp made
  cases (Arena.getFresh _ _).symm.trans second
  obtain ⟨startReads, knownStart, ran⟩ := liftThen (getThen ran)
  obtain ⟨stopReads, knownStop, ran⟩ := liftThen ran
  obtain ⟨_, _, placed, ran⟩ := bindOk.mp ran
  obtain ⟨-, -, rfl, rfl⟩ := placeStatementOk.mp placed
  obtain ⟨-, rfl⟩ := pureOk.mp ran
  exact .loop first (checkIndexOk.mp startTyped) (checkIndexOk.mp stopTyped) knownStart knownStop
    roomScope roomVar roomStmt

theorem blockEdit {scope : ScopeId} {op : String} {made : Logged BlockId}
    (ran : block scope op p = .ok made q) : Edit p q := by
  unfold block at ran
  obtain ⟨home, at_, ran⟩ := liftThen (getThen ran)
  obtain ⟨handle, next, ran⟩ := liftThen (getThen (nameThen ran))
  obtain ⟨roomBlock, rfl⟩ := Arena.nextOk.mp next
  obtain ⟨owner, next, ran⟩ := liftThen (getThen ran)
  obtain ⟨roomStmt, rfl⟩ := Arena.nextOk.mp next
  obtain ⟨body, _, opened, ran⟩ := bindOk.mp ran
  obtain ⟨outer, found, roomScope, rfl, rfl⟩ := openScopeOk.mp opened
  cases (Arena.findOk.mp at_).symm.trans found
  obtain ⟨_, _, placed, ran⟩ := bindOk.mp ran
  obtain ⟨-, -, rfl, rfl⟩ := placeStatementOk.mp placed
  obtain ⟨_, _, added, ran⟩ := bindOk.mp ran
  obtain ⟨-, rfl, rfl⟩ := addBlockNodeOk.mp added
  obtain ⟨-, rfl⟩ := pureOk.mp ran
  exact .block found roomScope roomStmt roomBlock

theorem checkBindingOk {ty : Ty} {value : ExprId} {u : Unit} :
    checkBinding p ty value = .ok u ↔ p.HasTy value ty := by
  simp only [checkBinding, Outcome.bindOk, typeOfOk]
  constructor
  · intro h
    obtain ⟨t, typed, rest⟩ := h
    split at rest
    · rename_i same
      exact same ▸ typed
    · exact (mismatchOk.mp rest).elim
  · exact fun typed => ⟨_, typed, by rw [if_pos rfl]; rfl⟩

theorem checkDefaultOk {ty : Ty} {value : Option ExprId} {u : Unit} :
    checkDefault p ty value = .ok u ↔ ∀ e ∈ value, p.HasTy e ty := by
  cases value with
  | none => simp [checkDefault]
  | some e => simp [checkDefault, checkBindingOk]

theorem fillSlotOk {s : SlotId} {value : Option ExprId} {m : Message}
    (ran : fillSlot s value p = .ok m q) : ∃ slot node reads all, p.slots.get? s = some slot ∧
      p.blocks.get? slot.block = some node ∧ initReads p value = .ok reads ∧
      slotReads (p.bound s value reads) node.inputs = .ok all ∧
      q = p.filled s value reads node.statement all := by
  simp only [fillSlot, refreshReads, bindOk, getOk, liftOk, pureOk, Arena.fetchOk, adjustSlotOk,
    adjustStatementOk] at ran
  obtain ⟨_, _, ⟨rfl, rfl⟩, reads, _, ⟨known, rfl⟩, _, _, ⟨rfl, rfl⟩, slot, _, ⟨at_, rfl⟩,
    _, _, ⟨-, rfl⟩, _, _, ⟨rfl, rfl⟩, node, _, ⟨owner, rfl⟩, all, _, ⟨gathered, rfl⟩,
    _, _, ⟨-, rfl⟩, -, rfl⟩ := ran
  exact ⟨slot, node, reads, all, at_, owner, known, gathered, rfl⟩

theorem fillSlotEdit {s : SlotId} {slot : Slot} {value : Option ExprId} {m : Message}
    (at_ : p.slots.get? s = some slot) (typed : ∀ e ∈ value, p.HasTy e slot.ty)
    (ran : fillSlot s value p = .ok m q) : Aside p q := by
  obtain ⟨_, _, _, _, found, owner, known, gathered, rfl⟩ := fillSlotOk ran
  cases at_.symm.trans found
  exact ⟨.fill at_ typed known owner gathered, rfl⟩

theorem stateOfSlot (p : Program) (s : SlotId) : p.stateOf (.slot s) = .ok [] := rfl

theorem inputNameEdits {op : String} {ty : Ty} {name : Option String} {given : String}
    (ran : inputName op ty name p = .ok given q) : q = p ∨ q = p.spent := by
  cases name with
  | none =>
    obtain ⟨-, rfl⟩ := nextNameOk.mp ran
    exact .inr rfl
  | some name =>
    obtain ⟨-, rfl⟩ := pureOk.mp ran
    exact .inl rfl

/-- How an input is made: a name first if it has none, then the slot and its reader, then what
the slot holds to begin with. -/
inductive InputMade (p : Program) (b : BlockId) (ty : Ty) (default : Option ExprId)
    (made : Logged SlotId) (q : Program) : Prop
  | made {node : Block} {given : String} {noted : Message} {r : Program}
      (at_ : p.blocks.get? b = some node) (storable : ty.isStorable = true)
      (typed : ∀ e ∈ default, p.HasTy e ty) (named : r = p ∨ r = p.spent)
      (roomExpr : r.exprs.size < Handle.limit) (roomSlot : r.slots.size < Handle.limit)
      (fresh : made.value = r.slots.fresh)
      (filled : fillSlot r.slots.fresh default (r.slotted b given ty) = .ok noted q)

theorem inputMade {b : BlockId} {name : Option String} {ty : Ty} {default : Option ExprId}
    {made : Logged SlotId} (ran : input b name ty default p = .ok made q) :
    InputMade p b ty default made q := by
  obtain ⟨node, found, ran⟩ := liftThen (getThen ran)
  split at ran
  · rename_i storable
    obtain ⟨_, fitting, ran⟩ := liftThen (getThen ran)
    obtain ⟨given, r, named, ran⟩ := bindOk.mp ran
    simp only [bindOk, getOk, liftOk, pureOk, addExprOk, addSlotNodeOk, adjustBlockOk,
      Arena.nextOk, stateOfSlot, Except.ok.injEq] at ran
    obtain ⟨_, _, ⟨rfl, rfl⟩, _, _, ⟨⟨roomSlot, rfl⟩, rfl⟩, _, _, ⟨_, rfl, roomExpr, rfl, rfl⟩,
      _, _, ⟨-, rfl, rfl⟩, _, _, ⟨-, rfl⟩, noted, _, filled, rfl, rfl⟩ := ran
    exact .made (Arena.findOk.mp found) storable (checkDefaultOk.mp fitting)
      (inputNameEdits named) roomExpr roomSlot rfl filled
  · exact (refuseOk.mp ran).elim

theorem inputEdits {b : BlockId} {name : Option String} {ty : Ty} {default : Option ExprId}
    {made : Logged SlotId} (ran : input b name ty default p = .ok made q) : Asides p q := by
  cases inputMade ran with
  | @made _ given _ r at_ storable typed named roomExpr roomSlot _ filled =>
    have first : Asides p r ∧ r.blocks = p.blocks := by
      rcases named with rfl | rfl
      · exact ⟨.refl, rfl⟩
      · exact ⟨.single ⟨.spend, rfl⟩, rfl⟩
    obtain ⟨first, blocks⟩ := first
    have slotted : Edit r (r.slotted b given ty) := .slot (blocks ▸ at_) storable roomExpr roomSlot
    refine .tail (.tail first ⟨slotted, rfl⟩)
      (fillSlotEdit (Arena.getFresh ..) (fun e inside => ?_) filled)
    exact (typed e inside).mono (first.edits.grows.trans slotted.grows)

theorem arrayInputEdits {b : BlockId} {name : Option String} {elem : Ty} {size : UInt32}
    {made : Logged SlotId} (ran : arrayInput b name elem size p = .ok made q) : Asides p q := by
  rw [arrayInput, bindOk] at ran
  obtain ⟨ty, _, made, ran⟩ := ran
  obtain ⟨-, rfl⟩ := liftOk.mp made
  exact inputEdits ran

theorem bindEdit {s : SlotId} {value : ExprId} {made : Logged Unit}
    (ran : bind s value p = .ok made q) : Aside p q := by
  simp only [bind, bindOk, getOk, liftOk, pureOk, Arena.findOk, Arena.fetchOk,
    checkBindingOk] at ran
  obtain ⟨_, _, ⟨rfl, rfl⟩, slot, _, ⟨at_, rfl⟩, _, _, ⟨rfl, rfl⟩, _, _, ⟨typed, rfl⟩,
    _, _, ⟨rfl, rfl⟩, node, _, ⟨owner, rfl⟩, noted, _, ran, -, rfl⟩ := ran
  exact fillSlotEdit at_ (fun e inside => by cases inside; exact typed) ran

theorem clearEdit {s : SlotId} {made : Logged Unit} (ran : clear s p = .ok made q) :
    Aside p q := by
  simp only [clear, bindOk, getOk, liftOk, pureOk, Arena.findOk] at ran
  obtain ⟨_, _, ⟨rfl, rfl⟩, slot, _, ⟨at_, rfl⟩, noted, _, ran, -, rfl⟩ := ran
  exact fillSlotEdit at_ (fun e inside => by cases inside) ran

theorem outputEdit {b : BlockId} {name : Option String} {ty : Ty} {v : VarId}
    (ran : output b name ty p = .ok v q) : Edit p q := by
  simp only [output, bindOk, getOk, liftOk, pureOk, Arena.findOk, nextNameOk, newLexicalOk,
    addStatementOk, adjustScopeOk, adjustBlockOk] at ran
  obtain ⟨_, _, ⟨rfl, rfl⟩, node, _, ⟨at_, rfl⟩, _, _, ⟨rfl, rfl⟩,
    _, _, ⟨storable, home, around, roomVar, rfl, rfl⟩, _, _, ⟨roomStmt, rfl, rfl⟩,
    _, _, ⟨-, rfl⟩, _, _, ⟨-, rfl⟩, -, rfl⟩ := ran
  exact .output at_ around storable roomVar roomStmt

end ShaderGraph.Build
