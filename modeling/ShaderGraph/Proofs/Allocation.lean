import ShaderGraph.Proofs.Build.Nameless
import ShaderGraph.Proofs.Naming
/-! Names given in a run. A ledger keeps a program with all the names it has given, those of calls
that failed afterwards too; keeping it changes nothing for the program, and the program's count
tells how many there are. A name ends in the count of those before it, so none is given twice. -/
namespace ShaderGraph

structure Ledger where
  program : Program
  names : List String := []
  deriving DecidableEq, Repr

abbrev Naming := EStateM Failure Ledger

namespace Naming

def ofBuild {α : Type} (x : Build α) : Naming α := fun l =>
  match x l.program with
  | .ok a q => .ok a { l with program := q }
  | .error e q => .error e { l with program := q }

instance : MonadLift Build Naming := ⟨ofBuild⟩

def program : Naming Program := do return (← get).program

def nextName (stem : String) : Naming String := do
  let name ← Build.nextName stem
  modify fun l => { l with names := l.names ++ [name] }
  return name

def declare (scope : ScopeId) (stem : String) (ty : Ty) (init : Option ExprId) :
    Naming VarId := do
  let _ ← (← program).scopes.find scope
  Build.checkInit (← program) ty init
  let name ← nextName stem
  let v ← Build.newLexical scope name ty
  let reads ← Build.initReads (← program) init
  let _ ← Build.placeStatement scope (.act (.declare v init)) reads [⟨v, 0⟩]
  return v

def branch (scope : ScopeId) (condition : ExprId) : Naming Build.Branch := do
  let p ← program
  let _ ← p.scopes.find scope
  let t ← p.typeOf condition
  if t = .bool1 then
    let name ← nextName "if"
    let owner ← (← program).stmts.next
    let accept ← Build.openScope s!"{name}_accept" scope owner
    let reject ← Build.openScope s!"{name}_reject" scope owner
    let reads ← (← program).readStamps condition
    let statement ← Build.placeStatement scope (.branch condition accept reject) reads []
    return ⟨statement, accept, reject⟩
  else Build.refuse (.typeMismatch (Ty.name .bool1) t.name)

def loop (scope : ScopeId) (start stop : ExprId) : Naming Build.Loop := do
  let p ← program
  let _ ← p.scopes.find scope
  Build.checkIndex p start
  Build.checkIndex p stop
  let name ← nextName "loop"
  let owner ← (← program).stmts.next
  let body ← Build.openScope s!"{name}_body" scope owner
  let counterName ← nextName "i"
  let counter ← Build.newLexical body counterName .int1
  let p ← program
  let startReads ← p.readStamps start
  let stopReads ← p.readStamps stop
  let statement ← Build.placeStatement scope (.loop counter start stop body)
    (startReads.union stopReads) [⟨counter, 0⟩]
  return ⟨statement, body, counter⟩

def block (scope : ScopeId) (op : String) : Naming (Logged BlockId) := do
  let _ ← (← program).scopes.find scope
  let name ← nextName op
  let handle ← (← program).blocks.next
  let owner ← (← program).stmts.next
  let body ← Build.openScope name scope owner
  let statement ← Build.placeStatement scope (.block handle) .empty []
  let handle ← Build.addBlockNode ⟨op, name, statement, scope, body, [], []⟩
  return ⟨handle, [⟨.debug, s!"added block {name}"⟩]⟩

def inputName (op : String) (ty : Ty) : Option String → Naming String
  | some name => return name
  | none => nextName (op ++ "_" ++ ty.slotName "in")

def input (b : BlockId) (name : Option String) (ty : Ty) (default : Option ExprId) :
    Naming (Logged SlotId) := do
  let node ← (← program).blocks.find b
  if ty.isStorable then
    Build.checkDefault (← program) ty default
    let name ← inputName node.op ty name
    let handle ← (← program).slots.next
    let reader ← Build.addExpr (.slot handle) ty
    let handle ← Build.addSlotNode ⟨name, ty, b, reader, none, .empty⟩
    Build.adjustBlock b fun node => { node with inputs := node.inputs ++ [handle] }
    let noted ← Build.fillSlot handle default
    return ⟨handle, [noted]⟩
  else Build.refuse (.unsupportedType s!"block input of type {ty.name}")

def arrayInput (b : BlockId) (name : Option String) (elem : Ty) (size : UInt32) :
    Naming (Logged SlotId) := do
  let ty ← Outcome.ofResult (Ty.arrayOf elem size)
  input b name ty none

def output (b : BlockId) (name : Option String) (ty : Ty) : Naming VarId := do
  let node ← (← program).blocks.find b
  let name ← nextName (Build.outputStem node.op ty name)
  let v ← Build.newLexical node.parent name ty
  let declared ← Build.addStatement
    ⟨.act (.declare v none), node.parent, .empty, [⟨v, 0⟩]⟩
  Build.adjustScope node.parent fun s =>
    { s with statements := Build.insertBefore node.statement declared s.statements }
  Build.adjustBlock b fun node => { node with outputs := node.outputs ++ [v] }
  return v

end Naming

def Call.record : Call → Naming (Logged Answer)
  | .nextName stem => do return ⟨.name (← Naming.nextName stem), []⟩
  | .declare scope stem ty init => do return ⟨.var (← Naming.declare scope stem ty init), []⟩
  | .branch scope condition => do return ⟨.branch (← Naming.branch scope condition), []⟩
  | .loop scope start stop => do return ⟨.loop (← Naming.loop scope start stop), []⟩
  | .block scope op => do
    let made ← Naming.block scope op
    return ⟨.block made.value, made.log⟩
  | .input b name ty default => do
    let made ← Naming.input b name ty default
    return ⟨.slot made.value, made.log⟩
  | .arrayInput b name elem size => do
    let made ← Naming.arrayInput b name elem size
    return ⟨.slot made.value, made.log⟩
  | .output b name ty => do return ⟨.var (← Naming.output b name ty), []⟩
  | other => other.run

/-- The ledger after a row of calls, refused ones included; a call that aborts ends the row. -/
def Ledger.after (l : Ledger) : List Call → Ledger
  | [] => l
  | call :: rest =>
    match call.record l with
    | .ok _ m => m.after rest
    | .error (.rejected _) m => m.after rest
    | .error (.aborted _) m => m

def unlisted {α : Type} : EStateM.Result Failure Ledger α → EStateM.Result Failure Program α
  | .ok a l => .ok a l.program
  | .error e l => .error e l.program

structure Ledger.Sound (l : Ledger) : Prop where
  counted : l.program.nameCounter = .ofNat l.names.length
  numbered : ∀ ⦃i name⦄, l.names[i]? = some name →
    ∃ stem : String, name = s!"{stem}_{UInt32.ofNat i}"

/-- `x` does to the program of a ledger what `y` does to a program, and keeps the ledger sound. -/
structure Follows {α : Type} (x : Naming α) (y : Build α) : Prop where
  same : ∀ l, unlisted (x l) = y l.program
  sound : ∀ ⦃l⦄, l.Sound → (ended (x l)).Sound

namespace Follows

variable {α β : Type}

theorem pure (a : α) : Follows (pure a) (pure a) := ⟨fun _ => rfl, fun _ sound => sound⟩

theorem program : Follows Naming.program get := ⟨fun _ => rfl, fun _ sound => sound⟩

theorem bind {x : Naming α} {y : Build α} {f : α → Naming β} {g : α → Build β} (first : Follows x y)
    (rest : ∀ a, Follows (f a) (g a)) : Follows (x >>= f) (y >>= g) := by
  constructor
  · intro l
    have one := first.same l
    change unlisted (EStateM.bind x f l) = EStateM.bind y g l.program
    unfold EStateM.bind
    rw [← one]
    cases x l with
    | ok a m => exact (rest a).same m
    | error e m => rfl
  · intro l sound
    have one := first.sound sound
    change (ended (EStateM.bind x f l)).Sound
    unfold EStateM.bind
    cases ran : x l with
    | ok a m =>
      rw [ran] at one
      exact (rest a).sound one
    | error e m =>
      rw [ran] at one
      exact one

theorem nameless {y : Build α} (quiet : Build.Nameless y) : Follows (liftM y) y := by
  have runs (l : Ledger) : (liftM y : Naming α) l = Naming.ofBuild y l := rfl
  constructor
  · intro l
    rw [runs, Naming.ofBuild]
    cases y l.program with
    | ok a q => rfl
    | error e q => rfl
  · intro l sound
    have still := quiet l.program
    rw [runs, Naming.ofBuild]
    cases ran : y l.program with
    | ok a q =>
      rw [ran] at still
      exact ⟨still.trans sound.counted, sound.numbered⟩
    | error e q =>
      rw [ran] at still
      exact ⟨still.trans sound.counted, sound.numbered⟩

theorem lift {x : Outcome α} {f : α → Naming β} {g : α → Build β}
    (rest : ∀ a, Follows (f a) (g a)) : Follows (liftM x >>= f) (liftM x >>= g) :=
  .bind (.nameless (.outcome x)) rest

theorem nextName (stem : String) : Follows (Naming.nextName stem) (Build.nextName stem) := by
  constructor
  · exact fun _ => rfl
  · intro l sound
    constructor
    · change l.program.nameCounter + 1 = .ofNat (l.names ++ [_]).length
      rw [sound.counted, List.length_append, List.length_singleton, UInt32.ofNat_add]
      rfl
    · intro i name at_
      change (l.names ++ [s!"{stem}_{l.program.nameCounter}"])[i]? = some name at at_
      rw [List.getElem?_append] at at_
      split at at_
      · exact sound.numbered at_
      · rw [List.getElem?_singleton] at at_
        split at at_
        · rename_i least none
          have last : i = l.names.length := by omega
          cases at_
          exact ⟨stem, by rw [sound.counted, last]⟩
        · cases at_

end Follows

open Build

namespace Naming

theorem declareFollows (scope : ScopeId) (stem : String) (ty : Ty) (init : Option ExprId) :
    Follows (declare scope stem ty init) (Build.declare scope stem ty init) :=
  .bind .program fun _ => .lift fun _ => .bind .program fun _ => .lift fun _ =>
    .bind (.nextName _) fun _ => .bind (.nameless (namelessNewLexical _ _ _)) fun _ =>
      .bind .program fun _ => .lift fun _ =>
        .bind (.nameless (namelessPlaceStatement _ _ _ _)) fun _ => .pure _

theorem branchFollows (scope : ScopeId) (condition : ExprId) :
    Follows (branch scope condition) (Build.branch scope condition) := by
  refine .bind .program fun _ => .lift fun _ => .lift fun t => ?_
  split
  · exact .bind (.nextName _) fun _ => .bind .program fun _ => .lift fun _ =>
      .bind (.nameless (namelessOpenScope _ _ _)) fun _ =>
        .bind (.nameless (namelessOpenScope _ _ _)) fun _ => .bind .program fun _ => .lift fun _ =>
          .bind (.nameless (namelessPlaceStatement _ _ _ _)) fun _ => .pure _
  · exact .nameless (.refuse _)

theorem loopFollows (scope : ScopeId) (start stop : ExprId) :
    Follows (loop scope start stop) (Build.loop scope start stop) :=
  .bind .program fun _ => .lift fun _ => .lift fun _ => .lift fun _ => .bind (.nextName _) fun _ =>
    .bind .program fun _ => .lift fun _ => .bind (.nameless (namelessOpenScope _ _ _)) fun _ =>
      .bind (.nextName _) fun _ => .bind (.nameless (namelessNewLexical _ _ _)) fun _ =>
        .bind .program fun _ => .lift fun _ => .lift fun _ =>
          .bind (.nameless (namelessPlaceStatement _ _ _ _)) fun _ => .pure _

theorem blockFollows (scope : ScopeId) (op : String) :
    Follows (block scope op) (Build.block scope op) :=
  .bind .program fun _ => .lift fun _ => .bind (.nextName _) fun _ => .bind .program fun _ =>
    .lift fun _ => .bind .program fun _ => .lift fun _ =>
      .bind (.nameless (namelessOpenScope _ _ _)) fun _ =>
        .bind (.nameless (namelessPlaceStatement _ _ _ _)) fun _ =>
          .bind (.nameless (namelessAddBlockNode _)) fun _ => .pure _

theorem inputNameFollows (op : String) (ty : Ty) (name : Option String) :
    Follows (inputName op ty name) (Build.inputName op ty name) := by
  cases name with
  | none => exact .nextName _
  | some name => exact .pure name

theorem inputFollows (b : BlockId) (name : Option String) (ty : Ty) (default : Option ExprId) :
    Follows (input b name ty default) (Build.input b name ty default) := by
  refine .bind .program fun _ => .lift fun node => ?_
  split
  · exact .bind .program fun _ => .lift fun _ => .bind (inputNameFollows _ _ _) fun _ =>
      .bind .program fun _ => .lift fun _ => .bind (.nameless (namelessAddExpr _ _)) fun _ =>
        .bind (.nameless (namelessAddSlotNode _)) fun _ =>
          .bind (.nameless (namelessAdjustBlock _ _)) fun _ =>
            .bind (.nameless (namelessFillSlot _ _)) fun _ => .pure _
  · exact .nameless (.refuse _)

theorem arrayInputFollows (b : BlockId) (name : Option String) (elem : Ty) (size : UInt32) :
    Follows (arrayInput b name elem size) (Build.arrayInput b name elem size) :=
  .lift fun _ => inputFollows _ _ _ _

theorem outputFollows (b : BlockId) (name : Option String) (ty : Ty) :
    Follows (output b name ty) (Build.output b name ty) :=
  .bind .program fun _ => .lift fun _ => .bind (.nextName _) fun _ =>
    .bind (.nameless (namelessNewLexical _ _ _)) fun _ =>
      .bind (.nameless (namelessAddStatement _)) fun _ =>
        .bind (.nameless (namelessAdjustScope _ _)) fun _ =>
          .bind (.nameless (namelessAdjustBlock _ _)) fun _ => .pure _

end Naming

def Call.names : Call → Bool
  | .nextName .. | .declare .. | .branch .. | .loop .. | .block .. | .input .. | .arrayInput ..
  | .output .. => true
  | _ => false

theorem runNameless {call : Call} (silent : call.names = false) : Build.Nameless call.run := by
  cases call with
  | addStage kind => exact .bind (namelessAddStage kind) fun _ => .pure _
  | addCompute size => exact .bind (namelessAddCompute size) fun _ => .pure _
  | uniform name ty => exact .bind (namelessUniform name ty) fun _ => .pure _
  | stageInput stage name ty => exact .bind (namelessStageInput stage name ty) fun _ => .pure _
  | stageOutput stage name ty => exact .bind (namelessStageOutput stage name ty) fun _ => .pure _
  | builtin value => exact .bind (namelessBuiltin value) fun _ => .pure _
  | literal value => exact .bind (namelessLiteral value) fun _ => .pure _
  | read v => exact .bind (namelessRead v) fun _ => .pure _
  | compose ty parts => exact .bind (namelessCompose ty parts) fun _ => .pure _
  | unary op operand => exact .bind (namelessUnary op operand) fun _ => .pure _
  | binary op left right => exact .bind (namelessBinary op left right) fun _ => .pure _
  | swizzle vector pattern => exact .bind (namelessSwizzle vector pattern) fun _ => .pure _
  | column matrix index => exact .bind (namelessColumn matrix index) fun _ => .pure _
  | columnAt matrix index => exact .bind (namelessColumnAt matrix index) fun _ => .pure _
  | element array index => exact .bind (namelessElement array index) fun _ => .pure _
  | elementAt array index => exact .bind (namelessElementAt array index) fun _ => .pure _
  | call f args => exact .bind (namelessCall f args) fun _ => .pure _
  | convert operand kind => exact .bind (namelessConvert operand kind) fun _ => .pure _
  | sample sampler coord => exact .bind (namelessSample sampler coord) fun _ => .pure _
  | load storage coord => exact .bind (namelessLoad storage coord) fun _ => .pure _
  | assign scope target value => exact .bind (namelessAssign scope target value) fun _ => .pure _
  | store scope storage coord value =>
    exact .bind (namelessStore scope storage coord value) fun _ => .pure _
  | bind s value => exact .bind (namelessBind s value) fun _ => .pure _
  | clear s => exact .bind (namelessClear s) fun _ => .pure _
  | nextName | declare | branch | loop | block | input | arrayInput | output => cases silent

theorem recordFollows (call : Call) : Follows call.record call.run := by
  cases call with
  | nextName stem => exact .bind (.nextName stem) fun _ => .pure _
  | declare scope stem ty init =>
    exact .bind (Naming.declareFollows scope stem ty init) fun _ => .pure _
  | branch scope condition => exact .bind (Naming.branchFollows scope condition) fun _ => .pure _
  | loop scope start stop => exact .bind (Naming.loopFollows scope start stop) fun _ => .pure _
  | block scope op => exact .bind (Naming.blockFollows scope op) fun _ => .pure _
  | input b name ty default => exact .bind (Naming.inputFollows b name ty default) fun _ => .pure _
  | arrayInput b name elem size =>
    exact .bind (Naming.arrayInputFollows b name elem size) fun _ => .pure _
  | output b name ty => exact .bind (Naming.outputFollows b name ty) fun _ => .pure _
  | _ => exact .nameless (runNameless rfl)

namespace Ledger

variable {l : Ledger}

theorem fresh (name : String) : Sound { program := { name } } := ⟨rfl, nofun⟩

theorem Sound.after (sound : l.Sound) (calls : List Call) : (l.after calls).Sound := by
  induction calls generalizing l with
  | nil => exact sound
  | cons call rest ih =>
    have one := (recordFollows call).sound sound
    rw [Ledger.after]
    cases ran : call.record l with
    | ok a m =>
      rw [ran] at one
      exact ih one
    | error e m =>
      rw [ran] at one
      cases e with
      | rejected error => exact ih one
      | aborted cause => exact one

theorem programAfter {calls : List Call} {p : Program}
    (ran : l.program.after calls = some p) : (l.after calls).program = p := by
  induction calls generalizing l with
  | nil =>
    cases ran
    rfl
  | cons call rest ih =>
    rw [Program.after, ← (recordFollows call).same l] at ran
    rw [Ledger.after]
    cases recorded : call.record l with
    | ok a m =>
      rw [recorded] at ran
      exact ih ran
    | error e m =>
      rw [recorded] at ran
      cases e with
      | rejected error => exact ih ran
      | aborted cause => cases ran

theorem Sound.once (sound : l.Sound) (few : l.names.length < UInt32.size) : l.names.Nodup := by
  rw [List.nodup_iff_getElem?_ne_getElem?]
  intro i j earlier inside same
  have there := List.getElem?_eq_getElem inside
  obtain ⟨stem, spelled⟩ := sound.numbered there
  obtain ⟨other, written⟩ := sound.numbered (same.trans there)
  have round := numberedLate earlier (written.symm.trans spelled)
  omega

end Ledger

theorem namesOnce {name : String} {calls : List Call} {l : Ledger}
    (kept : Ledger.after { program := { name } } calls = l)
    (few : l.names.length < UInt32.size) :
    l.names.Nodup ∧ l.program.nameCounter.toNat = l.names.length ∧
      (∀ i given, l.names[i]? = some given →
        ∃ stem : String, given = s!"{stem}_{UInt32.ofNat i}") ∧
      (∀ p, Program.after { name } calls = some p → l.program = p) ∧
      ∀ (call : Call) (before : Ledger),
        unlisted (call.record before) = call.run before.program := by
  have sound : l.Sound := kept ▸ (Ledger.fresh name).after calls
  refine ⟨sound.once few, ?_, fun _ _ at_ => sound.numbered at_, ?_, ?_⟩
  · rw [sound.counted, UInt32.toNat_ofNat_of_lt' few]
  · rintro p ran
    rw [← kept]
    exact Ledger.programAfter (l := { program := { name } }) ran
  · exact fun call before => (recordFollows call).same before

def stemRun : List Call :=
  [.addStage .fragment, .nextName "a", .nextName "a_0", .nextName "", .nextName "_",
    .declare ⟨0⟩ "_2" .void none, .declare ⟨0⟩ "" .float1 none, .literal (.bool true),
    .literal (.int 1), .branch ⟨0⟩ ⟨0⟩, .loop ⟨0⟩ ⟨1⟩ ⟨1⟩, .block ⟨0⟩ "a_0",
    .input ⟨0⟩ none .float1 none, .input ⟨0⟩ (some "a_0") .float1 none,
    .output ⟨0⟩ none .float1, .output ⟨0⟩ (some "o") .void]

theorem namesOnceStems : ∃ l : Ledger, Ledger.after { program := { name := "" } } stemRun = l ∧
    l.names = ["a_0", "a_0_1", "_2", "__3", "_2_4", "_5", "if_6", "loop_7", "i_8", "a_0_9",
      "a_0_inF1_10", "a_0_outF1_11", "a_0_o_12"] ∧
    l.names.length < UInt32.size ∧ l.names.Nodup := by
  have few : (Ledger.after { program := { name := "" } } stemRun).names.length < UInt32.size := by
    have length : (Ledger.after { program := { name := "" } } stemRun).names.length = 13 := rfl
    rw [length]
    decide
  exact ⟨_, rfl, rfl, few, (namesOnce rfl few).1⟩

end ShaderGraph
