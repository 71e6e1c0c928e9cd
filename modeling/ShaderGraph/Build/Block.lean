import ShaderGraph.Build.Statement
import ShaderGraph.Message
/-! Building blocks. A block's inputs are slots that can be bound again at any time; what
the block statement reads is always the union of what its slots read. Outputs are variables
of the scope around the block, declared directly before it. -/
namespace ShaderGraph.Build

def block (scope : ScopeId) (op : String) : Build (Logged BlockId) := do
  let _ ← (← get).scopes.find scope
  let name ← nextName op
  let handle ← (← get).blocks.next
  let owner ← (← get).stmts.next
  let body ← openScope name scope owner
  let statement ← placeStatement scope (.block handle) .empty []
  let handle ← addBlockNode ⟨op, name, statement, scope, body, [], []⟩
  return ⟨handle, [⟨.debug, s!"added block {name}"⟩]⟩

def checkBinding (p : Program) (ty : Ty) (value : ExprId) : Outcome Unit := do
  let t ← p.typeOf value
  if t = ty then return () else mismatch ty.name t.name

def slotReads (p : Program) : List SlotId → Outcome Stamps
  | slots => go .empty slots
where
  go (set : Stamps) : List SlotId → Outcome Stamps
    | [] => .ok set
    | s :: rest => do go (set.union (← p.slots.fetch s).reads) rest

def refreshReads (b : BlockId) : Build Message := do
  let p ← get
  let node ← p.blocks.fetch b
  let reads ← slotReads p node.inputs
  adjustStatement node.statement fun s => { s with reads }
  return ⟨.trace, s!"block {node.name} now depends on {reads.size} variable(s)"⟩

def fillSlot (s : SlotId) (value : Option ExprId) : Build Message := do
  let reads ← initReads (← get) value
  let slot ← (← get).slots.fetch s
  adjustSlot s fun slot => { slot with value, reads }
  refreshReads slot.block

def checkDefault (p : Program) (ty : Ty) : Option ExprId → Outcome Unit
  | none => .ok ()
  | some value => checkBinding p ty value

def inputName (op : String) (ty : Ty) : Option String → Build String
  | some name => return name
  | none => nextName (op ++ "_" ++ ty.slotName "in")

def input (b : BlockId) (name : Option String) (ty : Ty) (default : Option ExprId) :
    Build (Logged SlotId) := do
  let node ← (← get).blocks.find b
  if ty.isStorable then
    checkDefault (← get) ty default
    let name ← inputName node.op ty name
    let handle ← (← get).slots.next
    let reader ← addExpr (.slot handle) ty
    let handle ← addSlotNode ⟨name, ty, b, reader, none, .empty⟩
    adjustBlock b fun node => { node with inputs := node.inputs ++ [handle] }
    let noted ← fillSlot handle default
    return ⟨handle, [noted]⟩
  else refuse (.unsupportedType s!"block input of type {ty.name}")

def arrayInput (b : BlockId) (name : Option String) (elem : Ty) (size : UInt32) :
    Build (Logged SlotId) := do
  let ty ← Outcome.ofResult (Ty.arrayOf elem size)
  input b name ty none

def bind (s : SlotId) (value : ExprId) : Build (Logged Unit) := do
  let slot ← (← get).slots.find s
  checkBinding (← get) slot.ty value
  let node ← (← get).blocks.fetch slot.block
  let noted ← fillSlot s (some value)
  return ⟨(), [⟨.debug, s!"rebinding input {slot.name} of block {node.name}"⟩, noted]⟩

def clear (s : SlotId) : Build (Logged Unit) := do
  let _ ← (← get).slots.find s
  let noted ← fillSlot s none
  return ⟨(), [noted]⟩

def insertBefore (mark new : StmtId) : List StmtId → List StmtId
  | [] => [new]
  | s :: rest => if s = mark then new :: s :: rest else s :: insertBefore mark new rest

def outputStem (op : String) (ty : Ty) : Option String → String
  | some name => op ++ "_" ++ name
  | none => op ++ "_" ++ ty.slotName "out"

def output (b : BlockId) (name : Option String) (ty : Ty) : Build VarId := do
  let node ← (← get).blocks.find b
  let name ← nextName (outputStem node.op ty name)
  let v ← newLexical node.parent name ty
  let declared ← addStatement ⟨.act (.declare v none), node.parent, .empty, [⟨v, 0⟩]⟩
  adjustScope node.parent fun s =>
    { s with statements := insertBefore node.statement declared s.statements }
  adjustBlock b fun node => { node with outputs := node.outputs ++ [v] }
  return v

end ShaderGraph.Build
