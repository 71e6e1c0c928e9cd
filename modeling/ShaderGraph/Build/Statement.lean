import ShaderGraph.Build.Expression
/-! Building statements. An assignment counts one more mutation of the variable behind its
target; branches and loops open the scopes that are filled afterwards. -/
namespace ShaderGraph.Build

def checkInit (p : Program) (ty : Ty) : Option ExprId → Outcome Unit
  | none => .ok ()
  | some init => do
    let t ← p.typeOf init
    if t = ty then return () else mismatch ty.name t.name

def initReads (p : Program) : Option ExprId → Outcome Stamps
  | none => .ok .empty
  | some init => p.readStamps init

def declare (scope : ScopeId) (stem : String) (ty : Ty) (init : Option ExprId) :
    Build VarId := do
  let _ ← (← get).scopes.find scope
  checkInit (← get) ty init
  let name ← nextName stem
  let v ← newLexical scope name ty
  let reads ← initReads (← get) init
  let _ ← placeStatement scope (.act (.declare v init)) reads [⟨v, 0⟩]
  return v

def assign (scope : ScopeId) (target value : ExprId) : Build StmtId := do
  let p ← get
  let _ ← p.scopes.find scope
  let targetTy ← p.typeOf target
  let valueTy ← p.typeOf value
  match ← p.root target with
  | none => refuse (.notAssignable (← p.pseudo target))
  | some v =>
    if targetTy = valueTy then
      let reads := (← p.readStamps value).union (← p.targetReads target)
      let written ← bump v
      placeStatement scope (.act (.assign target value)) reads [written]
    else refuse (.typeMismatch targetTy.name valueTy.name)

def store (scope : ScopeId) (storage coord value : ExprId) : Build StmtId := do
  let p ← get
  let _ ← p.scopes.find scope
  let s ← checkStorage p storage coord
  let t ← p.typeOf value
  if t = s.texelTy then
    let reads := (← p.readStamps coord).union (← p.readStamps value)
    placeStatement scope (.act (.store storage coord value)) reads []
  else refuse (.typeMismatch s.texelTy.name t.name)

structure Branch where
  statement : StmtId
  accept : ScopeId
  reject : ScopeId
  deriving DecidableEq, Repr

def branch (scope : ScopeId) (condition : ExprId) : Build Branch := do
  let p ← get
  let _ ← p.scopes.find scope
  let t ← p.typeOf condition
  if t = .bool1 then
    let name ← nextName "if"
    let owner ← (← get).stmts.next
    let accept ← openScope s!"{name}_accept" scope owner
    let reject ← openScope s!"{name}_reject" scope owner
    let reads ← (← get).readStamps condition
    let statement ← placeStatement scope (.branch condition accept reject) reads []
    return ⟨statement, accept, reject⟩
  else refuse (.typeMismatch (Ty.name .bool1) t.name)

structure Loop where
  statement : StmtId
  body : ScopeId
  counter : VarId
  deriving DecidableEq, Repr

def loop (scope : ScopeId) (start stop : ExprId) : Build Loop := do
  let p ← get
  let _ ← p.scopes.find scope
  checkIndex p start
  checkIndex p stop
  let name ← nextName "loop"
  let owner ← (← get).stmts.next
  let body ← openScope s!"{name}_body" scope owner
  let counterName ← nextName "i"
  let counter ← newLexical body counterName .int1
  let p ← get
  let reads := (← p.readStamps start).union (← p.readStamps stop)
  let statement ← placeStatement scope (.loop counter start stop body) reads [⟨counter, 0⟩]
  return ⟨statement, body, counter⟩

end ShaderGraph.Build
