import ShaderGraph.Build.Basic
import ShaderGraph.Render
/-! Building expressions. Every call checks its operands in order and refuses an ill-typed
node, so that a node's type is the one its operands give it. -/
namespace ShaderGraph.Build

def mismatch {α : Type} (expected found : String) : Outcome α :=
  reject (.typeMismatch expected found)

def literal (value : Literal) : Build ExprId := addExpr (.literal value) value.ty

def read (v : VarId) : Build ExprId := do
  let node ← (← get).vars.find v
  addExpr (.read v) node.ty

def partTys (p : Program) (ty : Ty) (kind : ScalarKind) : List ExprId → Outcome (List Ty)
  | [] => .ok []
  | part :: rest => do
    let t ← p.typeOf part
    if t.isMatrix || t.scalarKind? != some kind then
      mismatch s!"{kind.title} components for {ty.name}" t.name
    else return t :: (← partTys p ty kind rest)

def componentSum (ts : List Ty) : Nat :=
  ts.foldr (fun t n => t.componentCount?.getD 0 + n) 0

/-- Parts fill a composite when their components add up to its own, or when one scalar is
spread over a vector. -/
def fills (ty : Ty) (count : Nat) (parts : List Ty) : Bool :=
  componentSum parts == count || (ty.isVector && parts.length == 1 && componentSum parts == 1)

def checkCompose (p : Program) (ty : Ty) (parts : List ExprId) : Outcome Unit := do
  match ty.scalarKind?, ty.componentCount? with
  | some kind, some count =>
    let found ← partTys p ty kind parts
    if fills ty count found then return ()
    else
      let names := joined (found.map Ty.name)
      mismatch s!"{count} components for {ty.name}" s!"({names})"
  | _, _ => reject (.unsupportedType s!"constructing {ty.name}")

def compose (ty : Ty) (parts : List ExprId) : Build ExprId := do
  checkCompose (← get) ty parts
  addExpr (.compose parts) ty

def unary (op : UnaryOp) (operand : ExprId) : Build ExprId := do
  let t ← (← get).typeOf operand
  let ty ← Outcome.ofResult (op.resultTy t)
  addExpr (.unary op operand) ty

def binary (op : BinaryOp) (left right : ExprId) : Build ExprId := do
  let l ← (← get).typeOf left
  let r ← (← get).typeOf right
  let ty ← Outcome.ofResult (op.resultTy l r)
  addExpr (.binary op left right) ty

def checkSwizzle (t : Ty) (pattern : String) : Outcome (List Component × Ty) := do
  match t with
  | .vector size kind =>
    let cs ← Outcome.ofResult (Component.parse pattern)
    match cs.find? fun c => size.count ≤ c.index with
    | some c => reject (.invalidSwizzle s!"component {c.title} out of range for {t.name}")
    | none => match Ty.ofComponents? kind cs.length with
      | some ty => return (cs, ty)
      | none => reject (.invalidSwizzle s!"{cs.length} components")
  | other => mismatch "vector" other.name

def swizzle (vector : ExprId) (pattern : String) : Build ExprId := do
  let t ← (← get).typeOf vector
  let (cs, ty) ← checkSwizzle t pattern
  addExpr (.swizzle vector cs) ty

def checkIndex (p : Program) (index : ExprId) : Outcome Unit := do
  let t ← p.typeOf index
  if t = .int1 then return () else mismatch (Ty.name .int1) t.name

def column (matrix index : ExprId) : Build ExprId := do
  let t ← (← get).typeOf matrix
  match t.column? with
  | none => refuse (.typeMismatch "matrix" t.name)
  | some ty =>
    checkIndex (← get) index
    addExpr (.column matrix index) ty

def columnAt (matrix : ExprId) (index : Int32) : Build ExprId := do
  column matrix (← literal (.int index))

def element (array index : ExprId) : Build ExprId := do
  let t ← (← get).typeOf array
  match t.element? with
  | none => refuse (.typeMismatch "array" t.name)
  | some (ty, _) =>
    checkIndex (← get) index
    addExpr (.element array index) ty

def elementAt (array : ExprId) (index : Int32) : Build ExprId := do
  element array (← literal (.int index))

def typesOf (p : Program) (args : List ExprId) : Outcome (List Ty) := args.mapM p.typeOf

def call (f : Intrinsic) (args : List ExprId) : Build ExprId := do
  let ts ← typesOf (← get) args
  let ty ← Outcome.ofResult (f.resultTy ts)
  addExpr (.call f args) ty

def convertTy (t : Ty) (kind : ScalarKind) : Outcome Ty :=
  match t with
  | .scalar _ => .ok (.scalar kind)
  | .vector size _ => .ok (.vector size kind)
  | other => mismatch "scalar or vector" other.name

def convert (operand : ExprId) (kind : ScalarKind) : Build ExprId := do
  let t ← (← get).typeOf operand
  let ty ← convertTy t kind
  addExpr (.convert operand) ty

def checkSample (p : Program) (sampler coord : ExprId) : Outcome Sampler := do
  match ← p.typeOf sampler with
  | .sampler s =>
    let t ← p.typeOf coord
    if t = s.coordTy then return s else mismatch s.coordTy.name t.name
  | other => mismatch "sampler" other.name

def sample (sampler coord : ExprId) : Build ExprId := do
  let s ← checkSample (← get) sampler coord
  addExpr (.sample sampler coord) s.sampleTy

def checkStorage (p : Program) (storage coord : ExprId) : Outcome Storage := do
  match ← p.typeOf storage with
  | .storage s =>
    let t ← p.typeOf coord
    if t = s.coordTy then return s else mismatch s.coordTy.name t.name
  | other => mismatch "storage texture" other.name

def load (storage coord : ExprId) : Build ExprId := do
  let s ← checkStorage (← get) storage coord
  addExpr (.load storage coord) s.texelTy

end ShaderGraph.Build
