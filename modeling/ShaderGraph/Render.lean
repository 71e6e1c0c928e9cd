import ShaderGraph.Spelling
/-! Writing expressions. A block input is written as what is bound to it now; `opened` lists
the inputs being expanded, and one that comes up inside itself is reported as a cycle. -/
namespace ShaderGraph

def cyclic {α : Type} (slot : Slot) (block : Block) : Outcome α :=
  reject (.cyclicInput slot.name block.name)

def Outcome.ofResult {α : Type} : Except Error α → Outcome α
  | .ok a => .ok a
  | .error e => reject e

namespace Program

variable (p : Program) (sp : Spelling)

def indexText (index : ExprId) (text : String) : Outcome IndexText := do
  match (← p.exprs.fetch index).op with
  | .literal l => return ⟨text, l.index?⟩
  | _ => return ⟨text, none⟩

def samplerTy (e : ExprId) : Outcome Sampler := do
  match ← p.operandTy e with
  | .sampler s => return s
  | other => reject (.typeMismatch "sampler" other.name)

def renderNode (sub : List SlotId → ExprId → Outcome String) (opened : List SlotId)
    (node : Expr) : Outcome String := do
  match node.op with
  | .literal l => return sp.literal l
  | .read v => return sp.read (← p.vars.fetch v)
  | .slot s =>
    let slot ← p.slots.fetch s
    let block ← p.blocks.fetch slot.block
    if s ∈ opened then cyclic slot block
    else match slot.value with
      | some value => sub (s :: opened) value
      | none => Outcome.ofResult (sp.unbound slot block)
  | .compose parts => return sp.compose node.ty (← parts.mapM (sub opened))
  | .unary op operand => return sp.unary op (← sub opened operand)
  | .binary op left right =>
    let l ← sub opened left
    let r ← sub opened right
    return sp.binary op (← p.operandTy left) (← p.operandTy right) l r
  | .swizzle vector pattern => return sp.swizzle (← sub opened vector) pattern
  | .column matrix index =>
    let m ← sub opened matrix
    let i ← sub opened index
    return sp.column m (← p.indexText index i)
  | .element array index =>
    let a ← sub opened array
    let i ← sub opened index
    return sp.element a (← p.indexText index i)
  | .call f args => return sp.call f (← args.mapM (sub opened))
  | .convert operand => return sp.convert node.ty (← sub opened operand)
  | .sample sampler coord =>
    let ty ← p.samplerTy sampler
    let s ← sub opened sampler
    let c ← sub opened coord
    return sp.sample s ty c
  | .load storage coord =>
    let ty ← p.storageTy storage
    let s ← sub opened storage
    let c ← sub opened coord
    return sp.load s ty c

def renderWithin : Nat → List SlotId → ExprId → Outcome String
  | 0, _, _ => abort .endless
  | fuel + 1, opened, e => do
    let node ← p.exprs.fetch e
    p.renderNode sp (renderWithin fuel) opened node

/-- Between two openings of slots a walk meets each expression at most once, and it opens
each slot at most once. -/
def depthBound : Nat := (p.slots.size + 1) * (p.exprs.size + 1)

def render (e : ExprId) : Outcome String := do
  let _ ← p.exprs.find e
  p.renderWithin sp p.depthBound [] e

def pseudo (e : ExprId) : Outcome String :=
  match p.render .pseudo e with
  | .error (.rejected error) => .ok s!"<{error.message}>"
  | other => other

def renderTargetNode (sub : ExprId → Outcome String) (e : ExprId) (node : Expr) :
    Outcome String := do
  match node.op with
  | .read v => return sp.read (← p.vars.fetch v)
  | .column matrix index =>
    let m ← sub matrix
    let i ← p.renderWithin sp p.depthBound [] index
    return sp.columnTarget m (← p.indexText index i)
  | .element array index =>
    let a ← sub array
    let i ← p.renderWithin sp p.depthBound [] index
    return sp.elementTarget a (← p.indexText index i)
  | .swizzle vector pattern => return sp.swizzle (← sub vector) pattern
  | _ => reject (.notAssignable (← p.pseudo e))

def renderTargetWithin : Nat → ExprId → Outcome String
  | 0, _ => abort .endless
  | fuel + 1, e => do
    let node ← p.exprs.fetch e
    p.renderTargetNode sp (renderTargetWithin fuel) e node

def renderTarget (e : ExprId) : Outcome String := do
  let _ ← p.exprs.find e
  p.renderTargetWithin sp (e.index + 1) e

def pseudoTarget (e : ExprId) : Outcome String :=
  match p.renderTarget .pseudo e with
  | .error (.rejected error) => .ok s!"<{error.message}>"
  | other => other

end Program

end ShaderGraph
