import ShaderGraph.Literal
import ShaderGraph.Operator
import ShaderGraph.Swizzle
import ShaderGraph.Variable
/-! Expression nodes: typed, free of effects, and built only from older nodes. -/
namespace ShaderGraph

inductive Operation
  | literal (value : Literal)
  | compose (parts : List ExprId)
  | read (var : VarId)
  | slot (slot : SlotId)
  | unary (op : UnaryOp) (operand : ExprId)
  | binary (op : BinaryOp) (left right : ExprId)
  | swizzle (vector : ExprId) (pattern : List Component)
  | column (matrix index : ExprId)
  | element (array index : ExprId)
  | call (function : Intrinsic) (args : List ExprId)
  | convert (operand : ExprId)
  | sample (sampler coord : ExprId)
  | load (storage coord : ExprId)
  deriving DecidableEq, Repr

def Operation.operands : Operation → List ExprId
  | .literal _ => []
  | .compose parts => parts
  | .read _ => []
  | .slot _ => []
  | .unary _ operand => [operand]
  | .binary _ left right => [left, right]
  | .swizzle vector _ => [vector]
  | .column matrix index => [matrix, index]
  | .element array index => [array, index]
  | .call _ args => args
  | .convert operand => [operand]
  | .sample sampler coord => [sampler, coord]
  | .load storage coord => [storage, coord]

/-- `state` lists the mutable variables the node reads, itself or through its operands, in
handle order; a block input contributes none, since the block tracks what is bound to it. -/
structure Expr where
  op : Operation
  ty : Ty
  state : List VarId
  deriving DecidableEq, Repr

def placeVar (v : VarId) : List VarId → List VarId
  | [] => [v]
  | w :: rest =>
    if v.index < w.index then v :: w :: rest
    else if w.index < v.index then w :: placeVar v rest
    else w :: rest

def orderedVars (vars : List VarId) : List VarId := vars.foldr placeVar []

end ShaderGraph
