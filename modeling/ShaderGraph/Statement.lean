import ShaderGraph.Expr
import ShaderGraph.Stamp
/-! Statements, the scopes that order them, blocks with their input slots, and stages. -/
namespace ShaderGraph

inductive Action
  | declare (var : VarId) (init : Option ExprId)
  | assign (target value : ExprId)
  | store (storage coord value : ExprId)
  deriving DecidableEq, Repr

inductive StatementKind
  | act (action : Action)
  | branch (condition : ExprId) (accept reject : ScopeId)
  | loop (counter : VarId) (start stop : ExprId) (body : ScopeId)
  | block (block : BlockId)
  deriving DecidableEq, Repr

/-- `reads` stamps the state the statement's operands depend on, `writes` the states it
sets itself, without the scopes nested under it. -/
structure Statement where
  kind : StatementKind
  scope : ScopeId
  reads : Stamps
  writes : List Stamp
  deriving DecidableEq, Repr

/-- `owner` is the statement the scope is nested under; a stage's main scope has none. -/
structure Scope where
  name : String
  stage : StageKind
  parent : Option ScopeId
  owner : Option StmtId
  statements : List StmtId
  deriving DecidableEq, Repr

structure Block where
  op : String
  name : String
  statement : StmtId
  parent : ScopeId
  body : ScopeId
  inputs : List SlotId
  outputs : List VarId
  deriving DecidableEq, Repr

/-- An expression slot of a block. `node` reads the slot inside the block's body, `value` is
what is bound to it now, and `reads` stamps the state that value had when it was bound. -/
structure Slot where
  name : String
  ty : Ty
  block : BlockId
  node : ExprId
  value : Option ExprId
  reads : Stamps
  deriving DecidableEq, Repr

structure Stage where
  kind : StageKind
  main : ScopeId
  inputs : List VarId
  outputs : List VarId
  builtins : List VarId
  workgroup : Option Workgroup
  deriving DecidableEq, Repr

def ScalarKind.initial : ScalarKind → String
  | .float => "F"
  | .int => "I"
  | .uint => "U"
  | .bool => "B"

def ValueTy.short : ValueTy → String
  | .scalar kind => s!"{kind.initial}1"
  | .vector size kind => s!"{kind.initial}{size.count}"
  | .matrix size => s!"M{size.count}"

def Ty.slotName (direction : String) : Ty → String
  | .array (.matrix size) _ => s!"{direction}ArrMat{size.count}"
  | .array elem _ => s!"{direction}Arr{elem.short}"
  | other => match other.value? with
    | some v => s!"{direction}{v.short}"
    | none => direction

end ShaderGraph
