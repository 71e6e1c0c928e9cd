import ShaderGraph.Build.Block
import ShaderGraph.Build.Interface
/-! Builder calls as data. A program is reachable when some run of calls, failed ones
included, leads to it from a new program; nothing else makes programs. -/
namespace ShaderGraph

inductive Call
  | nextName (stem : String)
  | addStage (kind : StageKind)
  | addCompute (size : Workgroup)
  | uniform (name : String) (ty : Ty)
  | stageInput (stage : StageKind) (name : String) (ty : Ty)
  | stageOutput (stage : StageKind) (name : String) (ty : Ty)
  | builtin (value : Builtin)
  | literal (value : Literal)
  | read (var : VarId)
  | compose (ty : Ty) (parts : List ExprId)
  | unary (op : UnaryOp) (operand : ExprId)
  | binary (op : BinaryOp) (left right : ExprId)
  | swizzle (vector : ExprId) (pattern : String)
  | column (matrix index : ExprId)
  | columnAt (matrix : ExprId) (index : Int32)
  | element (array index : ExprId)
  | elementAt (array : ExprId) (index : Int32)
  | call (function : Intrinsic) (args : List ExprId)
  | convert (operand : ExprId) (kind : ScalarKind)
  | sample (sampler coord : ExprId)
  | load (storage coord : ExprId)
  | declare (scope : ScopeId) (stem : String) (ty : Ty) (init : Option ExprId)
  | assign (scope : ScopeId) (target value : ExprId)
  | store (scope : ScopeId) (storage coord value : ExprId)
  | branch (scope : ScopeId) (condition : ExprId)
  | loop (scope : ScopeId) (start stop : ExprId)
  | block (scope : ScopeId) (op : String)
  | input (block : BlockId) (name : Option String) (ty : Ty) (default : Option ExprId)
  | arrayInput (block : BlockId) (name : Option String) (elem : Ty) (size : UInt32)
  | output (block : BlockId) (name : Option String) (ty : Ty)
  | bind (slot : SlotId) (value : ExprId)
  | clear (slot : SlotId)
  deriving DecidableEq, Repr

inductive Answer
  | name (name : String)
  | scope (scope : ScopeId)
  | var (var : VarId)
  | expr (expr : ExprId)
  | statement (statement : StmtId)
  | branch (branch : Build.Branch)
  | loop (loop : Build.Loop)
  | block (block : BlockId)
  | slot (slot : SlotId)
  | done
  deriving DecidableEq, Repr

namespace Call

def quiet {α : Type} (answer : α → Answer) (call : Build α) : Build (Logged Answer) := do
  return ⟨answer (← call), []⟩

def logged {α : Type} (answer : α → Answer) (call : Build (Logged α)) :
    Build (Logged Answer) := do
  let made ← call
  return ⟨answer made.value, made.log⟩

def run : Call → Build (Logged Answer)
  | .nextName stem => quiet .name (Build.nextName stem)
  | .addStage kind => quiet .scope (Build.addStage kind)
  | .addCompute size => quiet .scope (Build.addCompute size)
  | .uniform name ty => quiet .var (Build.uniform name ty)
  | .stageInput stage name ty => quiet .var (Build.stageInput stage name ty)
  | .stageOutput stage name ty => quiet .var (Build.stageOutput stage name ty)
  | .builtin value => quiet .var (Build.builtin value)
  | .literal value => quiet .expr (Build.literal value)
  | .read v => quiet .expr (Build.read v)
  | .compose ty parts => quiet .expr (Build.compose ty parts)
  | .unary op operand => quiet .expr (Build.unary op operand)
  | .binary op left right => quiet .expr (Build.binary op left right)
  | .swizzle vector pattern => quiet .expr (Build.swizzle vector pattern)
  | .column matrix index => quiet .expr (Build.column matrix index)
  | .columnAt matrix index => quiet .expr (Build.columnAt matrix index)
  | .element array index => quiet .expr (Build.element array index)
  | .elementAt array index => quiet .expr (Build.elementAt array index)
  | .call function args => quiet .expr (Build.call function args)
  | .convert operand kind => quiet .expr (Build.convert operand kind)
  | .sample sampler coord => quiet .expr (Build.sample sampler coord)
  | .load storage coord => quiet .expr (Build.load storage coord)
  | .declare scope stem ty init => quiet .var (Build.declare scope stem ty init)
  | .assign scope target value => quiet .statement (Build.assign scope target value)
  | .store scope storage coord value => quiet .statement (Build.store scope storage coord value)
  | .branch scope condition => quiet .branch (Build.branch scope condition)
  | .loop scope start stop => quiet .loop (Build.loop scope start stop)
  | .block scope op => logged .block (Build.block scope op)
  | .input b name ty default => logged .slot (Build.input b name ty default)
  | .arrayInput b name elem size => logged .slot (Build.arrayInput b name elem size)
  | .output b name ty => quiet .var (Build.output b name ty)
  | .bind slot value => logged (fun _ => .done) (Build.bind slot value)
  | .clear slot => logged (fun _ => .done) (Build.clear slot)

end Call

inductive Step (p : Program) (call : Call) (q : Program) : Prop
  | answered (answer : Logged Answer) (ran : call.run p = .ok answer q)
  | refused (error : Error) (ran : call.run p = .error (.rejected error) q)

inductive Reachable : Program → Prop
  | new (name : String) : Reachable { name }
  | call {p q : Program} {call : Call} (before : Reachable p) (step : Step p call q) :
      Reachable q

end ShaderGraph
