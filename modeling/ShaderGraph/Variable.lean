import ShaderGraph.Arena
import ShaderGraph.Ty
/-! Program variables. A variable counts the assignments built to it, so that a value read
earlier can be told from the value it has now. -/
namespace ShaderGraph

inductive Builtin
  | position
  | vertexIndex
  | instanceIndex
  | fragCoord
  | fragDepth
  | globalInvocationId
  | localInvocationId
  deriving DecidableEq, Repr

namespace Builtin

def name : Builtin → String
  | .position => "position"
  | .vertexIndex => "vertexIndex"
  | .instanceIndex => "instanceIndex"
  | .fragCoord => "fragCoord"
  | .fragDepth => "fragDepth"
  | .globalInvocationId => "globalInvocationId"
  | .localInvocationId => "localInvocationId"

def ty : Builtin → Ty
  | .position => .float4
  | .vertexIndex => .int1
  | .instanceIndex => .int1
  | .fragCoord => .float4
  | .fragDepth => .float1
  | .globalInvocationId => .uint3
  | .localInvocationId => .uint3

def stage : Builtin → StageKind
  | .position => .vertex
  | .vertexIndex => .vertex
  | .instanceIndex => .vertex
  | .fragCoord => .fragment
  | .fragDepth => .fragment
  | .globalInvocationId => .compute
  | .localInvocationId => .compute

def isOutput : Builtin → Bool
  | .position => true
  | .fragDepth => true
  | _ => false

end Builtin

inductive VariableKind
  | lexical
  | uniform
  | stageInput (location : UInt32)
  | stageOutput (location : UInt32)
  | builtin (value : Builtin)
  deriving DecidableEq, Repr

structure Variable where
  name : String
  ty : Ty
  kind : VariableKind
  stage : Option StageKind
  scope : Option ScopeId
  mutations : UInt32
  deriving DecidableEq, Repr

namespace Variable

def isMutable (v : Variable) : Bool :=
  match v.kind with
  | .lexical => true
  | .stageOutput _ => true
  | .builtin b => b.isOutput
  | .uniform => false
  | .stageInput _ => false

def isLexical (v : Variable) : Bool := v.kind == .lexical

end Variable

end ShaderGraph
