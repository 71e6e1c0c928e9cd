/-! The pipeline stages a program can have, and the workgroup a compute stage runs in. -/
namespace ShaderGraph

inductive StageKind
  | vertex
  | fragment
  | compute
  deriving DecidableEq, Repr

def StageKind.name : StageKind → String
  | .vertex => "vertex"
  | .fragment => "fragment"
  | .compute => "compute"

def StageKind.title : StageKind → String
  | .vertex => "Vertex"
  | .fragment => "Fragment"
  | .compute => "Compute"

structure Workgroup where
  x : UInt32
  y : UInt32
  z : UInt32
  deriving DecidableEq, Repr

def Workgroup.isEmpty (w : Workgroup) : Bool := w.x == 0 || w.y == 0 || w.z == 0

def Workgroup.unit : Workgroup := ⟨1, 1, 1⟩

end ShaderGraph
