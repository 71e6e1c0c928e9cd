import ShaderGraph.Stage
/-! Why a call gives no result. An `Error` is an authoring mistake and is reported;
an `Abort` is a broken assumption of the library itself and ends the call at once. -/
namespace ShaderGraph

inductive Error
  | badHandle (index size : Nat)
  | typeMismatch (expected found : String)
  | unsupportedType (what : String)
  | unboundInput (input block : String)
  | cyclicInput (input block : String)
  | notAssignable (target : String)
  | invalidSwizzle (what : String)
  | duplicateStage (stage : StageKind)
  | missingStage (stage : StageKind)
  | wrongStage (name : String) (owner usedIn : StageKind)
  | outOfScope (name scope : String)
  | invalidWorkgroup (size : Workgroup)
  deriving DecidableEq, Repr

def Error.message : Error → String
  | .badHandle index size => s!"handle index {index} out of bounds (arena size: {size})"
  | .typeMismatch expected found => s!"type mismatch: expected {expected}, found {found}"
  | .unsupportedType what => s!"unsupported type combination: {what}"
  | .unboundInput input block => s!"missing input value for input {input} of block {block}"
  | .cyclicInput input block => s!"input {input} of block {block} depends on itself"
  | .notAssignable target => s!"not assignable: {target}"
  | .invalidSwizzle what => s!"invalid swizzle: {what}"
  | .duplicateStage stage => s!"{stage.name} stage already exists"
  | .missingStage stage => s!"{stage.name} stage does not exist"
  | .wrongStage name owner usedIn =>
    s!"{name} belongs to the {owner.name} stage but is used in the {usedIn.name} stage"
  | .outOfScope name scope => s!"{name} is not declared in scope {scope}"
  | .invalidWorkgroup size => s!"invalid workgroup size: [{size.x}, {size.y}, {size.z}]"

/-- `dangling`: a place was read that holds no node. `full`: an arena has no handle
left to give. `endless`: a walk went deeper than the program it walks. -/
inductive Abort
  | dangling (index size : Nat)
  | full (size : Nat)
  | endless
  deriving DecidableEq, Repr

inductive Failure
  | rejected (error : Error)
  | aborted (cause : Abort)
  deriving DecidableEq, Repr

abbrev Outcome (α : Type) := Except Failure α

def reject {α : Type} (e : Error) : Outcome α := .error (.rejected e)

def abort {α : Type} (a : Abort) : Outcome α := .error (.aborted a)

end ShaderGraph
