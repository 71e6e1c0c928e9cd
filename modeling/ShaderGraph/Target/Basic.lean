import ShaderGraph.Emit
/-! What every target shares: the options it is given, the files it makes, and the ways it
can refuse a program. -/
namespace ShaderGraph

inductive GlslVersion
  | core330
  | core450
  | es300
  | es310
  deriving DecidableEq, Repr

namespace GlslVersion

def directive : GlslVersion → String
  | .core330 => "330 core"
  | .core450 => "450 core"
  | .es300 => "300 es"
  | .es310 => "310 es"

def isEs : GlslVersion → Bool
  | .es300 => true
  | .es310 => true
  | _ => false

def hasCompute : GlslVersion → Bool
  | .core450 => true
  | .es310 => true
  | _ => false

def hasVaryingLocations : GlslVersion → Bool
  | .es300 => false
  | _ => true

def parse (text : String) : Except String GlslVersion :=
  if text = "330" || text = "330 core" then .ok .core330
  else if text = "450" || text = "450 core" then .ok .core450
  else if text = "300es" || text = "300 es" then .ok .es300
  else if text = "310es" || text = "310 es" then .ok .es310
  else .error s!"unknown GLSL version '{text}' (expected 330, 450, 300es or 310es)"

theorem parseDirective (v : GlslVersion) : parse v.directive = .ok v := by
  cases v <;> simp [parse, directive]

end GlslVersion

inductive Precision
  | low
  | medium
  | high
  deriving DecidableEq, Repr

namespace Precision

def qualifier : Precision → String
  | .low => "lowp"
  | .medium => "mediump"
  | .high => "highp"

def parse (text : String) : Except String Precision :=
  if text = "low" || text = "lowp" then .ok .low
  else if text = "medium" || text = "mediump" then .ok .medium
  else if text = "high" || text = "highp" then .ok .high
  else .error s!"invalid precision '{text}', expected low, medium, or high"

end Precision

structure Options where
  version : GlslVersion := .core450
  precision : Precision := .high
  annotate : Bool := false
  deriving DecidableEq, Repr

def Options.text (o : Options) : String :=
  let annotate := if o.annotate then "true" else "false"
  s!"BackendOptions \x7b glsl_version: {o.version.directive}, precision: {o.precision.qualifier}, annotate: {annotate} \x7d"

structure OutputFile where
  name : String
  stage : Option StageKind
  source : String
  deriving DecidableEq, Repr

structure Output where
  files : List OutputFile := []
  diagnostics : List Diagnostic := []
  deriving DecidableEq, Repr

namespace Output

def file? (o : Output) (name : String) : Option OutputFile :=
  o.files.find? fun f => f.name == name

def stageFile? (o : Output) (stage : StageKind) : Option OutputFile :=
  o.files.find? fun f => f.stage == some stage

end Output

inductive Refusal
  | unsupported (what : String)
  | program (error : Error)
  | other (what : String)
  deriving DecidableEq, Repr

def Refusal.message : Refusal → String
  | .unsupported what => s!"unsupported: {what}"
  | .program error => error.message
  | .other what => what

inductive Stop
  | refused (why : Refusal)
  | aborted (cause : Abort)
  deriving DecidableEq, Repr

def Stop.ofFailure : Failure → Stop
  | .rejected error => .refused (.program error)
  | .aborted cause => .aborted cause

structure Report where
  diagnostics : List Diagnostic := []
  log : List Message := []
  deriving DecidableEq, Repr

abbrev Compile := EStateM Stop Report

namespace Compile

variable {α : Type}

def ofOutcome (x : Outcome α) : Compile α := fun r =>
  match x with
  | .ok a => .ok a r
  | .error e => .error (.ofFailure e) r

instance : MonadLift Outcome Compile := ⟨ofOutcome⟩

def refuse (why : Refusal) : Compile α := fun r => .error (.refused why) r

def unsupported (what : String) : Compile α := refuse (.unsupported what)

def diagnose (d : Diagnostic) : Compile Unit :=
  modify fun r => { r with diagnostics := r.diagnostics ++ [d] }

def note (m : Message) : Compile Unit := modify fun r => { r with log := r.log ++ [m] }

def walk (x : Emit α) : Compile α := fun r =>
  match x {} with
  | .ok a w => .ok a { diagnostics := r.diagnostics ++ w.diagnostics, log := r.log ++ w.log }
  | .error e w => .error (.ofFailure e) { r with log := r.log ++ w.log }

end Compile

structure Backend where
  name : String
  targets : List String
  files : Program → Options → Compile (List OutputFile)

structure Compilation where
  result : Except Stop Output
  log : List Message
  deriving Repr

def Backend.compile (b : Backend) (f : Frozen) (o : Options) : Compilation :=
  match b.files f.program o {} with
  | .ok files r => ⟨.ok ⟨files, r.diagnostics⟩, r.log⟩
  | .error e r => ⟨.error e, r.log⟩

end ShaderGraph
