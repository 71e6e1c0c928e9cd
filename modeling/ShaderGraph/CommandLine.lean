import ShaderGraph.Path
import ShaderGraph.Registry
import ShaderGraph.Sample
/-! The command line: it builds a bundled program and writes it for a target. Arguments are
read one by one; an option's value stands behind `=`, directly behind a short option, or in
the next argument, which then must not look like an option itself. -/
namespace ShaderGraph.CommandLine

inductive Setting
  | target
  | output
  | glslVersion
  | precision
  deriving DecidableEq, Repr

inductive Flag
  | annotate
  | emitIr
  | dryRun
  | list
  deriving DecidableEq, Repr

def Setting.name : Setting → String
  | .target => "--target"
  | .output => "--output"
  | .glslVersion => "--glsl-version"
  | .precision => "--precision"

def Flag.name : Flag → String
  | .annotate => "--annotate"
  | .emitIr => "--emit-ir"
  | .dryRun => "--dry-run"
  | .list => "--list"

def Setting.all : List Setting := [.target, .output, .glslVersion, .precision]

def Flag.all : List Flag := [.annotate, .emitIr, .dryRun, .list]

def Setting.ofLetter? : Char → Option Setting
  | 't' => some .target
  | 'o' => some .output
  | _ => none

inductive UsageError
  | unknown (arg : String)
  | missingValue (option : String)
  | unexpectedValue (option : String)
  | invalidValue (option why : String)
  | repeated (option : String)
  | extraSample (arg : String)
  | missingSample
  deriving DecidableEq, Repr

def UsageError.message : UsageError → String
  | .unknown arg => s!"unexpected argument '{arg}' found"
  | .missingValue option => s!"a value is required for '{option}' but none was supplied"
  | .unexpectedValue option => s!"unexpected value for '{option}' found; no more were expected"
  | .invalidValue option why => s!"invalid value for '{option}': {why}"
  | .repeated option => s!"the argument '{option}' cannot be used multiple times"
  | .extraSample arg => s!"unexpected argument '{arg}' found"
  | .missingSample => "a sample is required unless '--list' is given"

structure Reading where
  sample : Option String := none
  settings : List (Setting × String) := []
  flags : List Flag := []
  pending : Option Setting := none
  onlySamples : Bool := false
  deriving DecidableEq, Repr

namespace Reading

def addSample (r : Reading) (arg : String) : Except UsageError Reading :=
  match r.sample with
  | none => .ok { r with sample := some arg }
  | some _ => .error (.extraSample arg)

def addSetting (r : Reading) (s : Setting) (value : String) : Except UsageError Reading :=
  if r.settings.any fun pair => pair.1 == s then .error (.repeated s.name)
  else .ok { r with settings := r.settings ++ [(s, value)], pending := none }

def addFlag (r : Reading) (f : Flag) : Except UsageError Reading :=
  if f ∈ r.flags then .error (.repeated f.name) else .ok { r with flags := r.flags ++ [f] }

def long (r : Reading) (name : String) (value : Option String) : Except UsageError Reading :=
  match Setting.all.find? fun s => s.name == name with
  | some s => match value with
    | some text => r.addSetting s text
    | none => .ok { r with pending := some s }
  | none => match Flag.all.find? fun f => f.name == name with
    | some f => if value.isSome then .error (.unexpectedValue name) else r.addFlag f
    | none => .error (.unknown name)

def short (r : Reading) (letter : Char) (behind : List Char) : Except UsageError Reading :=
  match Setting.ofLetter? letter with
  | none => .error (.unknown (String.ofList ['-', letter]))
  | some s => match behind with
    | [] => .ok { r with pending := some s }
    | '=' :: text => r.addSetting s (String.ofList text)
    | text => r.addSetting s (String.ofList text)

def awaitsNothing (r : Reading) : Except UsageError Unit :=
  match r.pending with
  | some s => .error (.missingValue s.name)
  | none => .ok ()

def plain (r : Reading) (arg : String) : Except UsageError Reading :=
  match r.pending with
  | some s => r.addSetting s arg
  | none => r.addSample arg

def next (r : Reading) (arg : String) : Except UsageError Reading :=
  if r.onlySamples then r.addSample arg
  else match arg.toList with
    | ['-', '-'] => do
      r.awaitsNothing
      return { r with onlySamples := true }
    | '-' :: '-' :: rest => do
      r.awaitsNothing
      let name := rest.takeWhile (· != '=')
      let value := match rest.dropWhile (· != '=') with
        | [] => none
        | _ :: text => some (String.ofList text)
      r.long (String.ofList ('-' :: '-' :: name)) value
    | '-' :: letter :: behind => do
      r.awaitsNothing
      r.short letter behind
    | _ => r.plain arg

end Reading

structure Request where
  sample : Option String := none
  target : String := "ksl"
  directory : Option String := none
  options : Options := {}
  emitIr : Bool := false
  dryRun : Bool := false
  list : Bool := false
  deriving DecidableEq, Repr

namespace Request

def ofParse {α : Type} (s : Setting) : Except String α → Except UsageError α
  | .ok a => .ok a
  | .error why => .error (.invalidValue s.name why)

def set (q : Request) : Setting × String → Except UsageError Request
  | (.target, text) => .ok { q with target := text }
  | (.output, text) =>
    if text.isEmpty then .error (.missingValue Setting.output.name)
    else .ok { q with directory := some text }
  | (.glslVersion, text) => do
    let version ← ofParse .glslVersion (GlslVersion.parse text)
    return { q with options := { q.options with version } }
  | (.precision, text) => do
    let precision ← ofParse .precision (Precision.parse text)
    return { q with options := { q.options with precision } }

def read (args : List String) : Except UsageError Request := do
  let r ← args.foldlM Reading.next {}
  r.awaitsNothing
  let q ← r.settings.foldlM set {}
  let has (f : Flag) : Bool := r.flags.contains f
  if r.sample.isNone && !has .list then throw .missingSample
  return { q with
    sample := r.sample
    options := { q.options with annotate := has .annotate }
    emitIr := has .emitIr
    dryRun := has .dryRun
    list := has .list }

end Request

structure Response where
  exit : Nat := 0
  stdout : String := ""
  stderr : String := ""
  directory : Option String := none
  files : List OutputFile := []
  deriving DecidableEq, Repr

def padded (width : Nat) (text : String) : String :=
  text ++ String.ofList (List.replicate (width - text.length) ' ')

def listText : String :=
  let samples := Sample.all.map fun s => "  " ++ padded 10 s.name ++ " " ++ s.summary ++ "\n"
  "samples:\n" ++ String.join samples ++ "targets: " ++ joined Registry.full.value.targets ++ "\n"

def failed (stderr why : String) : Response :=
  { exit := 1, stderr := stderr ++ "Error: " ++ why ++ "\n" }

def Abort.message : Abort → String
  | .dangling index size => s!"no node at {index} (arena size: {size})"
  | .full size => s!"program arena is full ({size} nodes)"
  | .endless => "endless walk"

def failureText : Failure → String
  | .rejected error => error.message
  | .aborted cause => Abort.message cause

def stopText : Stop → String
  | .refused why => why.message
  | .aborted cause => Abort.message cause

def filesText (files : List OutputFile) : String :=
  if 1 < files.length then String.join (files.map fun f => s!"// {f.name}\n{f.source}")
  else String.join (files.map OutputFile.source)

def deliver (directory : Option String) (stderr : String) (files : List OutputFile) : Response :=
  match directory with
  | none => { stderr, stdout := filesText files }
  | some dir => { stderr, directory := some dir, files }

def generate (q : Request) (stderr : String) (f : Frozen) : Response :=
  let registry := Registry.full.value
  match registry.find? q.target with
  | none =>
    let known := joined registry.targets
    failed stderr s!"unknown target '{q.target}' (available: {known})"
  | some backend => match (backend.compile f q.options).result with
    | .error stop => failed stderr ("code generation failed: " ++ stopText stop)
    | .ok output =>
      let remarks := String.join (output.diagnostics.map fun d => d.text ++ "\n")
      deliver q.directory (stderr ++ remarks) output.files

def buildSample (name : String) (s : Sample) : Except String Frozen :=
  match s.program with
  | .error e => .error (s!"failed to build sample '{name}': " ++ failureText e)
  | .ok p => match p.freeze with
    | .error e => .error ("validation failed: " ++ failureText e)
    | .ok frozen => .ok frozen.value

def serve (q : Request) : Response :=
  if q.list then { stdout := listText }
  else
    let name := q.sample.getD ""
    match Sample.find? name with
    | none =>
      let known := joined (Sample.all.map Sample.name)
      failed "" s!"unknown sample '{name}' (available: {known})"
    | some s => match buildSample name s with
      | .error why => failed "" why
      | .ok f => match f.program.dump with
        | .error e => failed "" (failureText e)
        | .ok dump =>
          let stderr := if q.emitIr then dump ++ "\n" else ""
          if q.dryRun then { stderr } else generate q stderr f

def run (args : List String) : Response :=
  match Request.read args with
  | .error e => { exit := 2, stderr := "error: " ++ e.message ++ "\n" }
  | .ok q => serve q

/-- What comes of a response where a file system makes and takes only these paths. The files
before the first that it does not take are written. -/
def Response.onDisk (makes takes : String → Bool) (r : Response) : Response :=
  match r.directory with
  | none => r
  | some dir =>
    let path (f : OutputFile) := Path.join dir f.name
    if makes dir then match r.files.find? fun f => !takes (path f) with
      | none => r
      | some f =>
        let written := r.files.takeWhile fun f => takes (path f)
        { failed r.stderr s!"failed to write {path f}" with directory := some dir, files := written }
    else failed r.stderr s!"failed to create {dir}"

end ShaderGraph.CommandLine
