import ShaderGraph.Glsl.Dialect
import ShaderGraph.Target.Basic
/-! GLSL shaders, one file per stage, for the desktop and for embedded systems. What a
version cannot express is refused where it is declared. -/
namespace ShaderGraph.Glsl

inductive Flavor
  | desktop
  | es
  deriving DecidableEq, Repr

def Flavor.fallback : Flavor → GlslVersion
  | .desktop => .core450
  | .es => .es300

def chooseVersion (flavor : Flavor) (asked : GlslVersion) : Compile GlslVersion := do
  if asked.isEs == (flavor == .es) then return asked
  else
    let version := flavor.fallback
    Compile.diagnose (.warning s!"GLSL version {asked.directive} does not match target, using {version.directive}")
    return version

def imageFormat? (texel : Ty) : Option String :=
  match texel.componentCount?, texel.scalarKind? with
  | some 1, some .float => some "r32f"
  | some 1, some .int => some "r32i"
  | some 1, some .uint => some "r32ui"
  | some 2, some .float => some "rg32f"
  | some 2, some .int => some "rg32i"
  | some 2, some .uint => some "rg32ui"
  | some 4, some .float => some "rgba32f"
  | some 4, some .int => some "rgba32i"
  | some 4, some .uint => some "rgba32ui"
  | _, _ => none

def access (usage : Usage) : String :=
  match usage.loads, usage.stores with
  | true, false => "readonly "
  | false, true => "writeonly "
  | _, _ => ""

def samplerLine (version : GlslVersion) (o : Options) (name : String) (s : Sampler) :
    Compile String := do
  let ty := samplerName s
  if version.isEs && (s.dim = .d1 || s.dim = .cubeArray) then
    Compile.unsupported s!"{ty} in GLSL ES ({name})"
  else if s = ⟨.cubeArray, .depth⟩ then
    Compile.unsupported s!"depth cube array sampling ({name})"
  else if version.isEs then return s!"uniform {o.precision.qualifier} {ty} {name};"
  else return s!"uniform {ty} {name};"

def imageLine (version : GlslVersion) (name : String) (s : Storage) (usage : Usage) :
    Compile String := do
  if version = .es300 then Compile.unsupported s!"storage textures in GLSL 300 es ({name})"
  else match imageFormat? s.texelTy with
    | none => Compile.unsupported s!"storage texel type {s.texelTy.name}"
    | some format =>
      let access := access usage
      if version.isEs && access.isEmpty && s.texelTy.componentCount? ≠ some 1 then
        Compile.unsupported s!"read-write {format} image in GLSL ES ({name})"
      else return s!"layout({format}) uniform {access}highp {imageName s} {name};"

def uniformLine (version : GlslVersion) (o : Options) (v : Variable) (usage : Usage) :
    Compile String :=
  match v.ty with
  | .sampler s => samplerLine version o v.name s
  | .storage s => imageLine version v.name s usage
  | .array elem size => return s!"uniform {valueName elem} {v.name}[{size}];"
  | ty => return s!"uniform {typeName ty} {v.name};"

def uniformLines (p : Program) (version : GlslVersion) (o : Options) :
    List VarId → Compile (List String)
  | [] => return []
  | v :: rest => do
    let var ← p.vars.fetch v
    let usage ← p.storageUsage v
    let line ← uniformLine version o var usage
    return line :: (← uniformLines p version o rest)

inductive Direction
  | input
  | output
  deriving DecidableEq, Repr

def Direction.qualifier : Direction → String
  | .input => "in"
  | .output => "out"

def isVarying : StageKind → Direction → Bool
  | .vertex, .output => true
  | .fragment, .input => true
  | _, _ => false

def interpolation (ty : Ty) : String :=
  match ty.scalarKind? with
  | some .int => "flat "
  | some .uint => "flat "
  | _ => ""

def location? : VariableKind → Option UInt32
  | .stageInput location => some location
  | .stageOutput location => some location
  | _ => none

def interfaceLine (version : GlslVersion) (stage : StageKind) (dir : Direction)
    (v : Variable) : Option String :=
  (location? v.kind).map fun location =>
    let varying := isVarying stage dir
    let layout := if !varying || version.hasVaryingLocations then
      s!"layout(location = {location}) " else ""
    let flat := if varying then interpolation v.ty else ""
    s!"{layout}{flat}{dir.qualifier} {typeName v.ty} {v.name};"

def interfaceLines (p : Program) (version : GlslVersion) (stage : StageKind)
    (dir : Direction) (vars : List VarId) : Outcome (List String) := do
  let nodes ← vars.mapM p.vars.fetch
  return (nodes.map (interfaceLine version stage dir)).reduceOption

def lines (texts : List String) : Listing := texts.map .line

def header (version : GlslVersion) (o : Options) : Listing :=
  let first := Item.line s!"#version {version.directive}"
  if version.isEs then
    [first, .line s!"precision {o.precision.qualifier} float;",
      .line s!"precision {o.precision.qualifier} int;"]
  else [first]

def workgroupLines (version : GlslVersion) : Option Workgroup → Compile Listing
  | none => return []
  | some w => do
    if version.hasCompute then
      return [.blank,
        .line s!"layout(local_size_x = {w.x}, local_size_y = {w.y}, local_size_z = {w.z}) in;"]
    else Compile.unsupported s!"compute shaders in GLSL {version.directive}"

def setApart (isEmpty : Bool) (texts : List String) : Listing :=
  if isEmpty then [] else .blank :: lines texts

def shader (p : Program) (version : GlslVersion) (o : Options) (stage : Stage) :
    Compile Listing := do
  let workgroup ← workgroupLines version stage.workgroup
  let uniforms ← uniformLines p version o p.uniforms
  let inputs ← interfaceLines p version stage.kind .input stage.inputs
  let outputs ← interfaceLines p version stage.kind .output stage.outputs
  let body ← Compile.walk (Emit.scope p dialect o.annotate stage.main)
  return header version o ++ workgroup ++ setApart p.uniforms.isEmpty uniforms
    ++ setApart (stage.inputs.isEmpty && stage.outputs.isEmpty) (inputs ++ outputs)
    ++ .blank :: .line "void main() \x7b" :: Listing.nested body ++ [.line "\x7d"]

def extension : StageKind → String
  | .vertex => "vert"
  | .fragment => "frag"
  | .compute => "comp"

def usesBuiltin (p : Program) (value : Builtin) (stage : Stage) : Outcome Bool :=
  stage.builtins.anyM fun v => do return (← p.vars.fetch v).kind == .builtin value

def stageFile (p : Program) (version : GlslVersion) (o : Options) (stage : Stage) :
    Compile OutputFile := do
  let positioned ← usesBuiltin p .position stage
  if stage.kind = .vertex && !positioned then
    Compile.diagnose (.stageWarning stage.kind "never writes the position built-in")
  let listing ← shader p version o stage
  Compile.note ⟨.debug, s!"generated {p.name} GLSL {stage.kind.name} shader"⟩
  return ⟨s!"{p.name}.{extension stage.kind}", some stage.kind, listing.text⟩

def files (flavor : Flavor) (p : Program) (o : Options) : Compile (List OutputFile) := do
  if p.stages.isEmpty then Compile.refuse (.other "program has no stages")
  else
    let version ← chooseVersion flavor o.version
    p.stages.mapM (stageFile p version o)

def backend (flavor : Flavor) : Backend :=
  match flavor with
  | .desktop => ⟨"GLSL", ["glsl"], files .desktop⟩
  | .es => ⟨"GLSL ES", ["glsl-es"], files .es⟩

end ShaderGraph.Glsl
