import ShaderGraph.Wgsl.Dialect
import ShaderGraph.Target.Basic
/-! WGSL modules. Uniforms become numbered bindings of one group, a sampler taking two. The
interface variables of a stage are module variables; its entry point copies its input
structure into them first and its output structure out of them last. -/
namespace ShaderGraph.Wgsl

structure Binding where
  number : UInt32
  space : String
  name : String
  ty : String
  deriving DecidableEq, Repr

def Binding.line (b : Binding) : String :=
  s!"@group(0) @binding({b.number}) var{b.space} {b.name}: {b.ty};"

def samplerBindings (number : UInt32) (name : String) (s : Sampler) :
    Compile (List Binding) := do
  if s = ⟨.cubeArray, .depth⟩ then
    Compile.unsupported s!"depth cube array sampling ({name})"
  else
    let kind := match s.kind with
      | .color => "sampler"
      | .depth => "sampler_comparison"
    return [⟨number, "", name, textureName s⟩, ⟨number + 1, "", s!"{name}_sampler", kind⟩]

def access (usage : Usage) : String :=
  match usage.loads, usage.stores with
  | true, true => "read_write"
  | true, false => "read"
  | _, _ => "write"

def storageBinding (number : UInt32) (name : String) (s : Storage) (usage : Usage) :
    Compile (List Binding) := do
  if (texelFormat? s.texelTy).isNone then
    Compile.unsupported s!"storage texel type {s.texelTy.name} ({name})"
  else if usage.loads && usage.stores && s.texelTy.componentCount? ≠ some 1 then
    Compile.unsupported s!"read_write storage texture of {s.texelTy.name} ({name})"
  else return [⟨number, "", name, storageName s (access usage)⟩]

/-- Uniform memory holds no booleans, and array elements take up whole rows of it. -/
def valueBinding (number : UInt32) (name : String) (ty : Ty) : Compile (List Binding) := do
  let elem := ty.element?.map Prod.fst
  if ty.scalarKind? = some .bool || elem.bind Ty.scalarKind? = some .bool then
    Compile.unsupported s!"bool uniform {name}"
  else match elem with
    | some elem =>
      if elem.isMatrix || elem.componentCount?.any (3 ≤ ·) then
        return [⟨number, "<uniform>", name, typeName ty⟩]
      else Compile.unsupported s!"uniform array {name} of {elem.name}"
    | none => return [⟨number, "<uniform>", name, typeName ty⟩]

def uniformBindings (p : Program) (number : UInt32) (v : VarId) : Compile (List Binding) := do
  let var ← p.vars.fetch v
  match var.ty with
  | .sampler s => samplerBindings number var.name s
  | .storage s => storageBinding number var.name s (← p.storageUsage v)
  | ty => valueBinding number var.name ty

def bindUniforms (p : Program) : UInt32 → List VarId → Compile (List Binding)
  | _, [] => return []
  | number, v :: rest => do
    let own ← uniformBindings p number v
    return own ++ (← bindUniforms p (number + .ofNat own.length) rest)

/-- A member of an entry point's input or output structure. `mark` says where its value comes
from or goes to; `wire` is its type there, if it differs from the variable's. -/
structure Member where
  var : Variable
  mark : String
  wire : Option String
  deriving DecidableEq, Repr

def Member.line (m : Member) : String :=
  let ty := m.wire.getD (typeName m.var.ty)
  s!"{m.mark} {m.var.name}: {ty},"

def builtinAttribute : Builtin → String × Option String
  | .position => ("position", none)
  | .fragCoord => ("position", none)
  | .vertexIndex => ("vertex_index", some "u32")
  | .instanceIndex => ("instance_index", some "u32")
  | .fragDepth => ("frag_depth", none)
  | .globalInvocationId => ("global_invocation_id", none)
  | .localInvocationId => ("local_invocation_id", none)

def isFlat (stage : StageKind) (output : Bool) (ty : Ty) : Bool :=
  let varying := match stage, output with
    | .vertex, true => true
    | .fragment, false => true
    | _, _ => false
  varying && (ty.scalarKind? == some .int || ty.scalarKind? == some .uint)

def locatedMember (stage : StageKind) (output : Bool) (v : Variable) : Option Member :=
  let located (location : UInt32) : Member :=
    let place := s!"@location({location})"
    ⟨v, if isFlat stage output v.ty then place ++ " @interpolate(flat)" else place, none⟩
  match v.kind with
  | .stageInput location => some (located location)
  | .stageOutput location => some (located location)
  | _ => none

def builtinMember (output : Bool) (v : Variable) : Option Member :=
  match v.kind with
  | .builtin b =>
    if b.isOutput = output then
      let (name, wire) := builtinAttribute b
      some ⟨v, s!"@builtin({name})", wire⟩
    else none
  | _ => none

def members (p : Program) (stage : Stage) (output : Bool) : Compile (List Member) := do
  let located := if output then stage.outputs else stage.inputs
  if stage.kind = .compute && !located.isEmpty then
    Compile.unsupported "location-bound variables in a compute stage"
  else
    let vars ← (located.mapM p.vars.fetch : Outcome _)
    let values ← (stage.builtins.mapM p.vars.fetch : Outcome _)
    return (vars.map (locatedMember stage.kind output)).reduceOption
      ++ (values.map (builtinMember output)).reduceOption

/-- A stage as an entry point. A vertex stage that has no position gets one left at zero. -/
structure EntryPoint where
  stage : StageKind
  workgroup : Option Workgroup
  inputs : List Member
  outputs : List Member
  positionless : Bool
  body : Listing
  deriving DecidableEq, Repr

namespace EntryPoint

variable (e : EntryPoint)

def inputName : String := s!"{e.stage.title}Input"

def outputName : String := s!"{e.stage.title}Output"

def hasOutput : Bool := !e.outputs.isEmpty || e.positionless

def structLines (name : String) (lines : List String) : Listing :=
  .line s!"struct {name} \x7b" :: Listing.nested (lines.map .line) ++ [.line "\x7d", .blank]

def inputStruct : Listing :=
  if e.inputs.isEmpty then [] else structLines e.inputName (e.inputs.map Member.line)

def outputStruct : Listing :=
  if e.hasOutput then
    let extra := if e.positionless then ["@builtin(position) position: vec4<f32>,"] else []
    structLines e.outputName (extra ++ e.outputs.map Member.line)
  else []

def moduleVar (m : Member) : String :=
  s!"var<private> {moduleName m.var}: {typeName m.var.ty};"

def moduleVars : Listing :=
  let members := e.inputs ++ e.outputs
  if members.isEmpty then [] else members.map (.line ∘ moduleVar) ++ [.blank]

def mark : String :=
  match e.workgroup with
  | some w => s!"@compute @workgroup_size({w.x}, {w.y}, {w.z})"
  | none => s!"@{e.stage.name}"

def header : String :=
  let params := if e.inputs.isEmpty then "" else "input: " ++ e.inputName
  let result := if e.hasOutput then " -> " ++ e.outputName else ""
  s!"fn {e.stage.name}Main({params}){result} \x7b"

def copyIn (m : Member) : String :=
  let field := s!"input.{m.var.name}"
  let value := if m.wire.isSome then (spelling .fragment).convert m.var.ty field else field
  s!"{moduleName m.var} = {value};"

def copyOut (m : Member) : String := s!"output.{m.var.name} = {moduleName m.var};"

def epilogue : Listing :=
  if e.hasOutput then
    let zero := if e.positionless then [Item.line "output.position = vec4<f32>(0.0);"] else []
    .line s!"var output: {e.outputName};" :: zero ++ e.outputs.map (.line ∘ copyOut)
      ++ [.line "return output;"]
  else []

def listing : Listing :=
  e.inputStruct ++ e.outputStruct ++ e.moduleVars ++ [.line e.mark, .line e.header]
    ++ Listing.nested (e.inputs.map (.line ∘ copyIn) ++ e.body ++ e.epilogue)
    ++ [.line "\x7d", .blank]

end EntryPoint

def usesBuiltin (p : Program) (value : Builtin) (stage : Stage) : Outcome Bool :=
  stage.builtins.anyM fun v => do return (← p.vars.fetch v).kind == .builtin value

def storesIn (p : Program) (kind : StageKind) : Outcome Bool :=
  p.stmts.nodes.toList.anyM fun s =>
    match s.kind with
    | .act (.store ..) => do return (← p.scopes.fetch s.scope).stage == kind
    | _ => .ok false

def entryPoint (p : Program) (o : Options) (stage : Stage) : Compile EntryPoint := do
  let positioned ← usesBuiltin p .position stage
  let stores ← storesIn p stage.kind
  let positionless := stage.kind = .vertex && !positioned
  if positionless then
    Compile.diagnose (.stageWarning stage.kind
      "never writes the position built-in; it is left at zero")
  if stage.kind = .vertex && stores then
    Compile.unsupported "storage texture writes in a vertex stage"
  else
    let inputs ← members p stage false
    let outputs ← members p stage true
    let body ← Compile.walk (Emit.scope p (dialect stage.kind) o.annotate stage.main)
    Compile.note ⟨.debug, s!"generated {p.name} WGSL {stage.kind.name} entry point"⟩
    return ⟨stage.kind, stage.workgroup, inputs, outputs, positionless, body⟩

structure Module where
  bindings : List Binding
  entryPoints : List EntryPoint
  deriving DecidableEq, Repr

def Module.listing (m : Module) : Listing :=
  let bound := if m.bindings.isEmpty then [] else
    m.bindings.map (.line ∘ Binding.line) ++ [.blank]
  bound ++ (m.entryPoints.map EntryPoint.listing).flatten

def Module.ofProgram (p : Program) (o : Options) : Compile Module := do
  if p.stages.isEmpty then Compile.refuse (.other "program has no stages")
  else
    let bound ← bindUniforms p 0 p.uniforms
    let entries ← p.stages.mapM (entryPoint p o)
    return ⟨bound, entries⟩

def files (p : Program) (o : Options) : Compile (List OutputFile) := do
  let m ← Module.ofProgram p o
  return [⟨s!"{p.name}.wgsl", none, m.listing.text⟩]

def backend : Backend := ⟨"WGSL", ["wgsl"], files⟩

end ShaderGraph.Wgsl
