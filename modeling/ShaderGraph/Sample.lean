import ShaderGraph.Call
/-! Programs that come with the command line. -/
namespace ShaderGraph

structure Sample where
  name : String
  summary : String
  build : Build Unit

namespace Sample

open Build

def lit : Build Unit := do
  let vs ← addStage .vertex
  let fs ← addStage .fragment
  let uModel ← uniform "uModel" .mat4
  let uViewProj ← uniform "uViewProj" .mat4
  let uLightDir ← uniform "uLightDir" .float3
  let uColor ← uniform "uColor" .float4
  let tAlbedo ← uniform "tAlbedo" (.sampler ⟨.d2, .color⟩)
  let aPosition ← stageInput .vertex "aPosition" .float4
  let aNormal ← stageInput .vertex "aNormal" .float3
  let aUv ← stageInput .vertex "aUv" .float2
  let vNormal ← stageOutput .vertex "vNormal" .float3
  let vUv ← stageOutput .vertex "vUv" .float2
  let position ← builtin .position
  let model ← read uModel
  let pos ← read aPosition
  let worldPos ← binary .multiply model pos
  let world ← declare vs "world" .float4 (some worldPos)
  let viewProj ← read uViewProj
  let world ← read world
  let clip ← binary .multiply viewProj world
  let target ← read position
  let _ ← assign vs target clip
  let normal ← read aNormal
  let zero ← literal (.float ⟨0⟩)
  let normal4 ← compose .float4 [normal, zero]
  let worldNormal ← binary .multiply model normal4
  let worldNormal ← swizzle worldNormal "xyz"
  let target ← read vNormal
  let _ ← assign vs target worldNormal
  let target ← read vUv
  let uv ← read aUv
  let _ ← assign vs target uv
  let fNormal ← stageInput .fragment "vNormal" .float3
  let fUv ← stageInput .fragment "vUv" .float2
  let fColor ← stageOutput .fragment "fColor" .float4
  let lambert ← block fs "lambert"
  let n ← read fNormal
  let n ← call .normalize [n]
  let light ← read uLightDir
  let inNormal ← input lambert.value (some "normal") .float3 (some n)
  let inLight ← input lambert.value (some "light") .float3 (some light)
  let diffuse ← output lambert.value (some "diffuse") .float1
  let p ← get
  let inside := (← p.blocks.fetch lambert.value).body
  let n := (← p.slots.fetch inNormal.value).node
  let l := (← p.slots.fetch inLight.value).node
  let nDotL ← call .dot [n, l]
  let floor ← literal (.float ⟨0⟩)
  let clamped ← call .max [nDotL, floor]
  let target ← read diffuse
  let _ ← assign inside target clamped
  let sampler ← read tAlbedo
  let uv ← read fUv
  let texel ← sample sampler uv
  let tint ← read uColor
  let tinted ← binary .multiply texel tint
  let color ← declare fs "color" .float4 (some tinted)
  let out ← read fColor
  let color ← read color
  let _ ← assign fs out color
  let outRgb ← swizzle out "xyz"
  let rgb ← swizzle color "xyz"
  let diffuse ← read diffuse
  let shaded ← binary .multiply rgb diffuse
  let _ ← assign fs outRgb shaded

def skinned : Build Unit := do
  let vs ← addStage .vertex
  let fs ← addStage .fragment
  let bonesTy ← Outcome.ofResult (Ty.arrayOf .mat4 4)
  let uBones ← uniform "uBones" bonesTy
  let uViewProj ← uniform "uViewProj" .mat4
  let aPosition ← stageInput .vertex "aPosition" .float4
  let aBone ← stageInput .vertex "aBone" .int1
  let vBone ← stageOutput .vertex "vBone" .int1
  let position ← builtin .position
  let bones ← read uBones
  let boneIndex ← read aBone
  let bone ← element bones boneIndex
  let skin ← declare vs "skin" .mat4 (some bone)
  let skin ← read skin
  let zero ← literal (.float ⟨0⟩)
  let splat ← compose .float4 [zero]
  let acc ← declare vs "acc" .float4 (some splat)
  let acc ← read acc
  let start ← literal (.int 0)
  let stop ← literal (.int 3)
  let columns ← loop vs start stop
  let i ← read columns.counter
  let one ← column skin i
  let sum ← binary .add acc one
  let _ ← assign columns.body acc sum
  let offset ← columnAt skin 3
  let pos ← read aPosition
  let moved ← binary .add pos offset
  let _ ← assign vs acc moved
  let transform ← block vs "transform"
  let viewProj ← read uViewProj
  let matrix ← input transform.value (some "matrix") .mat4 (some viewProj)
  let point ← input transform.value (some "point") .float4 (some acc)
  let result ← output transform.value (some "result") .float4
  let p ← get
  let inside := (← p.blocks.fetch transform.value).body
  let m := (← p.slots.fetch matrix.value).node
  let v := (← p.slots.fetch point.value).node
  let product ← binary .multiply m v
  let target ← read result
  let _ ← assign inside target product
  let noBone ← literal (.int 0)
  let unskinned ← binary .less boneIndex noBone
  let choice ← branch vs unskinned
  let target ← read position
  let _ ← assign choice.accept target pos
  let result ← read result
  let _ ← assign choice.reject target result
  let target ← read vBone
  let _ ← assign vs target boneIndex
  let _ ← stageInput .fragment "vBone" .int1
  let fColor ← stageOutput .fragment "fColor" .float4
  let one ← literal (.float ⟨0x3f800000⟩)
  let white ← compose .float4 [one]
  let target ← read fColor
  let _ ← assign fs target white

def gradient : Build Unit := do
  let cs ← addCompute ⟨8, 8, 1⟩
  let imageTy ← Outcome.ofResult (Storage.make .d2 .float4)
  let image ← uniform "image" (.storage imageTy)
  let gid ← builtin .globalInvocationId
  let gid ← read gid
  let xy ← swizzle gid "xy"
  let texel ← convert xy .int
  let coord ← convert xy .float
  let scale ← literal (.float ⟨0x3e000000⟩)
  let uv ← binary .multiply coord scale
  let uv ← call .fract [uv]
  let uv ← declare cs "uv" .float2 (some uv)
  let uv ← read uv
  let blue ← literal (.float ⟨0x3f000000⟩)
  let alpha ← literal (.float ⟨0x3f800000⟩)
  let color ← compose .float4 [uv, blue, alpha]
  let color ← declare cs "color" .float4 (some color)
  let image ← read image
  let color ← read color
  let _ ← store cs image texel color

def all : List Sample :=
  [⟨"lit", "textured mesh with a diffuse lighting block", lit⟩,
    ⟨"skinned", "bone matrices, column access, loops and a transform block", skinned⟩,
    ⟨"gradient", "compute stage writing a coordinate gradient", gradient⟩]

def find? (name : String) : Option Sample := all.find? fun s => s.name == name

def program (s : Sample) : Outcome Program :=
  match s.build { name := s.name } with
  | .ok _ p => .ok p
  | .error e _ => .error e

end Sample

end ShaderGraph
