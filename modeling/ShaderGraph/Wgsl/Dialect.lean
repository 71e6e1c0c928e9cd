import ShaderGraph.Emit
import ShaderGraph.Target.Texel
/-! How WGSL writes types, expressions and statements for one entry point. Sampling differs
between fragment and other stages. WGSL assigns single components only, so an assignment to
several components is written out one component a line. -/
namespace ShaderGraph.Wgsl

def scalarName : ScalarKind → String
  | .float => "f32"
  | .int => "i32"
  | .uint => "u32"
  | .bool => "bool"

def valueName : ValueTy → String
  | .scalar kind => scalarName kind
  | .vector size kind => s!"vec{size.text}<{scalarName kind}>"
  | .matrix size => s!"mat{size.text}x{size.text}<f32>"

def textureName (s : Sampler) : String :=
  match s.kind, s.dim with
  | .color, .d1 => "texture_1d<f32>"
  | .color, .d2 => "texture_2d<f32>"
  | .color, .d3 => "texture_3d<f32>"
  | .color, .cube => "texture_cube<f32>"
  | .color, .d2Array => "texture_2d_array<f32>"
  | .color, .cubeArray => "texture_cube_array<f32>"
  | .depth, .cube => "texture_depth_cube"
  | .depth, .d2Array => "texture_depth_2d_array"
  | .depth, .cubeArray => "texture_depth_cube_array"
  | .depth, _ => "texture_depth_2d"

def texelFormat? (texel : Ty) : Option String :=
  match texel.componentCount?, texel.scalarKind? with
  | some 1, some .float => some "r32float"
  | some 1, some .int => some "r32sint"
  | some 1, some .uint => some "r32uint"
  | some 2, some .float => some "rg32float"
  | some 2, some .int => some "rg32sint"
  | some 2, some .uint => some "rg32uint"
  | some 4, some .float => some "rgba32float"
  | some 4, some .int => some "rgba32sint"
  | some 4, some .uint => some "rgba32uint"
  | _, _ => none

def storageName (s : Storage) (access : String) : String :=
  let dim := match s.dim with
    | .d1 => "1d"
    | .d2 => "2d"
    | .d3 => "3d"
  let format := (texelFormat? s.texelTy).getD "rgba32float"
  s!"texture_storage_{dim}<{format}, {access}>"

def typeName : Ty → String
  | .void => ""
  | .scalar kind => scalarName kind
  | .vector size kind => s!"vec{size.text}<{scalarName kind}>"
  | .matrix size => s!"mat{size.text}x{size.text}<f32>"
  | .array elem size => s!"array<{valueName elem}, {size}>"
  | .sampler s => textureName s
  | .storage s => storageName s "write"

/-- The name of a variable in the module. Stages may name interface variables alike, so
each carries its stage's name before its own. -/
def moduleName (v : Variable) : String :=
  match v.kind, v.stage with
  | .lexical, _ => v.name
  | .uniform, _ => v.name
  | _, none => v.name
  | _, some stage => s!"{stage.name}_{v.name}"

def callName : Intrinsic → String
  | .smoothStep => "smoothstep"
  | f => f.name

def coordArgs (s : Sampler) (coord : String) : String :=
  match s.kind, s.dim with
  | .color, .d2Array => s!"({coord}).xy, i32(({coord}).z)"
  | .color, .cubeArray => s!"({coord}).xyz, i32(({coord}).w)"
  | .color, _ => coord
  | .depth, .cube => s!"({coord}).xyz, ({coord}).w"
  | .depth, .cubeArray => s!"({coord}).xyz, ({coord}).w"
  | .depth, .d2Array => s!"({coord}).xy, i32(({coord}).z), ({coord}).w"
  | .depth, _ => s!"({coord}).xy, ({coord}).z"

def sampleText (stage : StageKind) (texture : String) (s : Sampler) (coord : String) :
    String :=
  let args := s!"{texture}, {texture}_sampler, " ++ coordArgs s coord
  match s.kind, stage with
  | .color, .fragment => s!"textureSample({args})"
  | .color, _ => s!"textureSampleLevel({args}, 0.0)"
  | .depth, .fragment => s!"textureSampleCompare({args})"
  | .depth, _ => s!"textureSampleCompareLevel({args})"

def spelling (stage : StageKind) : Spelling where
  typeName := typeName
  read := moduleName
  call f args := callName f ++ "(" ++ joined args ++ ")"
  sample := sampleText stage
  load storage ty coord := s!"textureLoad({storage}, {coord})" ++ ty.pick
  store storage ty coord value :=
    let texel := ty.padded s!"vec4<{scalarName ty.kind}>" value
    s!"textureStore({storage}, {coord}, {texel})"

/-- One line of an assignment: the value is held in a temporary, one of its components goes
into one component of a vector, or the value goes into the whole target. -/
inductive Write
  | hold
  | part (vector : ExprId) (component source : Component)
  | whole (target : ExprId)
  deriving DecidableEq, Repr

def writes (target : ExprId) (op : Operation) : List Write :=
  match op with
  | .swizzle vector pattern =>
    if 1 < pattern.length then
      .hold :: (pattern.zip Component.all).map fun (component, source) =>
        .part vector component source
    else [.whole target]
  | _ => [.whole target]

def Write.text (p : Program) (sp : Spelling) (value : String) : Write → Outcome String
  | .hold => .ok s!"let swizzled = {value};"
  | .part vector component source => do
    let base ← p.renderTarget sp vector
    return s!"{base}.{component.letter} = swizzled.{source.letter};"
  | .whole target => do
    let t ← p.renderTarget sp target
    return s!"{t} = {value};"

def assign (sp : Spelling) (p : Program) (target value : ExprId) : Outcome Listing := do
  let text ← p.render sp value
  let node ← p.exprs.fetch target
  let parts := writes target node.op
  let lines := (← parts.mapM (Write.text p sp text)).map Item.line
  if parts.length = 1 then return lines
  else return .line "\x7b" :: Listing.nested lines ++ [.line "\x7d"]

def dialect (stage : StageKind) : Dialect where
  spelling := spelling stage
  declare v init :=
    match init with
    | some text => s!"var {v.name}: {typeName v.ty} = {text};"
    | none => s!"var {v.name}: {typeName v.ty};"
  loopHeader i start stop :=
    s!"for (var {i.name}: i32 = {start}; {i.name} < {stop}; {i.name}++) \x7b"
  assign := assign (spelling stage)

end ShaderGraph.Wgsl
