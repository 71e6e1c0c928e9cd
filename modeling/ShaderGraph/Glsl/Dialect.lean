import ShaderGraph.Emit
import ShaderGraph.Target.Texel
/-! How GLSL writes types, expressions and statements. -/
namespace ShaderGraph.Glsl

def vectorLetter : ScalarKind → String
  | .float => ""
  | .int => "i"
  | .uint => "u"
  | .bool => "b"

def valueName : ValueTy → String
  | .scalar kind => kind.name
  | .vector size kind => s!"{vectorLetter kind}vec{size.text}"
  | .matrix size => s!"mat{size.text}"

def samplerName (s : Sampler) : String :=
  match s.kind, s.dim with
  | .color, .d1 => "sampler1D"
  | .color, .d2 => "sampler2D"
  | .color, .d3 => "sampler3D"
  | .color, .cube => "samplerCube"
  | .color, .d2Array => "sampler2DArray"
  | .color, .cubeArray => "samplerCubeArray"
  | .depth, .cube => "samplerCubeShadow"
  | .depth, .d2Array => "sampler2DArrayShadow"
  | .depth, .cubeArray => "samplerCubeArrayShadow"
  | .depth, _ => "sampler2DShadow"

def imageName (s : Storage) : String :=
  let letter := (s.texelTy.scalarKind?.map vectorLetter).getD ""
  match s.dim with
  | .d1 => letter ++ "image1D"
  | .d2 => letter ++ "image2D"
  | .d3 => letter ++ "image3D"

def typeName : Ty → String
  | .void => "void"
  | .scalar kind => kind.name
  | .vector size kind => s!"{vectorLetter kind}vec{size.text}"
  | .matrix size => s!"mat{size.text}"
  | .array elem size => s!"{valueName elem}[{size}]"
  | .sampler s => samplerName s
  | .storage s => imageName s

def builtinName : Builtin → String
  | .position => "gl_Position"
  | .vertexIndex => "gl_VertexID"
  | .instanceIndex => "gl_InstanceID"
  | .fragCoord => "gl_FragCoord"
  | .fragDepth => "gl_FragDepth"
  | .globalInvocationId => "gl_GlobalInvocationID"
  | .localInvocationId => "gl_LocalInvocationID"

def readText (v : Variable) : String :=
  match v.kind with
  | .builtin b => builtinName b
  | _ => v.name

/-- A float remainder is a function, which has no overload of a scalar by a vector. -/
def binaryText (op : BinaryOp) (leftTy rightTy : Ty) (left right : String) : String :=
  if op = .modulo && leftTy.isFloat then
    if !leftTy.isVector && rightTy.isVector then
      s!"mod({typeName rightTy}({left}), {right})"
    else s!"mod({left}, {right})"
  else s!"({left} {op.symbol} {right})"

def callName : Intrinsic → String
  | .inverseSqrt => "inversesqrt"
  | .smoothStep => "smoothstep"
  | f => f.name

def spelling : Spelling where
  typeName := typeName
  read := readText
  binary := binaryText
  call f args := callName f ++ "(" ++ joined args ++ ")"
  sample sampler _ coord := s!"texture({sampler}, {coord})"
  load storage ty coord := s!"imageLoad({storage}, {coord})" ++ ty.pick
  store storage ty coord value :=
    let texel := ty.padded (vectorLetter ty.kind ++ "vec4") value
    s!"imageStore({storage}, {coord}, {texel})"

def dialect : Dialect where
  spelling := spelling
  declare v init :=
    match init with
    | some text => s!"{typeName v.ty} {v.name} = {text};"
    | none => s!"{typeName v.ty} {v.name};"
  loopHeader i start stop :=
    s!"for (int {i.name} = {start}; {i.name} < {stop}; {i.name}++) \x7b"

end ShaderGraph.Glsl
