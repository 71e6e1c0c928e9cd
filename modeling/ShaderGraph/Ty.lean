import ShaderGraph.Failure
/-! The closed set of value and resource types. Types are plain data, so two types are
equal exactly when they are built alike. -/
namespace ShaderGraph

inductive ScalarKind
  | float
  | int
  | uint
  | bool
  deriving DecidableEq, Repr

namespace ScalarKind

def name : ScalarKind → String
  | .float => "float"
  | .int => "int"
  | .uint => "uint"
  | .bool => "bool"

def title : ScalarKind → String
  | .float => "Float"
  | .int => "Int"
  | .uint => "Uint"
  | .bool => "Bool"

def isNumeric : ScalarKind → Bool
  | .bool => false
  | _ => true

end ScalarKind

inductive VectorSize
  | two
  | three
  | four
  deriving DecidableEq, Repr

namespace VectorSize

def count : VectorSize → Nat
  | .two => 2
  | .three => 3
  | .four => 4

def ofCount? : Nat → Option VectorSize
  | 2 => some .two
  | 3 => some .three
  | 4 => some .four
  | _ => none

def text (n : VectorSize) : String := toString n.count

theorem ofCountOfSize (n : VectorSize) : ofCount? n.count = some n := by cases n <;> rfl

theorem countOfSome {n : Nat} {size : VectorSize} (h : ofCount? n = some size) :
    size.count = n := by
  unfold ofCount? at h
  split at h <;> first | (cases h; rfl) | cases h

end VectorSize

inductive ValueTy
  | scalar (kind : ScalarKind)
  | vector (size : VectorSize) (kind : ScalarKind)
  | matrix (size : VectorSize)
  deriving DecidableEq, Repr

inductive SamplerDim
  | d1
  | d2
  | d3
  | cube
  | d2Array
  | cubeArray
  deriving DecidableEq, Repr

def SamplerDim.title : SamplerDim → String
  | .d1 => "D1"
  | .d2 => "D2"
  | .d3 => "D3"
  | .cube => "Cube"
  | .d2Array => "D2Array"
  | .cubeArray => "CubeArray"

inductive SamplerKind
  | color
  | depth
  deriving DecidableEq, Repr

structure Sampler where
  dim : SamplerDim
  kind : SamplerKind
  deriving DecidableEq, Repr

inductive StorageDim
  | d1
  | d2
  | d3
  deriving DecidableEq, Repr

structure Storage where
  dim : StorageDim
  texel : ValueTy
  deriving DecidableEq, Repr

inductive Ty
  | void
  | scalar (kind : ScalarKind)
  | vector (size : VectorSize) (kind : ScalarKind)
  | matrix (size : VectorSize)
  | array (elem : ValueTy) (size : UInt32)
  | sampler (sampler : Sampler)
  | storage (storage : Storage)
  deriving DecidableEq, Repr

def ValueTy.ty : ValueTy → Ty
  | .scalar kind => .scalar kind
  | .vector size kind => .vector size kind
  | .matrix size => .matrix size

namespace Ty

abbrev float1 : Ty := .scalar .float
abbrev float2 : Ty := .vector .two .float
abbrev float3 : Ty := .vector .three .float
abbrev float4 : Ty := .vector .four .float
abbrev int1 : Ty := .scalar .int
abbrev int2 : Ty := .vector .two .int
abbrev int3 : Ty := .vector .three .int
abbrev int4 : Ty := .vector .four .int
abbrev uint1 : Ty := .scalar .uint
abbrev uint3 : Ty := .vector .three .uint
abbrev bool1 : Ty := .scalar .bool
abbrev mat2 : Ty := .matrix .two
abbrev mat3 : Ty := .matrix .three
abbrev mat4 : Ty := .matrix .four

def value? : Ty → Option ValueTy
  | .scalar kind => some (.scalar kind)
  | .vector size kind => some (.vector size kind)
  | .matrix size => some (.matrix size)
  | _ => none

theorem valueOfTy (v : ValueTy) : v.ty.value? = some v := by cases v <;> rfl

theorem tyOfValue {t : Ty} {v : ValueTy} (h : t.value? = some v) : v.ty = t := by
  cases t <;> simp only [value?, Option.some.injEq, reduceCtorEq] at h <;> (subst h; rfl)

def isScalar : Ty → Bool
  | .scalar _ => true
  | _ => false

def isVector : Ty → Bool
  | .vector .. => true
  | _ => false

def isMatrix : Ty → Bool
  | .matrix _ => true
  | _ => false

def isArray : Ty → Bool
  | .array .. => true
  | _ => false

def isResource : Ty → Bool
  | .sampler _ => true
  | .storage _ => true
  | _ => false

def scalarKind? : Ty → Option ScalarKind
  | .scalar kind => some kind
  | .vector _ kind => some kind
  | .matrix _ => some .float
  | _ => none

def isNumeric (t : Ty) : Bool := t.scalarKind?.any ScalarKind.isNumeric

def isFloat : Ty → Bool
  | .scalar .float => true
  | .vector _ .float => true
  | _ => false

def vectorSize? : Ty → Option VectorSize
  | .vector size _ => some size
  | _ => none

def component? : Ty → Option Ty
  | .vector _ kind => some (.scalar kind)
  | _ => none

def column? : Ty → Option Ty
  | .matrix size => some (.vector size .float)
  | _ => none

def element? : Ty → Option (Ty × UInt32)
  | .array elem size => some (elem.ty, size)
  | _ => none

def componentCount? : Ty → Option Nat
  | .scalar _ => some 1
  | .vector size _ => some size.count
  | .matrix size => some (size.count * size.count)
  | _ => none

def isStorable (t : Ty) : Bool := t.value?.isSome || t.isArray

end Ty

namespace Sampler

def name (s : Sampler) : String :=
  let dim := match s.dim with
    | .d1 => "1d"
    | .d2 => "2d"
    | .d3 => "3d"
    | .cube => "Cube"
    | .d2Array => "2dArray"
    | .cubeArray => "CubeArray"
  match s.kind with
  | .color => s!"sampler{dim}"
  | .depth => s!"depthSampler{dim}"

def coordTy (s : Sampler) : Ty :=
  match s.kind, s.dim with
  | .color, .d1 => .float1
  | .color, .d2 => .float2
  | .color, .d3 => .float3
  | .color, .cube => .float3
  | .color, .d2Array => .float3
  | .color, .cubeArray => .float4
  | .depth, .d2 => .float3
  | .depth, _ => .float4

def sampleTy (s : Sampler) : Ty :=
  match s.kind with
  | .color => .float4
  | .depth => .float1

def make (dim : SamplerDim) (kind : SamplerKind) : Except Error Sampler :=
  match kind, dim with
  | .depth, .d1 => .error (.unsupportedType s!"depth sampler with dimension {dim.title}")
  | .depth, .d3 => .error (.unsupportedType s!"depth sampler with dimension {dim.title}")
  | _, _ => .ok ⟨dim, kind⟩

end Sampler

def ValueTy.name : ValueTy → String
  | .scalar kind => s!"{kind.name}1"
  | .vector size kind => s!"{kind.name}{size.text}"
  | .matrix size => s!"mat{size.text}"

namespace Storage

def texelTy (s : Storage) : Ty := s.texel.ty

def coordTy (s : Storage) : Ty :=
  match s.dim with
  | .d1 => .int1
  | .d2 => .int2
  | .d3 => .int3

def name (s : Storage) : String :=
  let dim := match s.dim with
    | .d1 => "1d"
    | .d2 => "2d"
    | .d3 => "3d"
  s!"storage{dim}<{s.texel.name}>"

end Storage

namespace Ty

def name : Ty → String
  | .void => "void"
  | .scalar kind => s!"{kind.name}1"
  | .vector size kind => s!"{kind.name}{size.text}"
  | .matrix size => s!"mat{size.text}"
  | .array elem size => s!"{elem.name}[{size}]"
  | .sampler s => s.name
  | .storage s => s.name

def ofComponents? (kind : ScalarKind) (n : Nat) : Option Ty :=
  if n = 1 then some (.scalar kind) else (VectorSize.ofCount? n).map (.vector · kind)

def matrixOf : Ty → Except Error Ty
  | .vector size .float => .ok (.matrix size)
  | other => .error (.unsupportedType s!"matrix with column type {other.name}")

def arrayOf (elem : Ty) (size : UInt32) : Except Error Ty :=
  if size = 0 then .error (.unsupportedType s!"zero-length array of {elem.name}")
  else match elem.value? with
    | some v => .ok (.array v size)
    | none => .error (.unsupportedType s!"array of {elem.name}")

end Ty

def Storage.make (dim : StorageDim) (texel : Ty) : Except Error Storage :=
  match texel.value? with
  | some (.scalar kind) =>
    if kind.isNumeric then .ok ⟨dim, .scalar kind⟩ else refused
  | some (.vector size kind) =>
    if kind.isNumeric then .ok ⟨dim, .vector size kind⟩ else refused
  | _ => refused
where
  refused : Except Error Storage :=
    .error (.unsupportedType s!"storage texture with texel type {texel.name}")

/-! Types sort by form, then by their parts from left to right. -/

def ScalarKind.rank : ScalarKind → Nat
  | .float => 0
  | .int => 1
  | .uint => 2
  | .bool => 3

def ValueTy.rank : ValueTy → List Nat
  | .scalar kind => [0, kind.rank]
  | .vector size kind => [1, size.count, kind.rank]
  | .matrix size => [2, size.count]

def SamplerDim.rank : SamplerDim → Nat
  | .d1 => 0
  | .d2 => 1
  | .d3 => 2
  | .cube => 3
  | .d2Array => 4
  | .cubeArray => 5

def SamplerKind.rank : SamplerKind → Nat
  | .color => 0
  | .depth => 1

def StorageDim.rank : StorageDim → Nat
  | .d1 => 0
  | .d2 => 1
  | .d3 => 2

def Ty.rank : Ty → List Nat
  | .void => [0]
  | .scalar kind => [1, kind.rank]
  | .vector size kind => [2, size.count, kind.rank]
  | .matrix size => [3, size.count]
  | .array elem size => 4 :: (elem.rank ++ [size.toNat])
  | .sampler s => [5, s.dim.rank, s.kind.rank]
  | .storage s => 6 :: s.dim.rank :: s.texel.rank

def Ty.sorted (ts : List Ty) : List Ty :=
  ts.eraseDups.mergeSort fun a b => !b.rank.lex a.rank fun m n => m < n

end ShaderGraph
