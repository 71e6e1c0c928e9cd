import ShaderGraph.Program
/-! How a target language writes expressions. A spelling gets its operands as text, so it
knows nothing of the graph; what it leaves out is written in the common C-like form. -/
namespace ShaderGraph

structure IndexText where
  text : String
  constant : Option Int
  deriving DecidableEq, Repr

def joined (parts : List String) : String := ", ".intercalate parts

structure Spelling where
  typeName : Ty → String
  sample : String → Sampler → String → String
  literal : Literal → String := Literal.text
  read : Variable → String := Variable.name
  compose : Ty → List String → String := fun ty parts =>
    typeName ty ++ "(" ++ joined parts ++ ")"
  unary : UnaryOp → String → String := fun op operand => s!"{op.symbol}({operand})"
  binary : BinaryOp → Ty → Ty → String → String → String := fun op _ _ left right =>
    s!"({left} {op.symbol} {right})"
  swizzle : String → List Component → String := fun vector pattern =>
    vector ++ "." ++ Component.letters pattern
  column : String → IndexText → String := fun matrix index => s!"{matrix}[{index.text}]"
  columnTarget : String → IndexText → String := column
  element : String → IndexText → String := fun array index => s!"{array}[{index.text}]"
  elementTarget : String → IndexText → String := element
  call : Intrinsic → List String → String := fun f args => f.name ++ "(" ++ joined args ++ ")"
  convert : Ty → String → String := fun ty operand => typeName ty ++ "(" ++ operand ++ ")"
  load : String → Storage → String → String := fun storage _ coord => s!"{storage}[{coord}]"
  store : String → Storage → String → String → String := fun storage _ coord value =>
    s!"{storage}[{coord}] = {value}"
  unbound : Slot → Block → Except Error String := fun slot block =>
    .error (.unboundInput slot.name block.name)

def Spelling.pseudo : Spelling where
  typeName := Ty.name
  sample sampler _ coord := s!"sample({sampler}, {coord})"
  unbound slot _ := .ok s!"<{slot.name}>"

end ShaderGraph
