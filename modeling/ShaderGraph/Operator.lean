import ShaderGraph.Ty
/-! Operators, built-in functions and the types they give. Each typing rule is a partial
function on types; a combination outside it is a mismatch that names what was expected. -/
namespace ShaderGraph

inductive UnaryOp
  | negate
  | not
  deriving DecidableEq, Repr

namespace UnaryOp

def symbol : UnaryOp → String
  | .negate => "-"
  | .not => "!"

def accepts : UnaryOp → Ty → Bool
  | .negate, t => t.isNumeric
  | .not, t => t == .bool1

def resultTy (op : UnaryOp) (operand : Ty) : Except Error Ty :=
  if op.accepts operand then .ok operand
  else .error (.typeMismatch s!"operand valid for unary '{op.symbol}'" operand.name)

end UnaryOp

inductive BinaryOp
  | add
  | subtract
  | multiply
  | divide
  | modulo
  | equal
  | notEqual
  | less
  | lessEqual
  | greater
  | greaterEqual
  | and
  | or
  deriving DecidableEq, Repr

namespace BinaryOp

def symbol : BinaryOp → String
  | .add => "+"
  | .subtract => "-"
  | .multiply => "*"
  | .divide => "/"
  | .modulo => "%"
  | .equal => "=="
  | .notEqual => "!="
  | .less => "<"
  | .lessEqual => "<="
  | .greater => ">"
  | .greaterEqual => ">="
  | .and => "&&"
  | .or => "||"

def isComparison : BinaryOp → Bool
  | .equal | .notEqual | .less | .lessEqual | .greater | .greaterEqual => true
  | _ => false

def arithmeticTy (op : BinaryOp) (left right : Ty) : Option Ty :=
  if !left.isNumeric || !right.isNumeric then none
  else match left, right with
    | .matrix m, .matrix n =>
      if m = n then
        if op = .add || op = .subtract || op = .multiply then some left else none
      else none
    | .matrix m, .vector n _ => if op = .multiply && m = n then some right else none
    | .vector n _, .matrix m => if op = .multiply && m = n then some left else none
    | .matrix _, .scalar .float =>
      if op = .multiply || op = .divide then some left else none
    | .scalar .float, .matrix _ => if op = .multiply then some right else none
    | .matrix _, _ => none
    | _, .matrix _ => none
    | .vector m j, .scalar k => if j = k then some (.vector m j) else none
    | .scalar k, .vector m j => if j = k then some (.vector m j) else none
    | _, _ => if left = right then some left else none

def resultTy? (op : BinaryOp) (left right : Ty) : Option Ty :=
  match op with
  | .and | .or => if left = .bool1 && right = .bool1 then some .bool1 else none
  | .equal | .notEqual => if left = right && left.isScalar then some .bool1 else none
  | .less | .lessEqual | .greater | .greaterEqual =>
    if left = right && left.isScalar && left.isNumeric then some .bool1 else none
  | _ => op.arithmeticTy left right

def resultTy (op : BinaryOp) (left right : Ty) : Except Error Ty :=
  match op.resultTy? left right with
  | some t => .ok t
  | none => .error (.typeMismatch s!"operands valid for '{op.symbol}'"
      s!"{left.name} {op.symbol} {right.name}")

end BinaryOp

inductive Intrinsic
  | abs
  | sign
  | floor
  | ceil
  | fract
  | sqrt
  | inverseSqrt
  | sin
  | cos
  | tan
  | exp
  | log
  | pow
  | min
  | max
  | clamp
  | mix
  | step
  | smoothStep
  | dot
  | cross
  | length
  | distance
  | normalize
  | reflect
  | transpose
  | determinant
  deriving DecidableEq, Repr

namespace Intrinsic

def name : Intrinsic → String
  | .abs => "abs"
  | .sign => "sign"
  | .floor => "floor"
  | .ceil => "ceil"
  | .fract => "fract"
  | .sqrt => "sqrt"
  | .inverseSqrt => "inverseSqrt"
  | .sin => "sin"
  | .cos => "cos"
  | .tan => "tan"
  | .exp => "exp"
  | .log => "log"
  | .pow => "pow"
  | .min => "min"
  | .max => "max"
  | .clamp => "clamp"
  | .mix => "mix"
  | .step => "step"
  | .smoothStep => "smoothStep"
  | .dot => "dot"
  | .cross => "cross"
  | .length => "length"
  | .distance => "distance"
  | .normalize => "normalize"
  | .reflect => "reflect"
  | .transpose => "transpose"
  | .determinant => "determinant"

def arity : Intrinsic → Nat
  | .pow | .min | .max | .step | .dot | .cross | .distance | .reflect => 2
  | .clamp | .mix | .smoothStep => 3
  | _ => 1

def sameOrComponent (x t : Ty) : Bool := t == x || x.component? == some t

def unaryTy (f : Intrinsic) (x : Ty) : Option Ty :=
  match f with
  | .floor | .ceil | .fract | .sqrt | .inverseSqrt | .sin | .cos | .tan | .exp | .log =>
    if x.isFloat then some x else none
  | .abs | .sign =>
    if x.isNumeric && !x.isMatrix && x.scalarKind? != some .uint then some x else none
  | .normalize => if x.isFloat && x.isVector then some x else none
  | .length => if x.isFloat then some .float1 else none
  | .transpose => if x.isMatrix then some x else none
  | .determinant => if x.isMatrix then some .float1 else none
  | _ => none

def binaryTy (f : Intrinsic) (x y : Ty) : Option Ty :=
  match f with
  | .pow | .step => if x.isFloat && y == x then some x else none
  | .min | .max =>
    if x.isNumeric && !x.isMatrix && sameOrComponent x y then some x else none
  | .dot => if x.isFloat && x.isVector && y == x then some .float1 else none
  | .distance => if x.isFloat && y == x then some .float1 else none
  | .cross => if x == .float3 && y == x then some x else none
  | .reflect => if x.isFloat && x.isVector && y == x then some x else none
  | _ => none

def ternaryTy (f : Intrinsic) (x y z : Ty) : Option Ty :=
  match f with
  | .clamp =>
    if x.isNumeric && !x.isMatrix && sameOrComponent x y && sameOrComponent x z then some x
    else none
  | .mix => if x.isFloat && y == x && sameOrComponent x z then some x else none
  | .smoothStep =>
    let isEdge (t : Ty) := t == z || t == .float1
    if z.isFloat && isEdge x && isEdge y then some z else none
  | _ => none

def resultTy? (f : Intrinsic) : List Ty → Option Ty
  | [x] => f.unaryTy x
  | [x, y] => f.binaryTy x y
  | [x, y, z] => f.ternaryTy x y z
  | _ => none

def resultTy (f : Intrinsic) (args : List Ty) : Except Error Ty :=
  let found := ", ".intercalate (args.map Ty.name)
  if args.length ≠ f.arity then
    .error (.typeMismatch s!"{f.arity} argument(s) for {f.name}" s!"({found})")
  else match f.resultTy? args with
    | some t => .ok t
    | none => .error (.typeMismatch s!"valid arguments for {f.name}" found)

end Intrinsic

end ShaderGraph
