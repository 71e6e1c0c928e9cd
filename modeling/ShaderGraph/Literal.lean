import ShaderGraph.Decimal.Shortest
import ShaderGraph.Ty
/-! Literal constants. A float is kept as its 32-bit pattern, so that every pattern,
the not-a-numbers included, has a text and an equality. -/
namespace ShaderGraph

structure Single where
  bits : UInt32
  deriving DecidableEq, Repr

namespace Single

def negative (x : Single) : Bool := 2147483648 ≤ x.bits.toNat

def magnitude (x : Single) : Nat := x.bits.toNat % 2147483648

def exponent (x : Single) : Nat := x.magnitude / 8388608

def fraction (x : Single) : Nat := x.magnitude % 8388608

def isNaN (x : Single) : Bool := x.exponent == 255 && x.fraction != 0

def isInfinite (x : Single) : Bool := x.exponent == 255 && x.fraction == 0

def isZero (x : Single) : Bool := x.magnitude == 0

/-- A not-a-number equals nothing, and the two zeros are equal. -/
def equal (x y : Single) : Bool :=
  !x.isNaN && !y.isNaN && (x.bits == y.bits || (x.isZero && y.isZero))

/-- The reals that round to a finite positive value, in quarters of its last place. The gap
below a power of two is half the gap above it. -/
def span (x : Single) : Decimal.Span :=
  let mantissa := if x.exponent = 0 then x.fraction else 8388608 + x.fraction
  let last := max x.exponent 1
  let below := if x.fraction = 0 && 1 < x.exponent then 1 else 2
  let scale := Nat.pow 2 (last - 152)
  ⟨4 * mantissa * scale, (4 * mantissa - below) * scale, (4 * mantissa + 2) * scale,
    Nat.pow 2 (152 - last), mantissa % 2 == 0⟩

def layout : Decimal.Layout := ⟨-3, 16⟩

def digits (x : Single) : List Char := layout.write (x.span.shortest 9)

def text (x : Single) : String :=
  if x.isNaN then "NaN"
  else
    let sign := if x.negative then "-" else ""
    if x.isInfinite then sign ++ "inf"
    else if x.isZero then sign ++ "0.0"
    else sign ++ String.ofList x.digits

end Single

inductive Literal
  | float (value : Single)
  | int (value : Int32)
  | uint (value : UInt32)
  | bool (value : Bool)
  deriving DecidableEq, Repr

namespace Literal

def ty : Literal → Ty
  | .float _ => .float1
  | .int _ => .int1
  | .uint _ => .uint1
  | .bool _ => .bool1

def index? : Literal → Option Int
  | .int v => some v.toInt
  | .uint v => some v.toNat
  | _ => none

def text : Literal → String
  | .float v => v.text
  | .int v => toString v.toInt
  | .uint v => s!"{v.toNat}u"
  | .bool v => if v then "true" else "false"

def equal : Literal → Literal → Bool
  | .float a, .float b => a.equal b
  | .int a, .int b => a == b
  | .uint a, .uint b => a == b
  | .bool a, .bool b => a == b
  | _, _ => false

end Literal

end ShaderGraph
