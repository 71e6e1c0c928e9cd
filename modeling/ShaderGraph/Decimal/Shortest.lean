/-! Shortest decimals. A stored number stands for every real that rounds to it; its
shortest decimal is the one with the fewest digits among those reals, and among equally
short ones the nearest. All arithmetic is exact. -/
namespace ShaderGraph.Decimal

/-- The reals between `low / unit` and `high / unit` around `value / unit`; `closed` says
that both ends round to the value too. -/
structure Span where
  value : Nat
  low : Nat
  high : Nat
  unit : Nat
  closed : Bool
  deriving DecidableEq, Repr

structure Scaled where
  digits : Nat
  exponent : Int
  deriving DecidableEq, Repr

def Scaled.numerator (d : Scaled) : Nat := d.digits * Nat.pow 10 d.exponent.toNat

def Scaled.denominator (d : Scaled) : Nat := Nat.pow 10 (-d.exponent).toNat

def Span.holds (r : Span) (d : Scaled) : Bool :=
  let low := r.low * d.denominator
  let high := r.high * d.denominator
  let x := d.numerator * r.unit
  if r.closed then low ≤ x && x ≤ high else low < x && x < high

def Span.floor (r : Span) (exponent : Int) : Scaled :=
  ⟨r.value * Nat.pow 10 (-exponent).toNat / (r.unit * Nat.pow 10 exponent.toNat), exponent⟩

def Scaled.succ (d : Scaled) : Scaled := ⟨d.digits + 1, d.exponent⟩

/-- Whether the value lies in the lower half of the grid cell above `d`; the middle of the
cell counts as its upper half. -/
def Span.below (r : Span) (d : Scaled) : Bool :=
  2 * r.value * d.denominator < (d.numerator + d.succ.numerator) * r.unit

def Span.onGrid (r : Span) (exponent : Int) : Option Scaled :=
  let down := r.floor exponent
  let up := down.succ
  match r.holds down, r.holds up with
  | true, true => some (if r.below down then down else up)
  | true, false => some down
  | false, true => some up
  | false, false => none

def Span.magnitude (r : Span) : Int :=
  if r.unit ≤ r.value then (Nat.toDigits 10 (r.value / r.unit)).length
  else -leading r.unit.log2 r.value r.unit
where
  leading : Nat → Nat → Nat → Int
    | 0, _, _ => 0
    | fuel + 1, value, unit => if unit ≤ value * 10 then 0 else 1 + leading fuel (value * 10) unit

def Span.search (r : Span) (magnitude : Int) : Nat → Nat → Scaled
  | 0, n => r.floor (magnitude - n)
  | fuel + 1, n => (r.onGrid (magnitude - n)).getD (r.search magnitude fuel (n + 1))

def Span.shortest (r : Span) (places : Nat) : Scaled := r.search r.magnitude places 1

def Scaled.significant (d : Scaled) : List Char :=
  ((Nat.toDigits 10 d.digits).reverse.dropWhile (· == '0')).reverse

def Scaled.point (d : Scaled) : Int := (Nat.toDigits 10 d.digits).length + d.exponent

/-- Positional notation covers first digits from `lowest` to `highest` places; all else is
written with an exponent. -/
structure Layout where
  lowest : Int
  highest : Int
  deriving DecidableEq, Repr

def zeros (n : Nat) : List Char := List.replicate n '0'

def positional (digits : List Char) (point : Int) : List Char :=
  if point ≤ 0 then '0' :: '.' :: (zeros (-point).toNat ++ digits)
  else
    let whole := digits.take point.toNat
    let rest := digits.drop point.toNat
    whole ++ zeros (point.toNat - digits.length) ++ '.' :: (if rest.isEmpty then ['0'] else rest)

def exponential (digits : List Char) (point : Int) : List Char :=
  let rest := digits.drop 1
  digits.take 1 ++ (if rest.isEmpty then [] else '.' :: rest) ++ 'e' :: (toString (point - 1)).toList

def Layout.write (l : Layout) (d : Scaled) : List Char :=
  let point := d.point
  if l.lowest ≤ point && point ≤ l.highest then positional d.significant point
  else exponential d.significant point

end ShaderGraph.Decimal
