import ScriptBackend.Decimal.Binary64

/-! # Shortest decimal text

The decimal text of a floating-point number has the fewest significant digits that read
back as the same number, the nearer of two candidates, and the upper one of two equally
near.  It is always positional, never with a power of ten, and keeps a fractional part, so
that it cannot be taken for an integer: `4.0`, `0.001`, `-0.0`.
-/
namespace ScriptBackend.Decimal

/-- The reals that round to a positive number `significand · 2 ^ exponent`, with the number
itself, all over the common denominator `den`. -/
structure Rounding where
  low : Nat
  mid : Nat
  high : Nat
  den : Nat
  /-- Whether the two ends themselves round to the number. -/
  closed : Bool

namespace Rounding

/-- The interval of a positive finite number.  Below a power of two the neighbours lie half
as far away. -/
def ofFinite (significand : Nat) (exponent : Int) : Rounding :=
  let unit := power 2 (exponent - 2)
  let narrow := significand = power 2 52 ∧ Binary64.leastExponent < exponent
  { low := (4 * significand - if narrow then 1 else 2) * unit
    mid := 4 * significand * unit
    high := (4 * significand + 2) * unit
    den := power 2 (2 - exponent)
    closed := significand % 2 = 0 }

/-- Whether `num / r.den` rounds to the number. -/
def holds (r : Rounding) (num : Nat) : Bool :=
  if r.closed then r.low ≤ num && num ≤ r.high else r.low < num && num < r.high

/-- The interval over the denominator divided or multiplied by the unit `10 ^ scale`, so
that the whole numbers are the decimals of that unit. -/
def inUnits (r : Rounding) (scale : Int) : Rounding :=
  let up := power 10 (-scale)
  { r with
    low := r.low * up
    mid := r.mid * up
    high := r.high * up
    den := r.den * power 10 scale }

/-- The multiple of the unit that rounds to the number, if one does: the nearer one of the
two beside it, and the upper one if both are equally near. -/
def nearest? (r : Rounding) : Option Nat :=
  let q := r.mid / r.den
  let down := r.holds (q * r.den)
  let up := r.holds ((q + 1) * r.den)
  if up && (!down || r.den ≤ 2 * (r.mid % r.den)) then some (q + 1)
  else if down then some q
  else none

/-- The greatest `k` with `10 ^ k` at most the number, found from `k` downwards. -/
def magnitude (r : Rounding) : (tries : Nat) → Int → Int
  | 0, k => k
  | tries + 1, k =>
    if r.den * power 10 k ≤ r.mid * power 10 (-k) then k else magnitude r tries (k - 1)

/-- The decimal `digits · 10 ^ scale` without a last zero.  Only ten has one: the first unit
tried gives it for a number just below a power of ten. -/
def carry (digits : Nat) (scale : Int) : Nat × Int :=
  if digits = 10 then (1, scale + 1) else (digits, scale)

/-- The shortest decimal `digits · 10 ^ scale` that rounds to the number, tried from the
unit `10 ^ scale` downwards. -/
def shortest (r : Rounding) : (tries : Nat) → Int → Nat × Int
  | 0, scale => (r.mid / r.den, scale)
  | tries + 1, scale =>
    match (r.inUnits scale).nearest? with
    | some digits => carry digits scale
    | none => shortest r tries (scale - 1)

end Rounding

/-- The text of `digits · 10 ^ scale`, with at least one digit on each side of the point. -/
def positional (digits : Nat) (scale : Int) : List Char :=
  let whole := Nat.toDigits 10 (digits * power 10 scale)
  let places := (-scale).toNat
  if places = 0 then whole ++ ['.', '0']
  else
    let padded := List.replicate (places + 1 - whole.length) '0' ++ whole
    padded.take (padded.length - places) ++ '.' :: padded.drop (padded.length - places)

/-- So many significant digits always suffice to tell two numbers apart. -/
def sufficientDigits : Nat := 17

/-- The digits of a finite number. -/
def finiteText (significand : Nat) (exponent : Int) : List Char :=
  if significand = 0 then ['0', '.', '0']
  else
    let r := Rounding.ofFinite significand exponent
    let (digits, scale) := r.shortest sufficientDigits (r.magnitude 640 309)
    positional digits scale

/-- The decimal text of a number. -/
def Binary64.text : Binary64 → String
  | .finite negative significand exponent =>
    (if negative then "-" else "") ++ String.ofList (finiteText significand exponent)
  | .infinite negative => if negative then "-inf" else "inf"
  | .nan => "NaN"

end ScriptBackend.Decimal
