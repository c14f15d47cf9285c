/-! # Binary floating-point numbers

Numbers with 53 significant binary digits, as decimal literals denote them.  A literal is
an exact decimal number, and the number it denotes is the nearest representable one, the
even one of two equally near (`Binary64.ofDecimal`).  All arithmetic is on natural
numbers, so the result is exact.
-/
namespace ScriptBackend.Decimal

/-- The power of `base` with the exponent `k`, which is one if `k` is negative. -/
def power (base : Nat) (k : Int) : Nat :=
  Nat.pow base k.toNat

/-- A floating-point number.  The finite ones are `± significand · 2 ^ exponent`, where the
significand is below `2 ^ 53` and, unless the exponent is the least one, at least `2 ^ 52`. -/
inductive Binary64 where
  | finite (negative : Bool) (significand : Nat) (exponent : Int)
  | infinite (negative : Bool)
  | nan
  deriving DecidableEq, Repr

namespace Binary64

/-- The exponent of the least positive number, which all subnormal numbers share. -/
def leastExponent : Int := -1074

/-- The exponent of the greatest finite numbers. -/
def greatestExponent : Int := 971

/-- The quotient rounded to the nearest natural number, a half to the even one. -/
def divNearestEven (num den : Nat) : Nat :=
  let q := num / den
  let r := num % den
  if 2 * r < den then q else if den < 2 * r then q + 1 else q + q % 2

/-- The greatest `k` with `2 ^ k ≤ num / den`, for positive `num` and `den`. -/
def binaryMagnitude (num den : Nat) : Int :=
  let k : Int := (num.log2 : Int) - den.log2
  if den * power 2 k ≤ num * power 2 (-k) then k else k - 1

/-- The number nearest to `± num / den`, for positive `num` and `den`. -/
def ofRatio (negative : Bool) (num den : Nat) : Binary64 :=
  let exponent := max (binaryMagnitude num den - 52) leastExponent
  let significand := divNearestEven (num * power 2 (-exponent)) (den * power 2 exponent)
  let (significand, exponent) :=
    if significand = power 2 53 then (power 2 52, exponent + 1) else (significand, exponent)
  if greatestExponent < exponent then .infinite negative
  else .finite negative significand exponent

/-- The number nearest to `± digits · 10 ^ scale`.  Scales at which every non-zero literal
overflows or vanishes are settled without computing the power. -/
def ofDecimal (negative : Bool) (digits : Nat) (scale : Int) : Binary64 :=
  let magnitude := (Nat.toDigits 10 digits).length + scale
  if digits = 0 ∨ magnitude < -400 then .finite negative 0 leastExponent
  else if 400 < magnitude then .infinite negative
  else ofRatio negative (digits * power 10 scale) (power 10 (-scale))

end Binary64

end ScriptBackend.Decimal
