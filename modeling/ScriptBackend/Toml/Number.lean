import ScriptBackend.Toml.Scan
import ScriptBackend.Decimal.Binary64

/-! # Numbers

Integers are decimal with an optional sign, or hexadecimal, octal or binary without one, and
have to fit into 64 bits.  Floating-point numbers have a fraction or an exponent.  In both, an
underscore may stand between two digits.
-/
namespace ScriptBackend.Toml

open Decimal (Binary64)

/-- The integers that fit into 64 bits, with a sign. -/
def isWord (n : Int) : Bool :=
  -0x8000000000000000 ≤ n && n < 0x8000000000000000

/-- Reads decimal digits without a leading zero. -/
def plainDigits : Reader (List Nat)
  | '0' :: rest => some ([0], rest)
  | cs => digits 10 cs

/-- Reads an integer in the given base, after the mark of that base. -/
def basedInteger (base : Nat) : Reader Int := fun cs => do
  let (ds, rest) ← digits base cs
  some (ofDigits base ds, rest)

/-- Reads a decimal integer. -/
def decimalInteger : Reader Int := fun cs => do
  let (negative, cs) := sign cs
  let (ds, rest) ← plainDigits cs
  let n : Int := ofDigits 10 ds
  some (if negative then -n else n, rest)

/-- Reads an integer that fits into 64 bits. -/
def integer : Reader Int := fun cs => do
  let (n, rest) ←
    match cs with
    | '0' :: 'x' :: cs => basedInteger 16 cs
    | '0' :: 'o' :: cs => basedInteger 8 cs
    | '0' :: 'b' :: cs => basedInteger 2 cs
    | cs => decimalInteger cs
  if isWord n then some (n, rest) else none

/-- Reads a point and the digits after it. -/
def fraction : Reader (List Nat)
  | '.' :: cs => digits 10 cs
  | _ => none

/-- Reads an exponent. -/
def exponent : Reader Int
  | c :: cs =>
    if c = 'e' || c = 'E' then do
      let (negative, cs) := sign cs
      let (ds, rest) ← digits 10 cs
      let n : Int := ofDigits 10 ds
      some (if negative then -n else n, rest)
    else none
  | [] => none

/-- Reads a decimal number with a fraction, an exponent or both.  One too great for a
floating-point number is refused; one too far below zero is taken as minus infinity. -/
def decimalFloat : Reader Binary64 := fun cs => do
  let (negative, cs) := sign cs
  let (whole, cs) ← plainDigits cs
  let (decimals, power, rest) ←
    match fraction cs with
    | some (decimals, cs) =>
      match exponent cs with
      | some (power, rest) => some (decimals, power, rest)
      | none => some (decimals, 0, cs)
    | none => (exponent cs).map fun (power, rest) => ([], power, rest)
  let x := Binary64.ofDecimal negative (ofDigits 10 (whole ++ decimals)) (power - decimals.length)
  if x = .infinite false then none else some (x, rest)

/-- Reads an infinity or a value that is no number. -/
def specialFloat : Reader Binary64 := fun cs =>
  let (negative, cs) := sign cs
  match word ['i', 'n', 'f'] cs with
  | some rest => some (.infinite negative, rest)
  | none => (word ['n', 'a', 'n'] cs).map fun rest => (.nan, rest)

/-- Reads a floating-point number. -/
def float : Reader Binary64 := fun cs =>
  (decimalFloat cs).or (specialFloat cs)

end ScriptBackend.Toml
