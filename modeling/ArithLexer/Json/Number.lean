import ArithLexer.Decimal.Shortest
import ArithLexer.Text.Digit

/-!
# JSON numbers

A number without fraction and exponent is an integer if it fits in 64 bits, with or without sign;
every other number, and a negative zero, is a double.

The value of a double is computed from at most 64 bits of its digits, by one multiplication or
division by a power of ten, or by several divisions where the power is out of range.
-/

namespace ArithLexer.Json

inductive Number where
  | integer (value : Int)
  | double (value : Float)

/-- A decimal as it is read: `significand * 10 ^ exponent`. -/
structure Scientific where
  significand : Nat
  exponent : Int
deriving DecidableEq, Repr

/-- The largest significand that is kept; digits beyond are dropped. -/
def maxSignificand : Nat := UInt64.size - 1

/-- The powers of ten that a double can hold end here. -/
def maxPower : Nat := 308

/-- A double times a power of ten; `none` if that is too large for a double. -/
def scale (x : Float) (exponent : Int) : Option Float :=
  let power (k : Nat) : Float := Float.ofScientific 1 false k
  if exponent.natAbs ≤ maxPower then
    if 0 ≤ exponent then
      let y := x * power exponent.natAbs
      if y.isFinite then some y else none
    else some (x / power exponent.natAbs)
  else if x == 0 then some x
  else if 0 ≤ exponent then none
  else scale (x / power maxPower) (exponent + maxPower)
termination_by exponent.natAbs
decreasing_by simp only [maxPower] at *; omega

/-- The double of a decimal; `none` if it is too large. -/
def Scientific.toDouble? (s : Scientific) : Option Float :=
  scale (Float.ofNat s.significand) s.exponent

/-- The number without fraction and exponent, of which all digits were kept. -/
def Number.ofDigits (negative : Bool) (n : Nat) : Number :=
  if negative then
    if n = 0 ∨ Nat.pow 2 63 < n then .double (-Float.ofNat n) else .integer (-n)
  else .integer n

/-- An exponent of ten as text, with its sign. -/
def exponentText (exponent : Int) : List Char :=
  'e' :: (if exponent < 0 then '-' else '+') :: Nat.toDigits 10 exponent.natAbs

/-- A decimal as text: positional from 0.00001 to below 10 ^ 16, with at least one digit on
either side of the point; otherwise with an exponent of ten and one digit before the point, which
is left out if no other digit follows. -/
def decimalText (d : Decimal.Digits) : String :=
  let count : Int := d.digits.length
  let zeros (n : Int) : List Char := List.replicate n.toNat '0'
  String.ofList <|
    if count ≤ d.point ∧ d.point ≤ 16 then d.digits ++ zeros (d.point - count) ++ ['.', '0']
    else if 0 < d.point ∧ d.point ≤ 16 then
      d.digits.take d.point.toNat ++ '.' :: d.digits.drop d.point.toNat
    else if -5 < d.point ∧ d.point ≤ 0 then ['0', '.'] ++ zeros (-d.point) ++ d.digits
    else
      match d.digits with
      | [] => exponentText (d.point - 1)
      | [a] => a :: exponentText (d.point - 1)
      | a :: rest => a :: '.' :: (rest ++ exponentText (d.point - 1))

/-- A finite double as text, with the fewest digits that read back. -/
def doubleText (x : Float) : String :=
  let negative := Nat.pow 2 63 ≤ x.toBits.toNat
  let magnitude := if x == 0 then "0.0" else decimalText (Decimal.shortest x.abs)
  if negative then "-" ++ magnitude else magnitude

def Number.describe : Number → String
  | integer value => "integer `" ++ toString value ++ "`"
  | double value => "floating point `" ++ doubleText value ++ "`"

end ArithLexer.Json
