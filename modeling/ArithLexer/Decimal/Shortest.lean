/-!
# The shortest decimal of a binary fraction

A double stands for every real number that rounds to it. Of the decimals among those, this module
finds one with the fewest digits, and of these the nearest. All arithmetic is exact.

The double `m * 2 ^ e` is scaled by four, so that the middle between it and its neighbours is a
whole number of the same unit.
-/

namespace ArithLexer.Decimal

/-- A positive value and the interval of reals that round to it, all in units of `2 ^ unit`. -/
structure Rounding where
  low : Nat
  value : Nat
  high : Nat
  unit : Int
  /-- Whether the ends of the interval round to the value too. -/
  closed : Bool

/-- The rounding interval of the double with the given exponent and fraction bits. Below a power
of two the neighbours are only half as far apart. -/
def Rounding.ofFields (exponent fraction : Nat) : Rounding :=
  let m := if exponent = 0 then fraction else Nat.pow 2 52 + fraction
  let e : Int := (if exponent = 0 then 1 else exponent) - 1075
  let below := if fraction = 0 ∧ 1 < exponent then 1 else 2
  ⟨4 * m - below, 4 * m, 4 * m + 2, e - 2, m % 2 = 0⟩

/-- The nearest multiple of `10 ^ k` to the value, as a number of these, if one of the two around
the value lies in the interval. A tie goes to the even one. -/
def Rounding.onGrid? (r : Rounding) (k : Int) : Option Nat :=
  let scale := Nat.pow 2 r.unit.toNat * Nat.pow 10 (-k).toNat
  let step := Nat.pow 2 (-r.unit).toNat * Nat.pow 10 k.toNat
  let inside (d : Nat) : Bool :=
    if r.closed then r.low * scale ≤ d * step && d * step ≤ r.high * scale
    else r.low * scale < d * step && d * step < r.high * scale
  let d := r.value * scale / step
  match inside d, inside (d + 1) with
  | false, false => none
  | true, false => some d
  | false, true => some (d + 1)
  | true, true =>
    let middle := (2 * d + 1) * step
    if 2 * (r.value * scale) < middle then some d
    else if middle < 2 * (r.value * scale) then some (d + 1)
    else some (d + d % 2)

/-- The digits of a decimal, and where its point stands behind the head of them. -/
structure Digits where
  digits : List Char
  point : Int
deriving DecidableEq, Repr

/-- How many digits the value has before the point; not positive for a value below one tenth. -/
def Rounding.point (r : Rounding) : Int :=
  let scaled := r.value * Nat.pow 2 r.unit.toNat * Nat.pow 10 400 / Nat.pow 2 (-r.unit).toNat
  (Nat.toDigits 10 scaled).length - 400

/-- The shortest decimal in the interval. Seventeen digits always suffice for a double. -/
def Rounding.shortest (r : Rounding) : Digits :=
  let point := r.point
  let found := (List.range 17).findSome? fun (i : Nat) =>
    (r.onGrid? (point - (i + 1))).map fun d => (d, i + 1)
  match found with
  | none => ⟨['0'], 1⟩
  | some (d, count) =>
    let digits := Nat.toDigits 10 d
    ⟨(digits.reverse.dropWhile (· = '0')).reverse, point + (digits.length - count)⟩

/-- The shortest decimal of a double that is positive and finite. -/
def shortest (x : Float) : Digits :=
  let bits := x.toBits.toNat
  (Rounding.ofFields (bits / Nat.pow 2 52 % Nat.pow 2 11) (bits % Nat.pow 2 52)).shortest

end ArithLexer.Decimal
