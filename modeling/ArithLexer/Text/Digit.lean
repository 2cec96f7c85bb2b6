/-!
# Digits of ASCII

Only the digits of ASCII count as digits, in tokens and in JSON alike.
-/

namespace ArithLexer.Text

/-- The value of a decimal digit. Digits of other scripts have none. -/
def digit? (c : Char) : Option Nat :=
  if '0'.toNat ≤ c.toNat ∧ c.toNat ≤ '9'.toNat then some (c.toNat - '0'.toNat) else none

/-- The value of a hexadecimal digit in either case. -/
def hexDigit? (c : Char) : Option Nat :=
  if 'a'.toNat ≤ c.toNat ∧ c.toNat ≤ 'f'.toNat then some (c.toNat - 'a'.toNat + 10)
  else if 'A'.toNat ≤ c.toNat ∧ c.toNat ≤ 'F'.toNat then some (c.toNat - 'A'.toNat + 10)
  else digit? c

theorem digit?_eq_some_iff {c : Char} {d : Nat} :
    digit? c = some d ↔ d < 10 ∧ c.toNat = '0'.toNat + d := by
  have h9 : '9'.toNat = 57 := by decide
  have h0 : '0'.toNat = 48 := by decide
  simp only [digit?, Option.ite_none_right_eq_some, Option.some.injEq]
  omega

end ArithLexer.Text
