import ArithLexer.Text.CharSet

/-!
# Blank characters

Blanks separate tokens. They are the characters with the Unicode property `White_Space`, so
more than the ASCII space, tab and line ends, and not the zero-width characters.
-/

namespace ArithLexer.Text

/-- The characters with the Unicode property `White_Space`. -/
def whiteSpace : CharSet :=
  ⟨[(0x09, 0x0D), (0x20, 0x20), (0x85, 0x85), (0xA0, 0xA0), (0x1680, 0x1680), (0x2000, 0x200A),
    (0x2028, 0x2029), (0x202F, 0x202F), (0x205F, 0x205F), (0x3000, 0x3000)]⟩

/-- Whether a character separates tokens. -/
def isBlank (c : Char) : Bool := decide (c ∈ whiteSpace)

theorem isBlank_iff {c : Char} :
    isBlank c = true ↔ ∃ r ∈ whiteSpace.ranges, r.1 ≤ c.toNat ∧ c.toNat ≤ r.2 := by
  rw [isBlank, decide_eq_true_iff, CharSet.mem_iff]

end ArithLexer.Text
