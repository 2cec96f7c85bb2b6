/-!
# Sets of characters by code point

Unicode defines its character properties by tables of code point ranges. A `CharSet` is such a
table, and `c ∈ s` is decided by looking for a range that holds `c`.
-/

namespace ArithLexer.Text

/-- A set of characters, given by inclusive ranges of code points. -/
structure CharSet where
  ranges : List (Nat × Nat)

namespace CharSet

/-- Whether some range of the set holds the code point of `c`. -/
def contains (s : CharSet) (c : Char) : Bool :=
  s.ranges.any fun r => decide (r.1 ≤ c.toNat) && decide (c.toNat ≤ r.2)

instance : Membership Char CharSet where
  mem s c := s.contains c = true

instance (s : CharSet) (c : Char) : Decidable (c ∈ s) :=
  inferInstanceAs (Decidable (s.contains c = true))

theorem mem_iff {s : CharSet} {c : Char} :
    c ∈ s ↔ ∃ r ∈ s.ranges, r.1 ≤ c.toNat ∧ c.toNat ≤ r.2 := by
  show s.contains c = true ↔ _
  simp [contains, List.any_eq_true]

end CharSet
end ArithLexer.Text
