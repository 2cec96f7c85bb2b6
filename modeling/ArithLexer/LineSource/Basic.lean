import ArithLexer.IoError

/-!
# Sources of lines

A line source is asked for one line at a time. It answers with a line, with the end of the input,
or with a failure, and it may go on answering after either of the last two. Sources are finite:
each comes with a bound on the lines it can still deliver.
-/

namespace ArithLexer

/-- A supply of lines of text without their terminators. -/
class LineSource (S : Type) where
  /-- Asks for the next line; `none` is the end of the input. -/
  next : S → Except IoError (Option String) × S
  /-- A bound on the number of lines still to come. -/
  bound : S → Nat
  /-- Delivering a line uses up some of the bound. -/
  bound_lt {s t : S} {line : String} : next s = (.ok (some line), t) → bound t < bound s

/-- A source together with the number of times it has been asked. -/
structure Counted (S : Type) where
  source : S
  pulls : Nat := 0

instance {S : Type} [LineSource S] : LineSource (Counted S) where
  next s := ((LineSource.next s.source).1, ⟨(LineSource.next s.source).2, s.pulls + 1⟩)
  bound s := LineSource.bound s.source
  bound_lt := by
    rintro ⟨s, n⟩ ⟨t, m⟩ line h
    simp only [Prod.mk.injEq, Counted.mk.injEq] at h
    have hn : LineSource.next s = (.ok (some line), t) := Prod.ext h.1 h.2.1
    exact LineSource.bound_lt hn

end ArithLexer
