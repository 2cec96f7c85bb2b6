import ArithLexer.Proofs.Extents

/-!
# The working state

Between two turns a lexer keeps its cursor and the state of the machine. What the state holds of a
token is written on the line: `Extent.EndsAt` says that some characters of one class stand on the line
of a lexer right before its place, and that none of the class is before them.

`Lexer.Placed` is the invariant from which this follows at every point of the course. The main
statement, `state_on_line`, adds where the state holds nothing: whenever the source is asked, and
behind every request that has not refused a character.
-/

namespace ArithLexer

/-- `e.EndsAt p x` says that the line of the lexer `x` is cut at `e`, whose characters stand right
before the place of the lexer. There are some, all of them are of the class `p`, and the character
before them, if there is one, is not. -/
structure Extent.EndsAt {S : Type} (e : Extent) (p : Char → Bool) (x : Lexer S) : Prop where
  line : x.cursor.line.toList = e.before ++ e.text ++ e.behind
  start_lt : e.start.column < x.position.column
  stop : e.stop = x.position
  hasClass : ∀ c ∈ e.text, p c = true
  before : ∀ c ∈ e.before.getLast?, p c = false

namespace Lexer

section
variable {S : Type} {x : Lexer S} {before u : List Char}

/-- What is read of a token stands right before the place of the lexer. -/
theorem Placed.endsAt (h : x.Placed before u) {token : Token} (hu : Lexeme u token) :
    Extent.EndsAt ⟨x.position.line, before, u, x.cursor.ahead⟩ token.hasClass x := by
  have hlength : 0 < u.length := List.length_pos_iff.2 hu.ne_nil
  have hcolumn : x.position.column = 1 + (before ++ u).length := h.behind.column
  -- a lexeme is not empty, and could not have begun earlier
  refine ⟨h.behind.line, ?_, Coordinate.ext rfl hcolumn.symm, hu.hasClass, h.class_before hu⟩
  show 1 + before.length < x.position.column
  rw [hcolumn, List.length_append]
  omega

theorem Placed.number_on_line (h : x.Placed before u) {n : Nat} (hs : x.state = .number n) :
    n < 2 ^ 64 ∧ ∃ e : Extent, e.EndsAt isDigit x ∧ numeralValue e.text = n := by
  have hp := h.pending
  rw [hs] at hp
  cases hp with
  | number hne hd hv =>
    have hlt : maxNumber < 2 ^ 64 := by decide
    exact ⟨hv.trans_lt hlt, _, h.endsAt (.number hne hd hv), rfl⟩

theorem Placed.operator_on_line (h : x.Placed before u) {text : String}
    (hs : x.state = .operator text) :
    text ≠ "" ∧ ∃ e : Extent, e.EndsAt isOperatorChar x ∧ String.ofList e.text = text := by
  have hp := h.pending
  rw [hs] at hp
  cases hp with
  | operator hne ho =>
    have htext : String.ofList u ≠ "" := mt String.ofList_eq_empty_iff.1 hne
    exact ⟨htext, _, h.endsAt (.operator hne ho), rfl⟩

end

section
variable {S : Type} [LineSource S]

theorem start_of_asks {x : Lexer (Counted S)} (h : x.turn.lexer.pulls ≠ x.pulls) :
    x.state = .start ∧ x.turn.lexer.state = .start := by
  have ht := turns x
  generalize x.turn = t at ht h
  cases ht with
  | take ha hs => exact absurd rfl h
  | emit hs => exact absurd rfl h
  | reject hs => exact absurd rfl h
  | refill ha hs hn => exact ⟨hs, rfl⟩
  | finish ha hs hn => exact ⟨hs, rfl⟩
  | fail ha hs hn => exact ⟨hs, rfl⟩

/-- The state of a lexer is written on its line. Requests are made of turns, and at every point of
their course a number that is held is below `2 ^ 64`, and is the value of the digits right before the
place of the lexer, which have no digit before them. An operator that is held is not empty, and is the
operator characters right before the place of the lexer, which have none before them. A turn that asks
the source for lines holds nothing, neither before it nor after it. And nothing is held before the
first request, nor behind any request, unless that one has refused a character. -/
theorem state_on_line (s : S) :
    (∀ n, ∃ k, (counting s).course k = ((counting s).results n, (counting s).after n)) ∧
    (∀ k, let x := ((counting s).course k).2
      (∀ n, x.state = .number n →
        n < 2 ^ 64 ∧ ∃ e : Extent, e.EndsAt isDigit x ∧ numeralValue e.text = n) ∧
      (∀ text, x.state = .operator text →
        text ≠ "" ∧ ∃ e : Extent, e.EndsAt isOperatorChar x ∧ String.ofList e.text = text) ∧
      (x.turn.lexer.pulls ≠ x.pulls → x.state = .start ∧ x.turn.lexer.state = .start)) ∧
    (counting s).state = .start ∧
    ∀ n, ((counting s).after (n + 1)).state = .start ∨
      ∃ error, ((counting s).after n).next.result = .error (.rejected error) := by
  refine ⟨(counting s).course_of_requests, fun k => ?_, rfl, fun n => ?_⟩
  · -- what has been read of a token is at every point right before the lexer
    obtain ⟨before, u, hp⟩ := placed_course (⟨s, 0⟩ : Counted S) k
    exact ⟨fun _ => hp.number_on_line, fun _ => hp.operator_on_line, start_of_asks⟩
  · rw [after_succ']
    rcases ((counting s).after n).start_or_rejected with hstart | ⟨error, hr, -⟩
    · exact .inl hstart
    · exact .inr ⟨error, hr⟩

/-- The first turn asks for two lines. The third one leaves an operator, and the seventh one refuses a
character, with a number held. -/
theorem state_on_line_refused :
    let x := counting (Script.mk [.line "", .line "<=12@"])
    (x.turn.lexer.pulls = 2 ∧ x.state = .start ∧ x.turn.lexer.state = .start) ∧
    (∃ e : Extent, e.EndsAt isOperatorChar (x.course 3).2 ∧ String.ofList e.text = "<=") ∧
    (x.course 7).1.getLast? = some (.error (.rejected ⟨.unacceptable '@', ⟨2, 5⟩, "<=12@"⟩)) ∧
    ∃ e : Extent, e.EndsAt isDigit (x.course 7).2 ∧ numeralValue e.text = 12 := by
  intro x
  obtain ⟨-, hcourse, -⟩ := state_on_line (Script.mk [.line "", .line "<=12@"])
  have hpulls : x.turn.lexer.pulls = 2 := by decide +kernel
  have hasks : x.turn.lexer.pulls ≠ x.pulls := by
    rw [hpulls]
    exact Nat.succ_ne_zero 1
  have hoperator : (x.course 3).2.state = .operator "<=" := by decide +kernel
  have hnumber : (x.course 7).2.state = .number 12 := by decide +kernel
  refine ⟨⟨hpulls, (hcourse 0).2.2 hasks⟩, ((hcourse 3).2.1 _ hoperator).2, ?_,
    ((hcourse 7).1 _ hnumber).2⟩
  decide +kernel

end
end Lexer
end ArithLexer
