import ArithLexer.Cursor
import ArithLexer.LineSource.Memory

/-!
# The lexer

A lexer joins a cursor to the token machine. Asked for a token, it takes turns until it has an
answer: a token, the end of the input, or a failure. It never gives part of a token.

A refused character leaves the lexer as it was, so the next request is refused in the same way.
A line that cannot be read is asked for again by the next request. After the end of the input
every request answers with the end.
-/

namespace ArithLexer

open Log (Event)

/-- A cursor, and the part read so far of the token that ends before it. -/
structure Lexer (S : Type) where
  cursor : Cursor S
  state : State

namespace Lexer

variable {S : Type}

/-- A lexer before the first line of its source. -/
def ofSource (source : S) : Lexer S := ⟨.ofSource source, .start⟩

/-- The coordinate of the next character. -/
def position (x : Lexer S) : Coordinate := x.cursor.position

/-- What a lexer can do in one turn. -/
inductive Turn (S : Type) where
  /-- It has taken a character of the line. -/
  | took (lexer : Lexer S)
  /-- It has gone on to another line. -/
  | refilled (lexer : Lexer S) (events : List Event)
  /-- It has an answer. -/
  | answered (reply : Reply (Option Token) (Lexer S))

/-- The work a lexer has left: lines first, then the rest of the current line, where a token that
has begun counts for half a character. -/
def work [LineSource S] (x : Lexer S) : Nat × Nat :=
  (LineSource.bound x.cursor.source,
    2 * x.cursor.ahead.length + if x.state = .start then 0 else 1)

/-- `Less y x` says that `y` has less work left than `x`. -/
def Less [LineSource S] (y x : Lexer S) : Prop := Prod.Lex (· < ·) (· < ·) y.work x.work

theorem Less.trans [LineSource S] {x y z : Lexer S} (h₁ : Less x y) (h₂ : Less y z) :
    Less x z := by
  simp only [Less, Prod.lex_def] at *
  omega

instance [LineSource S] : WellFoundedRelation (Lexer S) where
  rel := Less
  wf := InvImage.wf work (Prod.lex ⟨_, Nat.lt_wfRel.wf⟩ ⟨_, Nat.lt_wfRel.wf⟩).wf

variable [LineSource S]

/-- One turn: a step of the machine at the next character of the line. -/
def turn (x : Lexer S) : Turn S :=
  match x.state.step x.cursor.peek with
  | .emit token =>
    .answered ⟨.ok (some token), { x with state := .start }, [.tokenProduced token x.position]⟩
  | .reject reason =>
    let error : LexError := ⟨reason, x.position, x.cursor.line⟩
    .answered ⟨.error (.rejected error), x, [.characterRefused error]⟩
  | .take state =>
    match x.cursor.take? with
    | some (_, cursor) => .took ⟨cursor, state⟩
    | none =>
      match x.cursor.nextLine with
      | ⟨.ok true, cursor, events⟩ => .refilled ⟨cursor, state⟩ events
      | ⟨.ok false, cursor, events⟩ =>
        .answered ⟨.ok none, ⟨cursor, state⟩, events ++ [.inputEnded]⟩
      | ⟨.error failure, cursor, events⟩ => .answered ⟨.error failure, ⟨cursor, state⟩, events⟩

theorem less_of_took {x y : Lexer S} (h : x.turn = .took y) : Less y x := by
  rw [turn] at h
  split at h
  · simp at h
  · simp at h
  · next state hs =>
    split at h
    · next a cursor ht =>
      obtain ⟨rest, ha, hc⟩ := Cursor.take?_eq_some_iff.1 ht
      cases h
      have h₁ : (if (Lexer.mk cursor state).state = .start then 0 else 1) ≤ 1 := by split <;> simp
      exact hc ▸ Prod.Lex.right _ (by simp only [ha, List.length_cons] at *; omega)
    · split at h <;> simp at h

theorem less_of_refilled {x y : Lexer S} {events : List Event}
    (h : x.turn = .refilled y events) : Less y x := by
  rw [turn] at h
  split at h
  · simp at h
  · simp at h
  · split at h
    · simp at h
    · split at h
      · next cursor events hr =>
        cases h
        have hb := Cursor.bound_nextLine_lt (c := x.cursor) (by rw [hr])
        rw [hr] at hb
        exact Prod.Lex.left _ _ hb
      · simp at h
      · simp at h

/-- A token that is given out takes work off the lexer, even if no character is taken. -/
theorem less_of_answered {x : Lexer S} {reply : Reply (Option Token) (Lexer S)} {token : Token}
    (h : x.turn = .answered reply) (ht : reply.result = .ok (some token)) :
    Less reply.after x := by
  rw [turn] at h
  split at h
  · next hs =>
    cases h
    simp [Less, work, Prod.lex_def, State.ne_start_of_step_emit hs]
  · cases h
    simp at ht
  · split at h
    · simp at h
    · split at h <;> cases h <;> simp at ht

/-- Takes turns up to an answer, having reported `told`, newest first. -/
def answer (x : Lexer S) (told : List Event) : Reply (Option Token) (Lexer S) :=
  match _ : x.turn with
  | .took y => answer y told
  | .refilled y events => answer y (events.reverse ++ told)
  | .answered reply => { reply with events := told.reverse ++ reply.events }
termination_by x
decreasing_by
  · exact less_of_took ‹_›
  · exact less_of_refilled ‹_›

/-- Asks for the next token; `none` is the end of the input. -/
def next (x : Lexer S) : Reply (Option Token) (Lexer S) := x.answer [.tokenRequested]

theorem answer_of_took {x y : Lexer S} (told : List Event) (h : x.turn = .took y) :
    x.answer told = y.answer told := by
  rw [answer]
  split <;> simp_all

theorem answer_of_refilled {x y : Lexer S} {events : List Event} (told : List Event)
    (h : x.turn = .refilled y events) : x.answer told = y.answer (events.reverse ++ told) := by
  rw [answer]
  split <;> simp_all

theorem answer_of_answered {x : Lexer S} {reply : Reply (Option Token) (Lexer S)}
    (told : List Event) (h : x.turn = .answered reply) :
    x.answer told = { reply with events := told.reverse ++ reply.events } := by
  rw [answer]
  split <;> simp_all

theorem answer_append (x : Lexer S) (told earlier : List Event) :
    x.answer (told ++ earlier) =
      { x.answer told with events := earlier.reverse ++ (x.answer told).events } := by
  fun_induction answer x told with
  | case1 x told y h ih => rw [answer_of_took _ h, ih]
  | case2 x told y events h ih =>
    rw [answer_of_refilled _ h, ← ih, List.append_assoc]
  | case3 x told reply h => rw [answer_of_answered _ h]; simp

/-- What was reported before has no influence on the answer. -/
theorem answer_eq (x : Lexer S) (told : List Event) :
    x.answer told = { x.answer [] with events := told.reverse ++ (x.answer []).events } :=
  answer_append x [] told

/-- A token that is given out takes work off the lexer. -/
theorem less_of_next {x : Lexer S} {token : Token} (h : x.next.result = .ok (some token)) :
    Less x.next.after x := by
  rw [next] at h ⊢
  generalize [Event.tokenRequested] = told at h ⊢
  fun_induction answer x told with
  | case1 x told y hy ih => exact (ih h).trans (less_of_took hy)
  | case2 x told y events hy ih => exact (ih h).trans (less_of_refilled hy)
  | case3 x told reply hr =>
    have hl : Less reply.after x := less_of_answered hr h
    exact hl

/-- Asks for tokens until there are no more, having obtained `got`, newest first. Gives what was
obtained, a failure as its last item, and the lexer after the last request. -/
def collect (x : Lexer S) (got : List (Except LexFailure Token)) :
    List (Except LexFailure Token) × Lexer S :=
  match _ : x.next.result with
  | .ok (some token) => collect x.next.after (.ok token :: got)
  | .ok none => (got.reverse, x.next.after)
  | .error failure => ((.error failure :: got).reverse, x.next.after)
termination_by x
decreasing_by exact less_of_next ‹_›

end Lexer

/-- The tokens of a lexer, one at a time. After the end or a failure there is nothing more, and
the lexer is not asked again. -/
structure Tokens (S : Type) where
  lexer : Lexer S
  finished : Bool := false

namespace Tokens

variable {S : Type} [LineSource S]

/-- The next item and the tokens behind it. -/
def next (ts : Tokens S) : Option (Except LexFailure Token) × Tokens S :=
  if ts.finished then (none, ts)
  else
    let reply := ts.lexer.next
    match reply.result with
    | .ok (some token) => (some (.ok token), ⟨reply.after, false⟩)
    | .ok none => (none, ⟨reply.after, true⟩)
    | .error failure => (some (.error failure), ⟨reply.after, true⟩)

/-- All items, and the tokens behind them, of which there are none. -/
def drain (ts : Tokens S) : List (Except LexFailure Token) × Tokens S :=
  if ts.finished then ([], ts)
  else ((ts.lexer.collect []).1, ⟨(ts.lexer.collect []).2, true⟩)

end Tokens

/-- The tokens of a text, or the first failure among them. -/
def tokenize (text : String) : Except LexFailure (List Token) :=
  (Tokens.mk (Lexer.ofSource (MemoryLines.ofText text)) false).drain.1.mapM id

end ArithLexer
