import ArithLexer.Lexer
import Mathlib.Logic.Function.Iterate

/-!
# Requests

What one turn of a lexer can do (`Turns`), what one request can leave behind (`Lexer.next_leaves`),
and the lexer and its results after any number of requests (`Lexer.after`, `Lexer.results`,
`Lexer.Gives`).

Nothing here depends on what the source is; the equations `next_of_took`, `next_of_refilled` and
`next_of_answered` let a proof about requests go turn by turn.
-/

namespace ArithLexer

/-- The result of a request for a token. -/
abbrev Result := Except LexFailure (Option Token)

/-- A token as the result of a request. -/
def given (token : Token) : Result := .ok (some token)

/-- `Kept I` says that `I` goes on to hold of a source and the number of lines it has delivered when
the source is asked. -/
structure Kept {S : Type} [LineSource S] (I : Nat → S → Prop) : Prop where
  line {n : Nat} {s t : S} {text : String} :
    I n s → LineSource.next s = (.ok (some text), t) → I (n + 1) t
  finish {n : Nat} {s t : S} : I n s → LineSource.next s = (.ok none, t) → I n t
  fail {n : Nat} {s t : S} {cause : IoError} : I n s → LineSource.next s = (.error cause, t) → I n t

namespace Cursor

variable {S : Type} [LineSource S]

/-! ### Fetching a line -/

/-- What a fetch comes to, by what the source answers: empty lines are skipped. -/
theorem fetch_induction {P : Cursor S → Except LexFailure Bool → Cursor S → Prop}
    (skip : ∀ {c line source r d}, LineSource.next c.source = (.ok (some line), source) →
      line.toList = [] → P (c.atLine source line) r d → P c r d)
    (line : ∀ {c line source}, LineSource.next c.source = (.ok (some line), source) →
      line.toList ≠ [] → P c (.ok true) (c.atLine source line))
    (finish : ∀ {c source}, LineSource.next c.source = (.ok none, source) →
      P c (.ok false) { c with source := source, exhausted := true })
    (fail : ∀ {c cause source}, LineSource.next c.source = (.error cause, source) →
      P c (.error (.unreadable (c.position.line + 1) cause)) { c with source := source })
    (c : Cursor S) (told : List Log.Event) : P c (c.fetch told).result (c.fetch told).after := by
  -- the events that are told on the way go into no case, so they are left out of the motive
  fun_induction fetch c told with
  | case1 c told text source hn here told' he ih => exact skip hn (by simpa using he) ih
  | case2 c told text source hn here told' he => exact line hn (by simpa using he)
  | case3 c told source hn told' => exact finish hn
  | case4 c told cause source hn number told' => exact fail hn

/-- How a cursor stands after a fetch with a given result: at the head of a line, knowing that there
is no more, or where it was, with a failure that names the line after the last one. -/
def Fetched (c : Cursor S) : Except LexFailure Bool → Cursor S → Prop
  | .ok true, d =>
    d.ahead = d.line.toList ∧ d.ahead ≠ [] ∧ d.position.column = 1 ∧ d.exhausted = c.exhausted
  | .ok false, d => d.exhausted = true ∧ (c.ahead = [] → d.ahead = [])
  | .error failure, d =>
    (∃ cause, failure = .unreadable (d.position.line + 1) cause) ∧ d.exhausted = c.exhausted ∧
      (c.ahead = [] → d.ahead = [])

theorem fetched_fetch (c : Cursor S) (told : List Log.Event) :
    c.Fetched (c.fetch told).result (c.fetch told).after := by
  refine fetch_induction (P := fun c r d => c.Fetched r d) ?_ ?_ ?_ ?_ c told
  · intro c line source r d hn he ih
    -- an empty line was skipped: what the fetch came to behind it is the result,
    -- and the skipped line leaves nothing ahead
    match r, ih with
    | .ok true, ih => exact ih
    | .ok false, ⟨hex, hah⟩ => exact ⟨hex, fun _ => hah he⟩
    | .error failure, ⟨hf, hex, hah⟩ => exact ⟨hf, hex, fun _ => hah he⟩
  · intro c line source hn he
    exact ⟨rfl, he, rfl, rfl⟩
  · intro c source hn
    exact ⟨rfl, id⟩
  · intro c cause source hn
    exact ⟨⟨cause, rfl⟩, rfl, id⟩

theorem nextLine_of_exhausted {c : Cursor S} (h : c.exhausted = true) :
    c.nextLine = ⟨.ok false, c, []⟩ := by
  rw [nextLine, if_pos h]

theorem nextLine_of_not_exhausted {c : Cursor S} (h : c.exhausted = false) :
    c.nextLine = c.fetch [] := by
  rw [nextLine, if_neg (by simp [h])]

theorem fetched_nextLine {c d : Cursor S} {r : Except LexFailure Bool} {events : List Log.Event}
    (h : c.nextLine = ⟨r, d, events⟩) : c.Fetched r d := by
  cases he : c.exhausted with
  | true =>
    rw [nextLine_of_exhausted he] at h
    cases h
    exact ⟨he, id⟩
  | false =>
    rw [nextLine_of_not_exhausted he] at h
    have hf := c.fetched_fetch []
    rwa [h] at hf

theorem kept_fetch {I : Nat → S → Prop} (hI : Kept I) {c : Cursor S} (told : List Log.Event)
    (h : I c.position.line c.source) :
    I (c.fetch told).after.position.line (c.fetch told).after.source := by
  -- the invariant goes into the motive as a premise, as each skipped line changes it
  refine fetch_induction (P := fun c _ d => I c.position.line c.source → I d.position.line d.source)
    ?_ ?_ ?_ ?_ c told h
  · intro c line source r d hn _ ih h
    exact ih (hI.line h hn)
  · intro c line source hn _ h
    exact hI.line h hn
  · intro c source hn h
    exact hI.finish h hn
  · intro c cause source hn h
    exact hI.fail h hn

theorem kept_nextLine {I : Nat → S → Prop} (hI : Kept I) {c d : Cursor S}
    {r : Except LexFailure Bool} {events : List Log.Event} (hn : c.nextLine = ⟨r, d, events⟩)
    (h : I c.position.line c.source) : I d.position.line d.source := by
  cases he : c.exhausted with
  | true =>
    rw [nextLine_of_exhausted he] at hn
    cases hn
    exact h
  | false =>
    rw [nextLine_of_not_exhausted he] at hn
    have hk := kept_fetch hI [] h
    rwa [hn] at hk

theorem not_exhausted_of_nextLine {c d : Cursor S} {r : Except LexFailure Bool}
    {events : List Log.Event} (h : c.nextLine = ⟨r, d, events⟩) (hr : r ≠ .ok false) :
    c.exhausted = false := by
  by_contra he
  rw [nextLine_of_exhausted (by simpa using he)] at h
  cases h
  exact hr rfl

end Cursor

namespace Lexer

variable {S : Type} [LineSource S] {x y : Lexer S}

/-! ### Turns -/

theorem turn_emit {token : Token} (h : x.state.step x.cursor.peek = .emit token) :
    x.turn =
      .answered ⟨.ok (some token), { x with state := .start }, [.tokenProduced token x.position]⟩ := by
  rw [turn, h]

theorem turn_reject {reason : Rejection} (h : x.state.step x.cursor.peek = .reject reason) :
    x.turn = .answered ⟨.error (.rejected ⟨reason, x.position, x.cursor.line⟩), x,
      [.characterRefused ⟨reason, x.position, x.cursor.line⟩]⟩ := by
  rw [turn, h]

theorem turn_take {c : Char} {rest : List Char} {state : State} (ha : x.cursor.ahead = c :: rest)
    (h : x.state.step (some c) = .take state) :
    x.turn = .took
      ⟨{ x.cursor with ahead := rest, position := x.cursor.position.nextColumn }, state⟩ := by
  have hp : x.cursor.peek = some c := by rw [Cursor.peek, ha, List.head?_cons]
  have ht := Cursor.take?_eq_some_iff.2 ⟨rest, ha, rfl⟩
  rw [turn, hp, h]
  simp only [ht]

omit [LineSource S] in
theorem step_line_end (ha : x.cursor.ahead = []) (hs : x.state = .start) :
    x.state.step x.cursor.peek = .take .start ∧ x.cursor.take? = none := by
  rw [hs, Cursor.peek, Cursor.take?, ha]
  exact ⟨rfl, rfl⟩

theorem turn_refill {cursor : Cursor S} {events : List Log.Event} (ha : x.cursor.ahead = [])
    (hs : x.state = .start) (hn : x.cursor.nextLine = ⟨.ok true, cursor, events⟩) :
    x.turn = .refilled ⟨cursor, .start⟩ events := by
  rw [turn, (step_line_end ha hs).1]
  simp only [(step_line_end ha hs).2, hn]

theorem turn_finish {cursor : Cursor S} {events : List Log.Event} (ha : x.cursor.ahead = [])
    (hs : x.state = .start) (hn : x.cursor.nextLine = ⟨.ok false, cursor, events⟩) :
    x.turn = .answered ⟨.ok none, ⟨cursor, .start⟩, events ++ [.inputEnded]⟩ := by
  rw [turn, (step_line_end ha hs).1]
  simp only [(step_line_end ha hs).2, hn]

theorem turn_fail {cursor : Cursor S} {failure : LexFailure} {events : List Log.Event}
    (ha : x.cursor.ahead = []) (hs : x.state = .start)
    (hn : x.cursor.nextLine = ⟨.error failure, cursor, events⟩) :
    x.turn = .answered ⟨.error failure, ⟨cursor, .start⟩, events⟩ := by
  rw [turn, (step_line_end ha hs).1]
  simp only [(step_line_end ha hs).2, hn]

/-- What a turn can be: a character taken, a token given out, a character refused, or, at the end
of a line and between tokens, what came of going to the next line. -/
inductive Turns (x : Lexer S) : Turn S → Prop
  | take {c : Char} {rest : List Char} {state : State} :
      x.cursor.ahead = c :: rest → x.state.step (some c) = .take state →
      Turns x (.took
        ⟨{ x.cursor with ahead := rest, position := x.cursor.position.nextColumn }, state⟩)
  | emit {token : Token} {events : List Log.Event} :
      x.state.step x.cursor.peek = .emit token →
      Turns x (.answered ⟨.ok (some token), { x with state := .start }, events⟩)
  | reject {reason : Rejection} {events : List Log.Event} :
      x.state.step x.cursor.peek = .reject reason →
      Turns x (.answered ⟨.error (.rejected ⟨reason, x.position, x.cursor.line⟩), x, events⟩)
  | refill {cursor : Cursor S} {events : List Log.Event} :
      x.cursor.ahead = [] → x.state = .start → x.cursor.nextLine = ⟨.ok true, cursor, events⟩ →
      Turns x (.refilled ⟨cursor, .start⟩ events)
  | finish {cursor : Cursor S} {events events' : List Log.Event} :
      x.cursor.ahead = [] → x.state = .start → x.cursor.nextLine = ⟨.ok false, cursor, events⟩ →
      Turns x (.answered ⟨.ok none, ⟨cursor, .start⟩, events'⟩)
  | fail {cursor : Cursor S} {failure : LexFailure} {events events' : List Log.Event} :
      x.cursor.ahead = [] → x.state = .start →
      x.cursor.nextLine = ⟨.error failure, cursor, events⟩ →
      Turns x (.answered ⟨.error failure, ⟨cursor, .start⟩, events'⟩)

theorem turns (x : Lexer S) : Turns x x.turn := by
  cases hs : x.state.step x.cursor.peek with
  | emit token => exact turn_emit hs ▸ .emit hs
  | reject reason => exact turn_reject hs ▸ .reject hs
  | take state =>
    cases ha : x.cursor.ahead with
    | cons c rest =>
      have hc : x.state.step (some c) = .take state := by
        rwa [Cursor.peek, ha, List.head?_cons] at hs
      exact turn_take ha hc ▸ .take ha hc
    | nil =>
      rw [Cursor.peek, ha, List.head?_nil] at hs
      -- only the start state can take the end of a line
      have hstart := (State.eq_start_of_step_none hs).1
      match hn : x.cursor.nextLine with
      | ⟨.ok true, cursor, events⟩ => exact turn_refill ha hstart hn ▸ .refill ha hstart hn
      | ⟨.ok false, cursor, events⟩ => exact turn_finish ha hstart hn ▸ .finish ha hstart hn
      | ⟨.error failure, cursor, events⟩ => exact turn_fail ha hstart hn ▸ .fail ha hstart hn

/-! ### Requests, turn by turn -/

theorem next_of_took (h : x.turn = .took y) : x.next = y.next := by
  rw [next, answer_of_took _ h, next]

theorem next_of_refilled {events : List Log.Event} (h : x.turn = .refilled y events) :
    x.next.result = y.next.result ∧ x.next.after = y.next.after := by
  rw [next, answer_of_refilled _ h, next, answer_eq, answer_eq y [_]]
  exact ⟨rfl, rfl⟩

theorem next_of_answered {reply : Reply (Option Token) (Lexer S)} (h : x.turn = .answered reply) :
    x.next.result = reply.result ∧ x.next.after = reply.after := by
  rw [next, answer_of_answered _ h]
  exact ⟨rfl, rfl⟩

/-- What holds of a lexer after every turn that is an answer holds of it after a request. -/
theorem next_induction {P : Lexer S → Result → Lexer S → Prop}
    (took : ∀ {x y r z}, x.turn = .took y → P y r z → P x r z)
    (refilled : ∀ {x y events r z}, x.turn = .refilled y events → P y r z → P x r z)
    (answered : ∀ {x reply}, x.turn = .answered reply → P x reply.result reply.after)
    (x : Lexer S) : P x x.next.result x.next.after := by
  -- a turn that is no answer leaves less to read, and the request is that of the next lexer
  match hx : x.turn with
  | .took y =>
    rw [next_of_took hx]
    exact took hx (next_induction (P := P) took refilled answered y)
  | .refilled y events =>
    rw [(next_of_refilled hx).1, (next_of_refilled hx).2]
    exact refilled hx (next_induction (P := P) took refilled answered y)
  | .answered reply =>
    rw [(next_of_answered hx).1, (next_of_answered hx).2]
    exact answered hx
termination_by x
decreasing_by
  · exact less_of_took hx
  · exact less_of_refilled hx

/-! ### What a request leaves behind -/

/-- A lexer that has reached the end of its input. -/
structure Finished (x : Lexer S) : Prop where
  state : x.state = .start
  ahead : x.cursor.ahead = []
  exhausted : x.cursor.exhausted = true

/-- A lexer that stands before a character it refuses. -/
def Refuses (x : Lexer S) (error : LexError) : Prop :=
  ∃ events, x.turn = .answered ⟨.error (.rejected error), x, events⟩

/-- A lexer that stands behind a line, with no part of a token, and may ask its source again. -/
structure Waiting (x : Lexer S) : Prop where
  state : x.state = .start
  ahead : x.cursor.ahead = []
  exhausted : x.cursor.exhausted = false

/-- How a lexer stands after a request with a given result. -/
def Leaves : Result → Lexer S → Prop
  | .ok (some _), x => x.state = .start
  | .ok none, x => x.Finished
  | .error (.rejected error), x => x.Refuses error
  | .error (.unreadable line _), x => x.Waiting ∧ line = x.position.line + 1

theorem leaves_of_answered {reply : Reply (Option Token) (Lexer S)} (h : x.turn = .answered reply) :
    Leaves reply.result reply.after := by
  have ht := turns x
  rw [h] at ht
  cases ht with
  | emit hs => rfl
  -- the state still holds what it held of a token, so the character is refused once more
  | reject hs => exact ⟨_, turn_reject hs⟩
  | finish ha hs hn =>
    obtain ⟨hex, hah⟩ := Cursor.fetched_nextLine hn
    exact ⟨rfl, hah ha, hex⟩
  | fail ha hs hn =>
    obtain ⟨⟨cause, rfl⟩, hex, hah⟩ := Cursor.fetched_nextLine hn
    exact ⟨⟨rfl, hah ha, hex.trans (Cursor.not_exhausted_of_nextLine hn (by simp))⟩, rfl⟩

theorem next_leaves (x : Lexer S) : Leaves x.next.result x.next.after :=
  next_induction (P := fun _ r z => Leaves r z) (fun _ h => h) (fun _ h => h)
    (fun h => leaves_of_answered h) x

/-- A request leaves no token begun, unless it has refused a character. -/
theorem start_or_rejected (x : Lexer S) :
    x.next.after.state = .start ∨
      ∃ error, x.next.result = .error (.rejected error) ∧ x.next.after.Refuses error := by
  have hl := x.next_leaves
  -- the cases are those of `Leaves`, so the result and the lexer are made variables
  generalize x.next.result = r at hl
  generalize x.next.after = z at hl
  match r, hl with
  | .ok (some _), hl => exact .inl hl
  | .ok none, hl => exact .inl hl.state
  | .error (.rejected error), hl => exact .inr ⟨error, rfl, hl⟩
  | .error (.unreadable _ _), hl => exact .inl hl.1.state

/-- After the end every request answers with the end, and leaves the lexer as it is. -/
theorem Finished.next (h : x.Finished) : x.next.result = .ok none ∧ x.next.after = x := by
  have hn := Cursor.nextLine_of_exhausted h.exhausted
  obtain ⟨hr, ha⟩ := next_of_answered (turn_finish h.ahead h.state hn)
  refine ⟨hr, ha.trans ?_⟩
  -- the answer sets the state to the start, which it was already
  rw [← h.state]

theorem Refuses.next {error : LexError} (h : x.Refuses error) :
    x.next.result = .error (.rejected error) ∧ x.next.after = x := by
  obtain ⟨events, ht⟩ := h
  exact next_of_answered ht

theorem kept_turn {I : Nat → S → Prop} (hI : Kept I) (h : I x.position.line x.cursor.source) :
    match x.turn with
    | .took y => I y.position.line y.cursor.source
    | .refilled y _ => I y.position.line y.cursor.source
    | .answered reply => I reply.after.position.line reply.after.cursor.source := by
  have ht := turns x
  -- only the three cases that go to the next line ask the source
  generalize x.turn = t at ht
  cases ht with
  | take ha hs => exact h
  | emit hs => exact h
  | reject hs => exact h
  | refill ha hs hn => exact Cursor.kept_nextLine hI hn h
  | finish ha hs hn => exact Cursor.kept_nextLine hI hn h
  | fail ha hs hn => exact Cursor.kept_nextLine hI hn h

theorem kept_next {I : Nat → S → Prop} (hI : Kept I) (h : I x.position.line x.cursor.source) :
    I x.next.after.position.line x.next.after.cursor.source := by
  -- the first turns keep the invariant for the request behind them
  refine next_induction (P := fun x _ z => I x.position.line x.cursor.source →
    I z.position.line z.cursor.source) ?_ ?_ ?_ x h
  · intro x y r z hx ih h
    have hk := kept_turn hI h
    rw [hx] at hk
    exact ih hk
  · intro x y events r z hx ih h
    have hk := kept_turn hI h
    rw [hx] at hk
    exact ih hk
  · intro x reply hx h
    have hk := kept_turn hI h
    rw [hx] at hk
    exact hk

/-! ### Many requests -/

/-- The lexer after `n` requests. -/
def after (x : Lexer S) (n : Nat) : Lexer S := (fun y => y.next.after)^[n] x

/-- The results of the first `n` requests, in order. -/
def results (x : Lexer S) : Nat → List Result
  | 0 => []
  | n + 1 => x.next.result :: x.next.after.results n

/-- What the first `n` requests report, in order. -/
def reports (x : Lexer S) : Nat → List Log.Event
  | 0 => []
  | n + 1 => x.next.events ++ x.next.after.reports n

@[simp] theorem after_zero (x : Lexer S) : x.after 0 = x := rfl

theorem after_succ (x : Lexer S) (n : Nat) : x.after (n + 1) = x.next.after.after n := rfl

theorem after_succ' (x : Lexer S) (n : Nat) : x.after (n + 1) = (x.after n).next.after :=
  Function.iterate_succ_apply' _ n x

/-- What is kept when the source is asked is kept by any number of requests. -/
theorem kept_after {I : Nat → S → Prop} (hI : Kept I) (h : I x.position.line x.cursor.source)
    (n : Nat) : I (x.after n).position.line (x.after n).cursor.source := by
  induction n with
  | zero => exact h
  | succ n ih =>
    rw [after_succ']
    exact kept_next hI ih

theorem after_eq_self (h : x.next.after = x) (n : Nat) : x.after n = x :=
  Function.iterate_fixed h n

variable {r : Result} {rs : List Result}

/-- `x.Gives rs` says that the first requests have the results `rs`. -/
def Gives (x : Lexer S) (rs : List Result) : Prop := x.results rs.length = rs

theorem gives_nil (x : Lexer S) : x.Gives [] := rfl

theorem gives_cons_iff : x.Gives (r :: rs) ↔ x.next.result = r ∧ x.next.after.Gives rs := by
  rw [Gives, List.length_cons, results, List.cons.injEq, Gives]

theorem Gives.of_took (h : x.turn = .took y) (hy : y.Gives rs) : x.Gives rs := by
  cases rs with
  | nil => exact gives_nil x
  | cons r rs =>
    rw [gives_cons_iff] at hy ⊢
    rwa [next_of_took h]

theorem Gives.of_refilled {events : List Log.Event} (h : x.turn = .refilled y events)
    (hy : y.Gives rs) : x.Gives rs := by
  cases rs with
  | nil => exact gives_nil x
  | cons r rs =>
    rw [gives_cons_iff] at hy ⊢
    rwa [(next_of_refilled h).1, (next_of_refilled h).2]

theorem Gives.of_answered {reply : Reply (Option Token) (Lexer S)} (h : x.turn = .answered reply)
    (ht : reply.after.Gives rs) : x.Gives (reply.result :: rs) := by
  refine gives_cons_iff.2 ⟨(next_of_answered h).1, ?_⟩
  rwa [(next_of_answered h).2]

end Lexer
end ArithLexer
