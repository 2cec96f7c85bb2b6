import ArithLexer.Proofs.Pending
import ArithLexer.Proofs.Requests

/-!
# The course of a lexer

Requests for tokens are made of turns, one after the other. `Lexer.course` follows a lexer turn by
turn, through as many requests as come, and `course_of_requests` says that every number of requests is
some number of turns. So what every turn keeps holds at every point of every run.

`Lexer.Placed` is what a lexer keeps of its place: its line is cut into what is behind it, the
characters of the token it is reading, and what is ahead, and no run of the line goes on across the
first cut. A token that is given out is then a maximal run of the line (`Placed.emit`).
-/

namespace ArithLexer

open Text (isBlank)

namespace Lexer

variable {S : Type}

/-- The lexer after a turn. -/
@[simp] def Turn.lexer : Turn S → Lexer S
  | took y => y
  | refilled y _ => y
  | answered reply => reply.after

/-- The results that a turn gives: one if it is an answer. -/
@[simp] def Turn.results : Turn S → List Result
  | took _ => []
  | refilled _ _ => []
  | answered reply => [reply.result]

variable [LineSource S] {x : Lexer S}

/-- The results of the first `k` turns, in order, and the lexer after them. -/
def course (x : Lexer S) : Nat → List Result × Lexer S
  | 0 => ([], x)
  | k + 1 => ((x.course k).1 ++ (x.course k).2.turn.results, (x.course k).2.turn.lexer)

theorem course_add (x : Lexer S) (k l : Nat) :
    x.course (k + l) =
      ((x.course k).1 ++ ((x.course k).2.course l).1, ((x.course k).2.course l).2) := by
  -- on the second part, as `course` appends its turns at the end
  induction l with
  | zero => simp [course]
  | succ l ih =>
    rw [← Nat.add_assoc, course, ih, course]
    simp

theorem course_succ' (x : Lexer S) (k : Nat) :
    x.course (k + 1) =
      (x.turn.results ++ (x.turn.lexer.course k).1, (x.turn.lexer.course k).2) := by
  rw [Nat.add_comm, course_add]
  rfl

/-- The results of a course are those of as many requests. -/
theorem gives_course (x : Lexer S) (k : Nat) : x.Gives (x.course k).1 := by
  -- `course_succ'` takes the first turn off, so that the hypothesis is about the lexer behind it
  induction k generalizing x with
  | zero => exact gives_nil x
  | succ k ih =>
    rw [course_succ']
    match hx : x.turn with
    | .took y => exact (ih y).of_took hx
    | .refilled y events => exact (ih y).of_refilled hx
    | .answered reply => exact (ih reply.after).of_answered hx

/-- A request is some number of turns, of which only the last is an answer. -/
theorem answer_of_request (x : Lexer S) : ∃ k y reply, x.course k = ([], y) ∧
    y.turn = .answered reply ∧ reply.result = x.next.result ∧ reply.after = x.next.after := by
  refine next_induction (P := fun x r z => ∃ k y reply, x.course k = ([], y) ∧
    y.turn = .answered reply ∧ reply.result = r ∧ reply.after = z) ?_ ?_ ?_ x
  · rintro x y r z hx ⟨k, w, reply, hk, hw⟩
    refine ⟨k + 1, w, reply, ?_, hw⟩
    rw [course_succ', hx, Turn.results, Turn.lexer, hk, List.nil_append]
  · rintro x y events r z hx ⟨k, w, reply, hk, hw⟩
    refine ⟨k + 1, w, reply, ?_, hw⟩
    rw [course_succ', hx, Turn.results, Turn.lexer, hk, List.nil_append]
  · intro x reply hx
    exact ⟨0, x, reply, rfl, hx, rfl, rfl⟩

theorem course_of_requests (x : Lexer S) (n : Nat) :
    ∃ k, x.course k = (x.results n, x.after n) := by
  induction n generalizing x with
  | zero => exact ⟨0, rfl⟩
  | succ n ih =>
    obtain ⟨k, y, reply, hk, hy, hr, ha⟩ := x.answer_of_request
    obtain ⟨l, hl⟩ := ih x.next.after
    -- the turns before the answer, the answer itself, and the turns of the other requests
    refine ⟨k + (l + 1), ?_⟩
    rw [course_add, hk, course_succ', hy, Turn.results, Turn.lexer, hr, ha, hl]
    rfl

theorem answer_of_requests (x : Lexer S) (n : Nat) : ∃ k y reply, x.course k = (x.results n, y) ∧
    y.turn = .answered reply ∧ reply.result = (x.after n).next.result ∧
      reply.after = x.after (n + 1) := by
  obtain ⟨k, hk⟩ := x.course_of_requests n
  obtain ⟨l, y, reply, hl, hy, hr, ha⟩ := (x.after n).answer_of_request
  refine ⟨k + l, y, reply, ?_, hy, hr, ha.trans (x.after_succ' n).symm⟩
  rw [course_add, hk, hl, List.append_nil]

/-- A token that a request gives is given out by the last turn of that request. -/
theorem emit_of_request {n : Nat} {token : Token} (h : (x.after n).next.result = given token) :
    ∃ k y, x.course k = (x.results n, y) ∧ y.state.step y.cursor.peek = .emit token ∧
      x.after (n + 1) = { y with state := .start } := by
  obtain ⟨k, y, reply, hk, hy, hr, ha⟩ := x.answer_of_requests n
  refine ⟨k, y, hk, ?_⟩
  rw [← ha]
  rw [h] at hr
  have ht := turns y
  rw [hy] at ht
  -- of the answers only one that gives a token has this result
  cases ht with
  | @emit t events hs =>
    obtain rfl : t = token := by simpa [given] using hr
    exact ⟨hs, rfl⟩
  | reject hs => simp [given] at hr
  | finish ha hs hn => simp [given] at hr
  | fail ha hs hn => simp [given] at hr

/-- What every turn keeps holds at every point of the course. -/
theorem course_induction {P : List Result → Lexer S → Prop} (start : P [] x)
    (turn : ∀ {rs y}, P rs y → P (rs ++ y.turn.results) y.turn.lexer) (k : Nat) :
    P (x.course k).1 (x.course k).2 := by
  induction k with
  | zero => exact start
  | succ k ih => exact turn ih

end Lexer

/-! ### The place on the line -/

namespace Cursor

variable {S : Type}

/-- `c.Behind before` says that the cursor stands on its line right behind `before`. -/
structure Behind (c : Cursor S) (before : List Char) : Prop where
  line : c.line.toList = before ++ c.ahead
  column : c.position.column = 1 + before.length

variable [LineSource S]

/-- A fetch leads to the head of a line, or leaves the cursor at the end of one. -/
theorem exists_behind_fetch {c : Cursor S} {before : List Char} (h : c.Behind before)
    (told : List Log.Event) : ∃ before', (c.fetch told).after.Behind before' := by
  refine fetch_induction (P := fun c _ d => (∃ p, c.Behind p) → ∃ p, d.Behind p)
    ?_ ?_ ?_ ?_ c told ⟨before, h⟩
  · intro c line source r d hn he ih _
    -- an empty line is behind and ahead of nothing
    exact ih ⟨[], by simp [atLine, he], rfl⟩
  · intro c line source hn he _
    exact ⟨[], rfl, rfl⟩
  · rintro c source hn ⟨p, hp⟩
    exact ⟨p, hp.line, hp.column⟩
  · rintro c cause source hn ⟨p, hp⟩
    exact ⟨p, hp.line, hp.column⟩

theorem exists_behind_nextLine {c d : Cursor S} {before : List Char} {r : Except LexFailure Bool}
    {events : List Log.Event} (h : c.Behind before) (hn : c.nextLine = ⟨r, d, events⟩) :
    ∃ before', d.Behind before' := by
  cases he : c.exhausted with
  | true =>
    rw [nextLine_of_exhausted he] at hn
    cases hn
    exact ⟨before, h⟩
  | false =>
    rw [nextLine_of_not_exhausted he] at hn
    have hb := exists_behind_fetch h []
    rwa [hn] at hb

end Cursor

namespace Lexer

variable {S : Type}

/-- `x.Placed before u` says that the line of the lexer goes on behind `before` with the characters `u`
of the token that is being read, and that they, or what is ahead where there are none, begin a run. -/
structure Placed (x : Lexer S) (before u : List Char) : Prop where
  behind : x.cursor.Behind (before ++ u)
  pending : x.state.Pending u
  apart : Apart before (u ++ x.cursor.ahead)

theorem placed_start {c : Cursor S} {p : List Char} (h : c.Behind p)
    (hap : Apart p c.ahead) : Placed ⟨c, .start⟩ p [] :=
  ⟨by rwa [List.append_nil], .start, hap⟩

theorem placed_ofSource (source : S) : (ofSource source).Placed [] [] :=
  placed_start ⟨rfl, rfl⟩ (Apart.nil_right [])

variable {x : Lexer S} {before u : List Char}

theorem Placed.eq_nil_of_start (h : x.Placed before u) (hs : x.state = .start) : u = [] := by
  have hp := h.pending
  rw [hs] at hp
  cases hp
  rfl

/-- A token is given out for a maximal run, which ends where the lexer stands. -/
theorem Placed.emit (h : x.Placed before u) {token : Token}
    (hs : x.state.step x.cursor.peek = .emit token) : Lexeme u token ∧ Apart u x.cursor.ahead := by
  -- whether the run ends with the line or before a character
  cases ha : x.cursor.ahead with
  | nil =>
    rw [Cursor.peek, ha, List.head?_nil] at hs
    rcases h.pending.step_none with ⟨hstart, -⟩ | ⟨t, ht, hx⟩
    · exact absurd hstart (State.ne_start_of_step_emit hs)
    · obtain rfl : t = token := by simpa [ht] using hs
      exact ⟨hx, Apart.nil_right u⟩
  | cons c w =>
    rw [Cursor.peek, ha, List.head?_cons] at hs
    -- of what the machine can do with the character, only giving out is a token
    cases h.pending.steps c with
    | pass _ ht _ => simp [ht] at hs
    | take ht _ => simp [ht] at hs
    | @emit t ht hx hap _ =>
      obtain rfl : t = token := by simpa [ht] using hs
      exact ⟨hx, hap w⟩
    | reject ht _ => simp [ht] at hs

/-- A refusal is about a character of the line, which is refused behind all that is before it. -/
theorem Placed.reject (h : x.Placed before u) {reason : Rejection}
    (hs : x.state.step x.cursor.peek = .reject reason) :
    ∃ c rest, x.cursor.ahead = c :: rest ∧ refusal? (before ++ u) c = some reason := by
  cases ha : x.cursor.ahead with
  | nil =>
    rw [Cursor.peek, ha, List.head?_nil] at hs
    rcases h.pending.step_none with ⟨hstart, -⟩ | ⟨t, ht, -⟩
    · rw [hstart] at hs
      cases hs
    · simp [ht] at hs
  | cons c rest =>
    rw [Cursor.peek, ha, List.head?_cons] at hs
    -- no run goes on across the cut in front of `u`, so what is before it does not count
    have hap : Apart before (u ++ [c]) := by
      have hap := h.apart
      rw [ha] at hap
      exact hap.prefix_right (s := rest) (by simp) (by simp)
    refine ⟨c, rest, rfl, ?_⟩
    rw [refusal?_append hap]
    cases h.pending.steps c with
    | pass _ ht _ => simp [ht] at hs
    | take ht _ => simp [ht] at hs
    | emit ht _ _ _ => simp [ht] at hs
    | @reject r ht hr =>
      obtain rfl : r = reason := by simpa [ht] using hs
      exact hr

/-- A character that is taken is a blank that is passed over, or it goes to the token. -/
theorem Placed.take (h : x.Placed before u) {c : Char} {rest : List Char} {state : State}
    (ha : x.cursor.ahead = c :: rest) (hs : x.state.step (some c) = .take state) :
    let y : Lexer S :=
      ⟨{ x.cursor with ahead := rest, position := x.cursor.position.nextColumn }, state⟩
    (u = [] ∧ isBlank c = true ∧ y.Placed (before ++ [c]) []) ∨ y.Placed before (u ++ [c]) := by
  intro y
  have hline := h.behind.line
  have hcolumn : x.cursor.position.nextColumn.column = 1 + (before ++ (u ++ [c])).length := by
    rw [Coordinate.nextColumn, h.behind.column]
    simp only [List.length_append, List.length_singleton]
    omega
  cases h.pending.steps c with
  | pass hnil ht hb =>
    -- the blank joins what is behind
    subst hnil
    obtain rfl : State.start = state := by simpa [ht] using hs
    refine .inl ⟨rfl, hb, placed_start ⟨?_, hcolumn⟩ (.of_blank_left hb _)⟩
    simpa [ha] using hline
  | @take t ht hp =>
    -- the character joins the token, and the cut stays
    obtain rfl : t = state := by simpa [ht] using hs
    refine .inr ⟨⟨?_, hcolumn⟩, hp, ?_⟩
    · simpa [y, ha] using hline
    · simpa [y, ha] using h.apart
  | emit ht _ _ _ => simp [ht] at hs
  | reject ht _ => simp [ht] at hs

variable [LineSource S]

/-- A turn keeps a lexer at some place. -/
theorem Placed.turn (h : x.Placed before u) : ∃ before' u', x.turn.lexer.Placed before' u' := by
  have ht := turns x
  generalize x.turn = t at ht
  cases ht with
  | take ha hs =>
    rcases h.take ha hs with ⟨-, -, hp⟩ | hp
    · exact ⟨_, _, hp⟩
    · exact ⟨_, _, hp⟩
  | @emit token events hs =>
    -- the character that ends the run is left, so another run begins there
    obtain ⟨hx, hap⟩ := h.emit hs
    refine ⟨before ++ u, [], placed_start h.behind ?_⟩
    intro a hlast b hb
    rw [List.getLast?_append_of_ne_nil _ hx.ne_nil] at hlast
    exact hap a hlast b hb
  | reject hs => exact ⟨before, u, h⟩
  | refill ha hs hn =>
    obtain ⟨hline, -, hcolumn, -⟩ := Cursor.fetched_nextLine hn
    exact ⟨[], [], placed_start ⟨hline.symm, hcolumn⟩ (Apart.nil_left _)⟩
  | finish ha hs hn =>
    -- the line is still the one that has been read to its end
    obtain ⟨p, hp⟩ := Cursor.exists_behind_nextLine h.behind hn
    exact ⟨p, [], placed_start hp ((Cursor.fetched_nextLine hn).2 ha ▸ Apart.nil_right p)⟩
  | fail ha hs hn =>
    obtain ⟨p, hp⟩ := Cursor.exists_behind_nextLine h.behind hn
    exact ⟨p, [], placed_start hp ((Cursor.fetched_nextLine hn).2.2 ha ▸ Apart.nil_right p)⟩

/-- At every point of the course the lexer has some place on its line. -/
theorem placed_course (source : S) (k : Nat) :
    ∃ before u, ((ofSource source).course k).2.Placed before u :=
  course_induction (P := fun _ y => ∃ before u, y.Placed before u) ⟨[], [], placed_ofSource source⟩
    (fun ⟨_, _, h⟩ => h.turn) k

/-- Every token that a request gives is written on the line as a lexeme. -/
theorem lexeme_of_request {source : S} {n : Nat} {token : Token}
    (h : ((ofSource source).after n).next.result = given token) : ∃ u, Lexeme u token := by
  obtain ⟨k, y, hk, hy, -⟩ := emit_of_request h
  obtain ⟨before, u, hp⟩ := placed_course source k
  rw [hk] at hp
  exact ⟨u, (hp.emit hy).1⟩

/-- A refused character stands on the line of the failure, at its column. -/
theorem refusal_of_request {source : S} {n : Nat} {error : LexError}
    (h : ((ofSource source).after n).next.result = .error (.rejected error)) :
    ∃ before c behind, error.line.toList = before ++ c :: behind ∧
      error.position.column = 1 + before.length ∧ refusal? before c = some error.reason := by
  obtain ⟨k, y, reply, hk, hy, hr, -⟩ := (ofSource source).answer_of_requests n
  obtain ⟨before, u, hp⟩ := placed_course source k
  rw [hk] at hp
  rw [h] at hr
  have ht := turns y
  rw [hy] at ht
  cases ht with
  | emit hs => cases hr
  | finish ha hs hn => cases hr
  | fail ha hs hn =>
    obtain ⟨⟨cause, rfl⟩, -⟩ := Cursor.fetched_nextLine hn
    cases hr
  | @reject reason events hs =>
    obtain ⟨c, behind, ha, hc⟩ := hp.reject hs
    cases hr
    refine ⟨before ++ u, c, behind, ?_, hp.behind.column, hc⟩
    -- the line, cut behind what has been read of it
    rw [← ha]
    exact hp.behind.line

end Lexer
end ArithLexer
