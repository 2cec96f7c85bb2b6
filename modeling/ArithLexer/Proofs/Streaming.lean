import ArithLexer.Proofs.Course
import ArithLexer.Proofs.Persistence
import ArithLexer.Proofs.Sources

/-!
# Streaming

How far a lexer has read into its source, at every point of every run. `LineSource.told` lists what a
source has been asked for, and `Lexer.Account` is the account that a lexer keeps of it: its position
counts the lines, its results show the failures, and it knows of the end, behind which it never asks.
While it has something left of a line, or holds a part of a token, that line is the last thing it has
asked for.

So a token is given out before the next line is asked for, and what a request gives cannot depend on
what is still to come. The main statement, `lexer_streams`, is about a lexer over any source.
-/

namespace ArithLexer

/-- What a source says, as an answer of a script. -/
def Answer.ofResult : Except IoError (Option String) → Answer
  | .ok (some text) => .line text
  | .ok none => .finish
  | .error cause => .failure cause

/-- Whether an answer is a failure. -/
def Answer.isFailure : Answer → Bool
  | .failure _ => true
  | _ => false

/-- Whether a result tells that a line could not be read. -/
def Result.isUnreadable : Result → Bool
  | .error (.unreadable _ _) => true
  | _ => false

/-- Every answer is a line, the end or a failure. -/
theorem Answer.length_eq (answers : List Answer) :
    answers.length =
      lineCount answers + answers.countP Answer.isFailure + answers.count .finish := by
  induction answers with
  | nil => rfl
  | cons answer rest ih =>
    rw [lineCount] at ih ⊢
    cases answer <;> simp [List.countP_cons, Answer.isLine, Answer.isFailure, ih] <;> omega

section
variable {S : Type} [LineSource S]

namespace LineSource

/-- The answers of a source to its first `n` questions. -/
def told (s : S) (n : Nat) : List Answer :=
  (List.range n).map fun i => Answer.ofResult (answer s i)

@[simp] theorem length_told (s : S) (n : Nat) : (told s n).length = n := by
  simp [told]

theorem told_succ (s : S) (n : Nat) : told s (n + 1) = told s n ++ [.ofResult (answer s n)] := by
  rw [told, List.range_succ, List.map_append]
  rfl

end LineSource

open LineSource (told)

variable {s : S}

theorem Asked.told_next {t t' : Counted S} {result : Except IoError (Option String)}
    (h : Asked s t) (hn : LineSource.next t = (result, t')) :
    Asked s t' ∧ told s t'.pulls = told s t.pulls ++ [.ofResult result] := by
  obtain ⟨hr, ha, hp⟩ := h.next
  rw [hn] at hr ha hp
  have hp : t'.pulls = t.pulls + 1 := hp
  have hr : result = LineSource.answer s t.pulls := hr
  exact ⟨ha, by rw [hp, hr, LineSource.told_succ]⟩

/-! ### What a fetch asks for -/

@[simp] theorem countP_isFailure_skipped (n : Nat) :
    (List.replicate n (Answer.line "")).countP Answer.isFailure = 0 := by
  simp [List.countP_replicate, Answer.isFailure]

@[simp] theorem count_finish_skipped (n : Nat) :
    (List.replicate n (Answer.line "")).count .finish = 0 := by
  simp [List.count_replicate]

namespace Cursor

/-- `c.Asks s last d` says that a cursor over `s` has gone from `c` to `d` by asking for some empty
lines and for one more answer, which is `last`. -/
def Asks (s : S) (c : Cursor (Counted S)) (last : Answer) (d : Cursor (Counted S)) : Prop :=
  ∃ n, told s d.source.pulls =
    told s c.source.pulls ++ List.replicate n (.line "") ++ [last]

/-- What the result of a fetch tells of the last answer. -/
def Tells {S : Type} (d : Cursor S) : Except LexFailure Bool → Answer → Prop
  | .ok true, last => last = .line d.line
  | .ok false, last => last = .finish
  | .error failure, last => ∃ line cause, failure = .unreadable line cause ∧ last = .failure cause

theorem Asks.single {c d : Cursor (Counted S)} {last : Answer}
    (h : told s d.source.pulls = told s c.source.pulls ++ [last]) : c.Asks s last d :=
  ⟨0, by simpa using h⟩

theorem Asks.skip {b c d : Cursor (Counted S)} {last : Answer} (h : c.Asks s last d)
    (hb : told s c.source.pulls = told s b.source.pulls ++ [.line ""]) : b.Asks s last d := by
  obtain ⟨n, hn⟩ := h
  refine ⟨n + 1, ?_⟩
  rw [hn, hb, List.replicate_succ]
  simp

/-- A fetch asks for lines up to one that is not empty, or to an answer that is no line. -/
theorem asks_fetch {c : Cursor (Counted S)} (h : Asked s c.source) (events : List Log.Event) :
    ∃ last, c.Asks s last (c.fetch events).after ∧
      (c.fetch events).after.Tells (c.fetch events).result last := by
  refine fetch_induction (P := fun c r d => Asked s c.source →
    ∃ last, c.Asks s last d ∧ d.Tells r last) ?_ ?_ ?_ ?_ c events h
  · intro c line source r d hn he ih h
    obtain rfl : line = "" := String.toList_eq_nil_iff.1 he
    obtain ⟨ha, ht⟩ := h.told_next hn
    obtain ⟨last, hasks, htells⟩ := ih ha
    exact ⟨last, hasks.skip ht, htells⟩
  · intro c line source hn _ h
    exact ⟨_, Asks.single (h.told_next hn).2, rfl⟩
  · intro c source hn h
    exact ⟨_, Asks.single (h.told_next hn).2, rfl⟩
  · intro c cause source hn h
    exact ⟨_, Asks.single (h.told_next hn).2, _, _, rfl, rfl⟩

theorem asks_nextLine {c d : Cursor (Counted S)} {r : Except LexFailure Bool}
    {events : List Log.Event} (h : Asked s c.source) (hn : c.nextLine = ⟨r, d, events⟩) :
    (c.exhausted = true ∧ r = .ok false ∧ d = c) ∨
      (c.exhausted = false ∧ ∃ last, c.Asks s last d ∧ d.Tells r last) := by
  cases he : c.exhausted with
  | true =>
    rw [nextLine_of_exhausted he] at hn
    cases hn
    exact .inl ⟨rfl, rfl, rfl⟩
  | false =>
    rw [nextLine_of_not_exhausted he] at hn
    have ha := asks_fetch h []
    rw [hn] at ha
    exact .inr ⟨rfl, ha⟩

end Cursor

/-! ### The account -/

namespace Lexer

/-- A lexer over a source that has not been asked, and that counts how often it is. -/
def counting (s : S) : Lexer (Counted S) := ofSource ⟨s, 0⟩

/-- How often the source has been asked. -/
abbrev pulls (x : Lexer (Counted S)) : Nat := x.cursor.source.pulls

/-- The account of a lexer over `s` that has given the results `rs` so far. -/
structure Account (s : S) (rs : List Result) (x : Lexer (Counted S)) : Prop where
  asked : Asked s x.cursor.source
  lines : x.position.line = lineCount (told s x.pulls)
  failures : rs.countP Result.isUnreadable = (told s x.pulls).countP Answer.isFailure
  ends : (told s x.pulls).count .finish = if x.cursor.exhausted then 1 else 0
  /-- A line that is not done with is the last thing that was asked for. -/
  current : x.cursor.ahead ≠ [] ∨ x.state ≠ .start →
    (told s x.pulls).getLast? = some (.line x.cursor.line)

variable {rs : List Result} {x : Lexer (Counted S)}

theorem account_counting (s : S) : Account s [] (counting s) :=
  ⟨rfl, rfl, rfl, rfl, by simp [counting, ofSource, Cursor.ofSource]⟩

/-- The number of questions is what the position, the results and the end account for. -/
theorem Account.pulls_eq (h : x.Account s rs) :
    x.pulls = x.position.line + rs.countP Result.isUnreadable +
      if .finish ∈ told s x.pulls then 1 else 0 := by
  -- the end is counted once at most, as a cursor that knows of it asks no more
  have hend : (told s x.pulls).count .finish =
      if .finish ∈ told s x.pulls then 1 else 0 := by
    have hmem : .finish ∈ told s x.pulls ↔ x.cursor.exhausted = true := by
      rw [← List.count_pos_iff, h.ends]
      cases x.cursor.exhausted <;> simp
    simp only [hmem, h.ends]
  rw [← hend, h.lines, h.failures, ← Answer.length_eq, LineSource.length_told]

theorem kept_lineCount (s : S) :
    Kept fun n t => Asked s t ∧ n = lineCount (told s t.pulls) where
  line := by
    -- one more line, and one more in the count; the other answers are no lines
    rintro n t t' text ⟨h, rfl⟩ hn
    obtain ⟨ha, ht⟩ := h.told_next hn
    exact ⟨ha, by rw [ht]; simp [lineCount, Answer.ofResult, Answer.isLine]⟩
  finish := by
    rintro n t t' ⟨h, rfl⟩ hn
    obtain ⟨ha, ht⟩ := h.told_next hn
    exact ⟨ha, by rw [ht]; simp [lineCount, Answer.ofResult, Answer.isLine]⟩
  fail := by
    rintro n t t' cause ⟨h, rfl⟩ hn
    obtain ⟨ha, ht⟩ := h.told_next hn
    exact ⟨ha, by rw [ht]; simp [lineCount, Answer.ofResult, Answer.isLine]⟩

/-- A turn keeps the account. -/
theorem Account.turn (h : x.Account s rs) :
    x.turn.lexer.Account s (rs ++ x.turn.results) := by
  -- the number of the line is known to be kept; what is left are the failures, the end and the
  -- current line, by the kind of turn
  have hk := kept_turn (kept_lineCount s) ⟨h.asked, h.lines⟩
  have ht := turns x
  generalize x.turn = t at ht hk
  cases ht with
  | take ha hs =>
    exact ⟨h.asked, h.lines, by simpa using h.failures, h.ends,
      fun _ => h.current (.inl (by simp [ha]))⟩
  | emit hs =>
    refine ⟨h.asked, h.lines, by simpa [Result.isUnreadable] using h.failures, h.ends, fun _ => ?_⟩
    exact h.current (.inr (State.ne_start_of_step_emit hs))
  | reject hs =>
    exact ⟨h.asked, h.lines, by simpa [Result.isUnreadable] using h.failures, h.ends, h.current⟩
  | @refill d events ha hs hn =>
    obtain ⟨-, -, -, hex⟩ := Cursor.fetched_nextLine hn
    -- an exhausted cursor finds no line
    rcases Cursor.asks_nextLine h.asked hn with ⟨-, hr, -⟩ | ⟨he, last, ⟨n, htold⟩, rfl⟩
    · cases hr
    · refine ⟨hk.1, hk.2, ?_, ?_, fun _ => ?_⟩
      · simpa [htold, Answer.isFailure] using h.failures
      · simpa [htold, hex] using h.ends
      · simp [htold]
  | @finish d events events' ha hs hn =>
    obtain ⟨hex, had⟩ := Cursor.fetched_nextLine hn
    have hcurrent : ¬ (d.ahead ≠ [] ∨ State.start ≠ .start) := by simp [had ha]
    -- either the end was known, and nothing is asked for, or this is the first time it is met
    rcases Cursor.asks_nextLine h.asked hn with ⟨-, -, rfl⟩ | ⟨he, last, ⟨n, htold⟩, rfl⟩
    · exact ⟨hk.1, hk.2, by simpa [Result.isUnreadable] using h.failures, h.ends,
        fun hc => absurd hc hcurrent⟩
    · refine ⟨hk.1, hk.2, ?_, ?_, fun hc => absurd hc hcurrent⟩
      · simpa [htold, Answer.isFailure, Result.isUnreadable] using h.failures
      · simpa [htold, hex, he] using h.ends
  | @fail d failure events events' ha hs hn =>
    obtain ⟨-, hex, had⟩ := Cursor.fetched_nextLine hn
    have hcurrent : ¬ (d.ahead ≠ [] ∨ State.start ≠ .start) := by simp [had ha]
    rcases Cursor.asks_nextLine h.asked hn with
      ⟨-, hr, -⟩ | ⟨he, last, ⟨n, htold⟩, line, cause, rfl, rfl⟩
    · cases hr
    · refine ⟨hk.1, hk.2, ?_, ?_, fun hc => absurd hc hcurrent⟩
      · simpa [htold, Answer.isFailure, Result.isUnreadable] using h.failures
      · simpa [htold, hex, he] using h.ends

/-- A turn asks for nothing, or it stands behind a line, with no part of a token, and asks for some
empty lines and for one more answer. -/
theorem Account.turn_asks (h : x.Account s rs) :
    x.turn.lexer.pulls = x.pulls ∨ x.cursor.ahead = [] ∧ x.state = .start ∧
      ∃ n last, told s x.turn.lexer.pulls =
        told s x.pulls ++ List.replicate n (.line "") ++ [last] := by
  have ht := turns x
  generalize x.turn = t at ht
  -- only the three turns at the end of a line ask
  cases ht with
  | take ha hs => exact .inl rfl
  | emit hs => exact .inl rfl
  | reject hs => exact .inl rfl
  | refill ha hs hn | finish ha hs hn | fail ha hs hn =>
    rcases Cursor.asks_nextLine h.asked hn with ⟨-, -, rfl⟩ | ⟨-, last, ⟨n, htold⟩, -⟩
    · exact .inl rfl
    · exact .inr ⟨ha, hs, n, last, htold⟩

theorem account_course (s : S) (k : Nat) :
    ((counting s).course k).2.Account s ((counting s).course k).1 :=
  course_induction (account_counting s) Account.turn k

end Lexer

/-! ### Causality -/

/-- Two sources whose first `m` answers are the same answer alike within `m` questions. -/
theorem answeringWithin_of_answer_eq {T : Type} [LineSource T] {t : T} {m : Nat}
    (h : ∀ i < m, LineSource.answer t i = LineSource.answer s i) :
    AnsweringWithin (fun u : Counted S => u.pulls ≤ m)
      fun (u : Counted S) (v : Counted T) => Asked s u ∧ Asked t v ∧ v.pulls = u.pulls where
  agree := by
    rintro u v ⟨hu, hv, hp⟩ hm
    obtain ⟨hur, hu', hup⟩ := hu.next
    obtain ⟨hvr, hv', hvp⟩ := hv.next
    refine ⟨?_, hu', hv', by rw [hup, hvp, hp]⟩
    -- this question is among the first `m`, as its answer leaves the source within them
    rw [hur, hvr, hp, h _ (by omega)]
  inside hm := Nat.le_of_succ_le hm

namespace Lexer

/-- What comes behind the first `m` answers has no influence on a request that needs no more. -/
theorem next_of_answer_eq {T : Type} [LineSource T] {t : T} {m n : Nat}
    (h : ∀ i < m, LineSource.answer t i = LineSource.answer s i)
    (hm : ((counting s).after (n + 1)).pulls ≤ m) :
    ((counting t).after n).next.result = ((counting s).after n).next.result ∧
      ((counting t).after (n + 1)).position = ((counting s).after (n + 1)).position ∧
      ((counting t).after (n + 1)).pulls = ((counting s).after (n + 1)).pulls := by
  -- the sources are in step as long as no more than `m` answers have been asked for
  have hR := answeringWithin_of_answer_eq h
  have hasked : Asked s ⟨s, 0⟩ ∧ Asked t ⟨t, 0⟩ ∧ 0 = 0 := ⟨rfl, rfl, rfl⟩
  have hstart := follows_ofSource (R := fun (u : Counted S) (v : Counted T) =>
    Asked s u ∧ Asked t v ∧ v.pulls = u.pulls) hasked True
  have hend := hstart.after_within hR (n + 1) hm
  refine ⟨?_, hend.position_eq, hend.cursor.source.2.2⟩
  rw [after_succ'] at hm
  -- a source is not asked less, so it was within `m` before the last request, too
  have hbefore : ((counting s).after n).pulls ≤ m := by
    by_contra hn
    exact kept_next hR.kept_outside hn hm
  have hr := ((hstart.after_within hR n hbefore).next_within hR hm).1
  rwa [Result.below_zero] at hr

/-- A lexer streams. Requests are made of turns, and at every point of their course the number of
questions to the source is the number of the line, and one more for each failure that was given and
for the end. A turn asks only behind the last character of a line, with no part of a token held, and
behind the first of its answers only if they are empty lines. A token is given out while the line on
which it is a maximal run is the last answer of the source. And over any other source that starts
with the same `m` answers, a request that needs no more of them has the same result, and leaves the
same position after the same number of questions. -/
theorem lexer_streams (s : S) :
    (∀ n, ∃ k, (counting s).course k = ((counting s).results n, (counting s).after n)) ∧
    (∀ k, let rs := ((counting s).course k).1
      let y := ((counting s).course k).2
      let z := ((counting s).course (k + 1)).2
      y.pulls = y.position.line + rs.countP Result.isUnreadable +
        (if .finish ∈ told s y.pulls then 1 else 0) ∧
      (z.pulls = y.pulls ∨ y.cursor.ahead = [] ∧ y.state = .start ∧
        ∃ n last, told s z.pulls = told s y.pulls ++ List.replicate n (.line "") ++ [last])) ∧
    (∀ n token, ((counting s).after n).next.result = given token →
      let y := (counting s).after (n + 1)
      (told s y.pulls).getLast? = some (.line y.cursor.line) ∧
      y.position.line = lineCount (told s y.pulls) ∧
      ∃ before u, y.cursor.line.toList = before ++ u ++ y.cursor.ahead ∧
        y.position.column = 1 + (before ++ u).length ∧
        Lexeme u token ∧ Apart before (u ++ y.cursor.ahead) ∧ Apart u y.cursor.ahead) ∧
    ∀ (T : Type) [LineSource T] (t : T) (m : Nat),
      (∀ i < m, LineSource.answer t i = LineSource.answer s i) →
      ∀ n, ((counting s).after (n + 1)).pulls ≤ m →
        ((counting t).after n).next.result = ((counting s).after n).next.result ∧
        ((counting t).after (n + 1)).position = ((counting s).after (n + 1)).position ∧
        ((counting t).after (n + 1)).pulls = ((counting s).after (n + 1)).pulls := by
  refine ⟨(counting s).course_of_requests, ?_, ?_, fun T _ t m h n hm => next_of_answer_eq h hm⟩
  · intro k rs y z
    have h : y.Account s rs := account_course s k
    exact ⟨h.pulls_eq, h.turn_asks⟩
  · intro n token hn y
    -- the token comes out of the last turn of its request
    obtain ⟨k, w, hk, hs, hw⟩ := emit_of_request hn
    obtain ⟨before, u, hp⟩ : ∃ before u, ((counting s).course k).2.Placed before u :=
      placed_course _ k
    have ha := account_course s k
    rw [hk] at hp ha
    obtain ⟨hx, hap⟩ := hp.emit hs
    subst y
    rw [hw]
    exact ⟨ha.current (.inr (State.ne_start_of_step_emit hs)), ha.lines, before, u, hp.behind.line,
      hp.behind.column, hx, hp.apart, hap⟩

/-- A number is given out when one line has been asked for, and also if that line is followed by one
that cannot be read. -/
theorem lexer_streams_number :
    let x := counting (Script.mk [.line "1+"])
    let z := counting (Script.mk [.line "1+", .failure .invalidUtf8])
    x.next.result = given (.number 1) ∧ (x.after 1).pulls = 1 ∧
    z.next.result = x.next.result ∧ (z.after 1).position = (x.after 1).position := by
  intro x z
  have hx : x.Gives [given (.number 1), given (.operator "+"), .ok none] := gives_ofAnswers _
  have hnumber : (x.after 0).next.result = given (.number 1) := (gives_cons_iff.1 hx).1
  -- the line of the token is the last answer, which tells how often the source was asked
  have hpulls : (x.after 1).pulls = 1 := by
    have hlast := ((lexer_streams (Script.mk [.line "1+"])).2.2.1 0 _ hnumber).1
    generalize (x.after 1).pulls = p at hlast ⊢
    rcases p with _ | _ | p
    · cases hlast
    · rfl
    · rw [LineSource.told_succ, List.getLast?_concat, Script.answer_eq] at hlast
      cases hlast
  have hsame : ∀ i < 1, LineSource.answer (Script.mk [.line "1+", .failure .invalidUtf8]) i =
      LineSource.answer (Script.mk [.line "1+"]) i := by
    intro i hi
    obtain rfl : i = 0 := by omega
    rfl
  obtain ⟨hr, hposition, -⟩ :=
    (lexer_streams (Script.mk [.line "1+"])).2.2.2 Script _ 1 hsame 0 (le_of_eq hpulls)
  exact ⟨hnumber, hpulls, hr, hposition⟩

end Lexer
end
end ArithLexer
