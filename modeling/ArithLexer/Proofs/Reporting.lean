import ArithLexer.Proofs.Streaming

/-!
# What requests report

A request for a token reports that it was made, then each line that arrives for it, and then what came
of it (`Lexer.Account.events_next`). Whatever is reported besides is about the end or a failure. So the
events of many requests are known: those of the lines number the lines of the source one after the other
(`Lexer.filter_fetched`), and the others are the requests, each with the token it gave, and at the end
what is behind the tokens (`Lexer.filter_not_fetched`).
-/

namespace ArithLexer

open Log (Event)
open LineSource (told)
open Lexer (counting)

/-- The lines among some answers. -/
def linesAmong (answers : List Answer) : List String :=
  answers.filterMap fun
    | .line text => some text
    | _ => none

theorem length_linesAmong (answers : List Answer) :
    (linesAmong answers).length = lineCount answers := by
  induction answers with
  | nil => rfl
  | cons answer rest ih =>
    rw [lineCount, linesAmong] at *
    cases answer <;> simp [List.countP_cons, Answer.isLine, ih]

/-- The events of lines that come behind `n` others. -/
def lineEvents (n : Nat) (lines : List String) : List Event :=
  (lines.zipIdx n).map fun (line, i) => .lineFetched (i + 1) line.length

@[simp] theorem lineEvents_nil (n : Nat) : lineEvents n [] = [] := rfl

theorem lineEvents_cons (n : Nat) (line : String) (lines : List String) :
    lineEvents n (line :: lines) =
      .lineFetched (n + 1) line.length :: lineEvents (n + 1) lines := rfl

theorem lineEvents_append (n : Nat) (lines more : List String) :
    lineEvents n (lines ++ more) = lineEvents n lines ++ lineEvents (n + lines.length) more := by
  rw [lineEvents, List.zipIdx_append, List.map_append]
  rfl

section
variable {S : Type} [LineSource S] {s : S}

/-! ### Fetching a line -/

namespace Cursor

/-- What a fetch with a given result reports besides its lines. -/
def fetchEvents (d : Cursor S) : Except LexFailure Bool → List Event
  | .ok true => []
  | .ok false => [.sourceExhausted d.position.line]
  | .error (.unreadable line cause) => [.sourceFailed line cause]
  | .error (.rejected _) => []

/-- A fetch reports its lines, and then what came of it. -/
theorem events_fetch {c : Cursor (Counted S)} (h : Asked s c.source) (events : List Event) :
    ∃ lines, linesAmong (told s (c.fetch events).after.source.pulls) =
        linesAmong (told s c.source.pulls) ++ lines ∧
      (c.fetch events).events = events.reverse ++ (lineEvents c.position.line lines ++
        (c.fetch events).after.fetchEvents (c.fetch events).result) := by
  -- the events are told in reverse, behind those of the lines that were skipped before
  fun_induction fetch c events with
  | case1 c events text source hn here events' he ih =>
    obtain ⟨ha, ht⟩ := h.told_next hn
    obtain ⟨lines, htold, hevents⟩ := ih ha
    have hline : here.position.line = c.position.line + 1 := rfl
    -- the skipped line comes first, and the lines of the fetch behind it are numbered on from it
    refine ⟨text :: lines, ?_, ?_⟩
    · rw [htold]
      show linesAmong (told s source.pulls) ++ lines = _
      rw [ht]
      simp [linesAmong, Answer.ofResult]
    · rw [hevents, lineEvents_cons]
      simp [events', hline]
  | case2 c events text source hn here events' he =>
    have ht := (h.told_next hn).2
    refine ⟨[text], ?_, ?_⟩
    · show linesAmong (told s source.pulls) = _
      rw [ht]
      simp [linesAmong, Answer.ofResult]
    · rw [lineEvents_cons]
      simp [events', here, atLine, Coordinate.nextLine, fetchEvents]
  | case3 c events source hn events' =>
    have ht := (h.told_next hn).2
    refine ⟨[], ?_, ?_⟩
    · show linesAmong (told s source.pulls) = _
      rw [ht]
      simp [linesAmong, Answer.ofResult]
    · simp [events', fetchEvents]
  | case4 c events cause source hn line events' =>
    have ht := (h.told_next hn).2
    refine ⟨[], ?_, ?_⟩
    · show linesAmong (told s source.pulls) = _
      rw [ht]
      simp [linesAmong, Answer.ofResult]
    · simp [events', fetchEvents, line]

theorem events_nextLine {c d : Cursor (Counted S)} {r : Except LexFailure Bool}
    {events : List Event} (h : Asked s c.source) (hn : c.nextLine = ⟨r, d, events⟩) :
    ∃ lines, linesAmong (told s d.source.pulls) = linesAmong (told s c.source.pulls) ++ lines ∧
      events = lineEvents c.position.line lines ++
        if c.exhausted then [] else d.fetchEvents r := by
  cases he : c.exhausted with
  | true =>
    rw [nextLine_of_exhausted he] at hn
    cases hn
    exact ⟨[], by simp⟩
  | false =>
    rw [nextLine_of_not_exhausted he] at hn
    obtain ⟨lines, ht, hevents⟩ := events_fetch h []
    rw [hn] at ht hevents
    exact ⟨lines, ht, hevents⟩

end Cursor

/-! ### Requests -/

namespace Lexer

/-- What a request from `x` to `z` with a given result reports at its end. -/
def closing (x z : Lexer S) : Result → List Event
  | .ok (some token) => [.tokenProduced token z.position]
  | .ok none =>
    (if x.cursor.exhausted then [] else [.sourceExhausted z.position.line]) ++ [.inputEnded]
  | .error (.rejected error) => [.characterRefused error]
  | .error (.unreadable line cause) => [.sourceFailed line cause]

variable {rs : List Result} {x y : Lexer (Counted S)}

omit [LineSource S] in
theorem closing_of_exhausted_eq (h : y.cursor.exhausted = x.cursor.exhausted)
    (z : Lexer (Counted S)) (r : Result) : y.closing z r = x.closing z r := by
  unfold closing
  rw [h]

/-- The number of the line counts the lines that the source has delivered. -/
theorem Account.line_eq (h : x.Account s rs) :
    x.position.line = (linesAmong (told s x.pulls)).length := by
  rw [length_linesAmong, h.lines]

theorem Account.events_of_answered (h : x.Account s rs)
    {reply : Reply (Option Token) (Lexer (Counted S))} (hx : x.turn = .answered reply) :
    ∃ lines, linesAmong (told s reply.after.pulls) = linesAmong (told s x.pulls) ++ lines ∧
      reply.events =
        lineEvents x.position.line lines ++ x.closing reply.after reply.result := by
  -- an answer does not take a character and does not go on to another line, so of the six turns
  -- four are left
  cases hs : x.state.step x.cursor.peek with
  | emit token =>
    obtain rfl : _ = reply := by simpa [turn_emit hs] using hx
    exact ⟨[], by simp, rfl⟩
  | reject reason =>
    obtain rfl : _ = reply := by simpa [turn_reject hs] using hx
    exact ⟨[], by simp, rfl⟩
  | take state =>
    cases ha : x.cursor.ahead with
    | cons c rest =>
      rw [Cursor.peek, ha, List.head?_cons] at hs
      rw [turn_take ha hs] at hx
      cases hx
    | nil =>
      rw [Cursor.peek, ha, List.head?_nil] at hs
      have hstart := (State.eq_start_of_step_none hs).1
      rcases hn : x.cursor.nextLine with ⟨failure | (_ | _), cursor, events⟩
      · obtain rfl : _ = reply := by simpa [turn_fail ha hstart hn] using hx
        obtain ⟨lines, ht, hevents⟩ := Cursor.events_nextLine h.asked hn
        obtain ⟨⟨cause, rfl⟩, -, -⟩ := Cursor.fetched_nextLine hn
        -- an exhausted cursor could not have failed
        rw [Cursor.not_exhausted_of_nextLine hn (by simp)] at hevents
        exact ⟨lines, ht, hevents⟩
      · obtain rfl : _ = reply := by simpa [turn_finish ha hstart hn] using hx
        obtain ⟨lines, ht, hevents⟩ := Cursor.events_nextLine h.asked hn
        refine ⟨lines, ht, ?_⟩
        show events ++ [.inputEnded] = _
        rw [hevents, List.append_assoc]
        rfl
      · rw [turn_refill ha hstart hn] at hx
        cases hx

theorem Account.events_of_refilled (h : x.Account s rs) {events : List Event}
    (hx : x.turn = .refilled y events) :
    ∃ lines, linesAmong (told s y.pulls) = linesAmong (told s x.pulls) ++ lines ∧
      events = lineEvents x.position.line lines ∧
      y.cursor.exhausted = x.cursor.exhausted := by
  have ht := turns x
  rw [hx] at ht
  cases ht with
  | refill ha hs hn =>
    obtain ⟨lines, htold, hevents⟩ := Cursor.events_nextLine h.asked hn
    rw [Cursor.not_exhausted_of_nextLine hn (by simp)] at hevents
    obtain ⟨-, -, -, hex⟩ := Cursor.fetched_nextLine hn
    exact ⟨lines, htold, hevents.trans (List.append_nil _), hex⟩

/-- Up to an answer the lines are reported, and then what came of the request. -/
theorem Account.events_answer {rs : List Result} {x : Lexer (Counted S)} (h : x.Account s rs) :
    ∃ lines, linesAmong (told s (x.answer []).after.pulls) =
        linesAmong (told s x.pulls) ++ lines ∧
      (x.answer []).events =
        lineEvents x.position.line lines ++ x.closing (x.answer []).after (x.answer []).result := by
  have hturn := h.turn
  -- by recursion on the lexer, a turn at a time; the account is what numbers the lines
  match hx : x.turn with
  | .took y =>
    rw [hx] at hturn
    rw [answer_of_took [] hx]
    have ht := turns x
    rw [hx] at ht
    cases ht with
    | take ha hs => exact hturn.events_answer
  | .refilled y events =>
    rw [hx] at hturn
    obtain ⟨lines, htold, hevents, hex⟩ := h.events_of_refilled hx
    obtain ⟨more, htold', hevents'⟩ := hturn.events_answer
    simp only [Turn.lexer] at htold' hevents'
    -- the lines of the turn come before those of the rest of the request
    have hline : y.position.line = x.position.line + lines.length := by
      have hy : y.position.line = (linesAmong (told s y.pulls)).length := hturn.line_eq
      rw [hy, htold, List.length_append, h.line_eq]
    rw [answer_of_refilled [] hx, answer_eq]
    refine ⟨lines ++ more, ?_, ?_⟩
    · show linesAmong (told s (y.answer []).after.pulls) = _
      rw [htold', htold, List.append_assoc]
    · show (events.reverse ++ []).reverse ++ (y.answer []).events = _
      rw [hevents', hline, closing_of_exhausted_eq hex, lineEvents_append, hevents]
      simp
  | .answered reply =>
    rw [answer_of_answered [] hx]
    exact h.events_of_answered hx
termination_by x
decreasing_by
  · exact less_of_took hx
  · exact less_of_refilled hx

/-- A request reports that it was made, each line that arrives for it, and what came of it. -/
theorem Account.events_next (h : x.Account s rs) :
    ∃ lines, linesAmong (told s x.next.after.pulls) = linesAmong (told s x.pulls) ++ lines ∧
      x.next.events = .tokenRequested ::
        (lineEvents x.position.line lines ++ x.closing x.next.after x.next.result) := by
  obtain ⟨lines, ht, hevents⟩ := h.events_answer
  rw [next, answer_eq]
  exact ⟨lines, ht, congrArg (Event.tokenRequested :: ·) hevents⟩

/-! ### Many requests -/

theorem reports_succ' {S : Type} [LineSource S] (x : Lexer S) (n : Nat) :
    x.reports (n + 1) = x.reports n ++ (x.after n).next.events := by
  induction n generalizing x with
  | zero => simp [reports, after]
  | succ n ih => rw [reports, ih, reports, List.append_assoc, after_succ]

theorem account_after (s : S) (n : Nat) :
    ((counting s).after n).Account s ((counting s).results n) := by
  obtain ⟨k, hk⟩ := (counting s).course_of_requests n
  have h := account_course s k
  -- the requests are some number of turns, after which the account holds
  rwa [hk] at h

end Lexer

/-! ### The events of one message -/

/-- Whether an event has this message. -/
def Log.Event.hasMessage (text : String) (e : Event) : Bool := e.message = text

theorem filter_lineEvents_of_true {p : Event → Bool} (hp : ∀ n l, p (.lineFetched n l) = true)
    (n : Nat) (lines : List String) : (lineEvents n lines).filter p = lineEvents n lines := by
  rw [lineEvents, List.filter_map, List.filter_eq_self.2]
  intro x _
  exact hp _ _

theorem filter_lineEvents_of_false {p : Event → Bool} (hp : ∀ n l, p (.lineFetched n l) = false)
    (n : Nat) (lines : List String) : (lineEvents n lines).filter p = [] := by
  rw [lineEvents, List.filter_map, List.filter_eq_nil_iff.2]
  · rfl
  · intro x _
    simp [hp]

namespace Lexer

/-- The events of fetched lines number the lines that the source has delivered. -/
theorem filter_fetched (s : S) (n : Nat) :
    ((counting s).reports n).filter (Event.hasMessage "Fetched line") =
      lineEvents 0 (linesAmong (told s ((counting s).after n).pulls)) := by
  induction n with
  | zero => rfl
  | succ n ih =>
    have ha := account_after s n
    obtain ⟨lines, htold, hevents⟩ := ha.events_next
    -- what a request reports at its end is not about lines
    have hclosing : ∀ (x z : Lexer (Counted S)) (r : Result),
        (x.closing z r).filter (Event.hasMessage "Fetched line") = [] := by
      intro x z r
      unfold closing
      split
      · rfl
      · cases x.cursor.exhausted <;> rfl
      · rfl
      · rfl
    rw [reports_succ', List.filter_append, ih, hevents, after_succ', htold, lineEvents_append,
      Nat.zero_add, ← ha.line_eq]
    show _ ++ (lineEvents _ lines ++ closing _ _ _).filter _ = _
    rw [List.filter_append, hclosing, List.append_nil, filter_lineEvents_of_true fun _ _ => rfl]

variable {tokens : List Token} {last : Result} {p : Event → Bool}

/-- The other events are the requests, each with the token it gave, and what is behind the tokens. -/
theorem filter_not_fetched (hp : ∀ n l, p (.lineFetched n l) = false) {k : Nat}
    (h : ((counting s).after k).Ends tokens last) :
    (((counting s).after k).reports (tokens.length + 1)).filter p =
      (tokens.zipIdx k).flatMap (fun x =>
        [.tokenRequested, .tokenProduced x.1 ((counting s).after (x.2 + 1)).position].filter p) ++
      (.tokenRequested :: ((counting s).after (k + tokens.length)).closing
        ((counting s).after (k + tokens.length + 1)) last).filter p := by
  -- of one request: the lines go, and the rest stays in its order
  have hnext : ∀ k, ((counting s).after k).next.events.filter p =
      (.tokenRequested :: ((counting s).after k).closing ((counting s).after (k + 1))
        ((counting s).after k).next.result).filter p := by
    intro k
    obtain ⟨lines, -, hevents⟩ := (account_after s k).events_next
    rw [hevents, after_succ', ← List.singleton_append, List.filter_append, List.filter_append,
      filter_lineEvents_of_false hp, List.nil_append, ← List.filter_append, List.singleton_append]
  -- the requests are counted from `k` on, so that the positions are those of the whole run
  induction tokens generalizing k with
  | nil =>
    obtain ⟨hr, -⟩ := ends_nil_iff.1 h
    rw [List.length_nil, reports, reports, List.append_nil, hnext, hr]
    rfl
  | cons token tokens ih =>
    obtain ⟨hr, he⟩ := ends_cons_iff.1 h
    rw [← after_succ'] at he
    have hk : k + (token :: tokens).length = k + 1 + tokens.length := by
      rw [List.length_cons]
      omega
    rw [hk, List.length_cons, reports, ← after_succ', List.filter_append, ih he, hnext, hr,
      List.zipIdx_cons, List.flatMap_cons, List.append_assoc]
    rfl

end Lexer

end
end ArithLexer
