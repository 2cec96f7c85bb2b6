import ArithLexer.Proofs.Filtering
import ArithLexer.Proofs.Reporting
import ArithLexer.Proofs.Writing

/-!
# Logging

Writing the tokens of a source reports what the requests report, and at the end the number of tokens
(`writeTokens_of_ends`). The levels that a user chooses are put into effect behind all this, by a filter.
The main statement, `writing_is_logged`, says that they have no influence on anything but which events
are seen, and what all events of each message are.

`Overlooks` collects what the messages about tokens, failures and the count have in common: they are not
about lines, nor about the start or the end of the input. What is reported under such a message is what
`filter_tokenization` says.
-/

namespace ArithLexer

open Log (Event Level Levels)
open LineSource (told)
open Lexer (counting)

/-! ### Levels -/

namespace Log

theorem Levels.select_filter (l : Levels) (events : List Event) :
    l.filter.select events = events.filter fun e => (l.forTarget e.target).admits e.level := by
  simp only [Filter.select, Filter.enables, limit_target]

def Levels.everything : Levels := ⟨.trace, some .trace⟩

theorem Levels.select_everything (events : List Event) :
    everything.filter.select events = events := by
  have htrace : ∀ level, Level.trace.admits level = true := by
    intro level
    cases level <;> rfl
  rw [select_filter, List.filter_eq_self]
  intro e _
  simp [forTarget, everything, htrace]

/-- The fields of the events with some message. -/
def fieldsOf (text : String) (events : List Event) : List (List (String × Value)) :=
  (events.filter (Event.hasMessage text)).map Event.fields

/-- The fields of the warnings among some events. -/
def warningFields (events : List Event) : List (List (String × Value)) :=
  (events.filter (·.level = .warn)).map Event.fields

end Log

open Log (fieldsOf warningFields)

/-- Writes all tokens of a source, and keeps those of the events that some levels let through. -/
def writeLogged {S : Type} [LineSource S] (l : Levels) (format : TokenFormat) (source : S)
    (sink : Sink) : Written S :=
  let w := writeTokens format source sink
  { w with events := l.filter.select w.events }

section
variable {S : Type} [LineSource S] {s : S} {tokens : List Token} {last : Result}

/-- What a failure behind the tokens is reported as. -/
def failing : Result → List Event
  | .ok _ => []
  | .error (.rejected error) => [.characterRefused error]
  | .error (.unreadable line cause) => [.sourceFailed line cause]

/-- A choice of events without those of lines, of the start and of the end of the input. -/
structure Overlooks (p : Event → Bool) : Prop where
  created : p .lexerCreated = false
  line : ∀ n l, p (.lineFetched n l) = false
  exhausted : ∀ n, p (.sourceExhausted n) = false
  ended : p .inputEnded = false

omit [LineSource S] in
theorem Overlooks.filter_closing {p : Event → Bool} (hp : Overlooks p)
    (hl : ∀ token, last ≠ given token) (x z : Lexer S) :
    (x.closing z last).filter p = (failing last).filter p := by
  match last with
  | .ok (some token) => exact absurd rfl (hl token)
  | .ok none =>
    -- the end is reported once or not at all, and is overlooked in either case
    cases hx : x.cursor.exhausted <;>
      simp [Lexer.closing, failing, hx, hp.exhausted, hp.ended]
  | .error (.rejected _) => rfl
  | .error (.unreadable _ _) => rfl

namespace Lexer

/-- What is reported where a source with these tokens, and with `last` behind them, is written. -/
def tokenization (s : S) (tokens : List Token) (last : Result) : List Event :=
  .lexerCreated :: ((counting s).reports (tokens.length + 1) ++ finishing tokens.length last)

/-- Without the lines, the start and the end of the input, what is reported are the requests, a failure
and the count. -/
theorem filter_tokenization {p : Event → Bool} (hp : Overlooks p)
    (h : (counting s).Ends tokens last) :
    (tokenization s tokens last).filter p =
      tokens.zipIdx.flatMap (fun x =>
        [.tokenRequested, .tokenProduced x.1 ((counting s).after (x.2 + 1)).position].filter p) ++
      ([.tokenRequested].filter p ++ (failing last ++ finishing tokens.length last).filter p) := by
  have hreports : ((counting s).reports (tokens.length + 1)).filter p = _ :=
    filter_not_fetched hp.line (k := 0) h
  rw [tokenization, List.filter_cons_of_neg (by simp [hp.created]), List.filter_append, hreports,
    ← List.singleton_append, List.filter_append, hp.filter_closing h.2, List.filter_append]
  simp only [List.append_assoc]

theorem produced_tokenization (h : (counting s).Ends tokens last) :
    fieldsOf "Produced token" (tokenization s tokens last) =
      tokens.zipIdx.map fun (token, i) =>
        let position := ((counting s).after (i + 1)).position
        [("token", .text token.display), ("line", .number position.line),
          ("column", .number position.column)] := by
  -- neither a failure nor the count is reported under this message
  have hlast : (failing last ++ finishing tokens.length last).filter
      (Event.hasMessage "Produced token") = [] := by
    rcases last with (_ | _) | _ <;> rfl
  rw [fieldsOf, filter_tokenization ⟨rfl, fun _ _ => rfl, fun _ => rfl, rfl⟩ h, hlast]
  simp [Event.hasMessage, Event.message, Event.fields, ← List.map_eq_flatMap]

theorem requested_tokenization (h : (counting s).Ends tokens last) :
    (tokenization s tokens last).countP (Event.hasMessage "Requesting next token") =
      tokens.length + 1 := by
  have hlast : (failing last ++ finishing tokens.length last).filter
      (Event.hasMessage "Requesting next token") = [] := by
    rcases last with (_ | _) | _ <;> rfl
  rw [List.countP_eq_length_filter,
    filter_tokenization ⟨rfl, fun _ _ => rfl, fun _ => rfl, rfl⟩ h, hlast]
  simp [Event.hasMessage, Event.message]

theorem warnings_tokenization (h : (counting s).Ends tokens last) :
    warningFields (tokenization s tokens last) = (failing last).map Event.fields := by
  have hlast : (failing last ++ finishing tokens.length last).filter (·.level = .warn) =
      failing last := by
    rcases last with (_ | _) | (_ | _) <;> rfl
  rw [warningFields, filter_tokenization ⟨rfl, fun _ _ => rfl, fun _ => rfl, rfl⟩ h, hlast]
  simp [Event.level]

theorem finished_tokenization (h : (counting s).Ends tokens last) :
    fieldsOf "Tokenization finished" (tokenization s tokens last) =
      (finishing tokens.length last).map Event.fields := by
  have hlast : (failing last ++ finishing tokens.length last).filter
      (Event.hasMessage "Tokenization finished") = finishing tokens.length last := by
    rcases last with (_ | _) | (_ | _) <;> rfl
  rw [fieldsOf, filter_tokenization ⟨rfl, fun _ _ => rfl, fun _ => rfl, rfl⟩ h, hlast]
  simp [Event.hasMessage, Event.message]

theorem fetched_tokenization (s : S) (tokens : List Token) (last : Result) :
    fieldsOf "Fetched line" (tokenization s tokens last) =
      (linesAmong (told s ((counting s).after (tokens.length + 1)).pulls)).zipIdx.map
        fun (line, i) => [("line", .number (i + 1)), ("len", .number line.length)] := by
  have hlast : (finishing tokens.length last).filter (Event.hasMessage "Fetched line") = [] := by
    cases last <;> rfl
  rw [fieldsOf, tokenization, List.filter_cons_of_neg (by decide), List.filter_append, hlast,
    List.append_nil, filter_fetched, lineEvents, List.map_map]
  rfl

end Lexer

/-- Without a limit the source is written with these tokens, this result and these events. -/
theorem writeLogged_everything (format : TokenFormat) (h : (counting s).Ends tokens last) :
    let w := writeLogged .everything format (Counted.mk s 0) .unlimited
    w.sink.written.toList = tokenBytes format tokens ∧
      w.result = writeResult tokens.length last ∧
      w.lexer = (counting s).after (tokens.length + 1) ∧
      w.events = Lexer.tokenization s tokens last := by
  intro w
  have hw : w = { result := writeResult tokens.length last
                  lexer := (counting s).after (tokens.length + 1)
                  events := Lexer.tokenization s tokens last
                  sink := Sink.unlimited.extended (tokenBytes format tokens) } := by
    unfold w
    rw [writeLogged, writeTokens_of_ends format h (Sink.accepts_unlimited _),
      Levels.select_everything]
    rfl
  rw [hw]
  exact ⟨by simp [Sink.extended, Sink.unlimited], rfl, rfl, rfl⟩

/-- The fields of the warnings about a result, behind so many lines. -/
def warningsOf (fetched : Nat) : Except WriteFailure Nat → List (List (String × Log.Value))
  | .error (.lexing (.rejected error)) => [[("error", .text error.message)]]
  | .error (.lexing (.unreadable _ cause)) =>
    [[("line", .number (fetched + 1)), ("error", .text cause.text)]]
  | _ => []

/-- The number of the line that cannot be read is the one behind the lines that were fetched. -/
theorem fields_failing (h : (counting s).Ends tokens last) :
    (failing last).map Event.fields =
      warningsOf (linesAmong (told s ((counting s).after (tokens.length + 1)).pulls)).length
        (writeResult tokens.length last) := by
  match last with
  | .ok _ => rfl
  | .error (.rejected _) => rfl
  | .error (.unreadable line cause) =>
    -- the failure is that of the last request, which leaves its line number behind
    have hleaves := ((counting s).after tokens.length).next_leaves
    rw [h.next_after, ← Lexer.after_succ'] at hleaves
    obtain ⟨-, hline⟩ := hleaves
    rw [(Lexer.account_after s (tokens.length + 1)).line_eq] at hline
    subst hline
    rfl

end

/-- The levels have no influence on what is written and on the result, only on which events are seen:
those whose level the level for their target admits. Of all events, one for each token tells its text
and the position behind it; those of the lines number them and tell their lengths; there is one request
more than there are tokens; there is one warning if lexing fails, which tells the failure, and none if
not; and if it does not fail, the number of tokens is reported once. -/
theorem writing_is_logged {S : Type} [LineSource S] (format : TokenFormat) (s : S) :
    let w := writeLogged .everything format (Counted.mk s 0) .unlimited
    (∀ l : Levels, writeLogged l format (Counted.mk s 0) .unlimited =
      { w with events := w.events.filter fun e => (l.forTarget e.target).admits e.level }) ∧
    ∃ tokens last, (counting s).Ends tokens last ∧
      w.sink.written.toList = tokenBytes format tokens ∧
      w.result = writeResult tokens.length last ∧
      fieldsOf "Produced token" w.events = (tokens.zipIdx.map fun (token, i) =>
        let position := ((counting s).after (i + 1)).position
        [("token", .text token.display), ("line", .number position.line),
          ("column", .number position.column)]) ∧
      fieldsOf "Fetched line" w.events = ((linesAmong (told s w.lexer.pulls)).zipIdx.map
        fun (line, i) => [("line", .number (i + 1)), ("len", .number line.length)]) ∧
      w.events.countP (Event.hasMessage "Requesting next token") = tokens.length + 1 ∧
      warningFields w.events = warningsOf (linesAmong (told s w.lexer.pulls)).length w.result ∧
      fieldsOf "Tokenization finished" w.events = match w.result with
        | .ok count => [[("count", .number count)]]
        | .error _ => [] := by
  intro w
  obtain ⟨tokens, last, h⟩ := (counting s).exists_ends
  obtain ⟨hbytes, hresult, hlexer, hevents⟩ := writeLogged_everything format h
  refine ⟨?_, tokens, last, h, hbytes, hresult, ?_⟩
  · intro l
    -- all levels select from the same events
    have hall : w.events = (writeTokens format (Counted.mk s 0) .unlimited).events :=
      Levels.select_everything _
    rw [hall, ← Levels.select_filter]
    rfl
  · rw [hresult, hlexer, hevents]
    refine ⟨Lexer.produced_tokenization h, Lexer.fetched_tokenization s tokens last,
      Lexer.requested_tokenization h, ?_, ?_⟩
    · rw [Lexer.warnings_tokenization h, fields_failing h]
    · rw [Lexer.finished_tokenization h]
      cases last <;> rfl

end ArithLexer
