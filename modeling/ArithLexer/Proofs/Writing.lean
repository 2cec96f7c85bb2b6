import ArithLexer.Proofs.Devices
import ArithLexer.Proofs.Items
import ArithLexer.Proofs.TextBytes
import ArithLexer.TokenOutput

/-!
# What is written

Writing follows the requests to the lexer, and what it comes to is that of writing the lines of all
tokens, wherever they go to (`writeFrom_eq`). So where a sink has room for them, they are written before
the end or the failure is looked at (`writeTokens_of_ends`). In either format there is no line feed
inside what is written of a token, so the lines of the output are the lines of the tokens, whatever the
text of an operator (`pieces_tokenBytes`).
-/

namespace ArithLexer

open Text (pieces)

/-! ### Lines of tokens -/

theorem feed_not_mem_toDigits {base : Nat} (hb : 1 < base) (n : Nat) :
    '\n' ∉ Nat.toDigits base n := by
  induction n using Nat.strongRecOn with
  | ind n ih =>
    have hdigit : ∀ k : Nat, '\n' ≠ k.digitChar := fun k => (Nat.digitChar_ne '\n' (by decide)).symm
    rw [Nat.toDigits_eq_if hb]
    split
    · simp [hdigit]
    · next hn => simp [ih (n / base) (Nat.div_lt_self (by omega) hb), hdigit]

theorem feed_not_mem_repr (n : Nat) : '\n' ∉ n.repr.toList := by
  rw [Nat.toList_repr]
  exact feed_not_mem_toDigits (by decide) n

theorem feed_not_mem_escape (mark c : Char) : '\n' ∉ Text.escape mark c := by
  -- the only escape with parts that are not fixed
  have hcode : '\n' ∉ Text.codePointEscape c := by
    simp [Text.codePointEscape, feed_not_mem_toDigits]
  grind [Text.escape]

theorem feed_not_mem_quoteString (text : String) : '\n' ∉ (Text.quoteString text).toList := by
  simp [Text.quoteString, Text.enclose, feed_not_mem_escape]

theorem feed_not_mem_jsonEscape (c : Char) : '\n' ∉ Json.escape c := by
  have hdigit : ∀ n, '\n' ≠ Json.hexDigit n := fun n => (Nat.digitChar_ne '\n' (by decide)).symm
  grind [Json.escape]

theorem feed_not_mem_quote (text : String) : '\n' ∉ (Json.quote text).toList := by
  simp [Json.quote, feed_not_mem_jsonEscape]

/-- The line for a token, with its line feed. -/
def TokenFormat.line : TokenFormat → Token → String
  | debug, token => token.display ++ "\n"
  | json, token => token.toJson ++ "\n"

def TokenFormat.text : TokenFormat → Token → String
  | debug, token => token.display
  | json, token => token.toJson

theorem TokenFormat.line_eq (format : TokenFormat) (token : Token) :
    format.line token = format.text token ++ "\n" := by
  cases format <;> rfl

theorem feed_not_mem_append {a b : String} (ha : '\n' ∉ a.toList) (hb : '\n' ∉ b.toList) :
    '\n' ∉ (a ++ b).toList := by
  rw [String.toList_append, List.mem_append, not_or]
  exact ⟨ha, hb⟩

theorem TokenFormat.feed_not_mem_text (format : TokenFormat) (token : Token) :
    '\n' ∉ (format.text token).toList := by
  match format, token with
  | debug, .number value =>
    exact feed_not_mem_append (feed_not_mem_append (by decide) (feed_not_mem_repr value)) (by decide)
  | debug, .operator text =>
    exact feed_not_mem_append (feed_not_mem_append (by decide) (feed_not_mem_quoteString text))
      (by decide)
  | json, .number value =>
    exact feed_not_mem_append (feed_not_mem_append (by decide) (feed_not_mem_repr value)) (by decide)
  | json, .operator text =>
    exact feed_not_mem_append (feed_not_mem_append (by decide) (feed_not_mem_quote text))
      (by decide)

/-- The bytes of the lines of some tokens. -/
def tokenBytes (format : TokenFormat) (tokens : List Token) : List UInt8 :=
  tokens.flatMap fun token => utf8Bytes (format.line token)

@[simp] theorem tokenBytes_cons (format : TokenFormat) (token : Token) (tokens : List Token) :
    tokenBytes format (token :: tokens) =
      utf8Bytes (format.line token) ++ tokenBytes format tokens := rfl

/-- The output has one line for each token. -/
theorem pieces_tokenBytes (format : TokenFormat) (tokens : List Token) :
    pieces lineFeed (tokenBytes format tokens) =
      tokens.map fun token => utf8Bytes (format.line token) := by
  induction tokens with
  | nil => rfl
  | cons token tokens ih =>
    have hfeed : lineFeed ∉ utf8Bytes (format.text token) := by
      have hchar := mt lineFeed_mem_utf8Bytes_ofList.1 (format.feed_not_mem_text token)
      rwa [String.ofList_toList] at hchar
    -- the line feed of a line is its last byte, so it is cut there
    have hline : utf8Bytes (format.line token) = utf8Bytes (format.text token) ++ [lineFeed] := by
      rw [format.line_eq, utf8Bytes_append]
      rfl
    rw [tokenBytes, List.flatMap_cons, hline, List.append_assoc, List.singleton_append,
      Text.pieces_append_stop hfeed, List.map_cons, ← ih, hline]
    rfl

/-! ### Following the requests -/

/-- What writing comes to when `count` tokens have been written and `last` is behind them. -/
def writeResult (count : Nat) : Result → Except WriteFailure Nat
  | .ok _ => .ok count
  | .error failure => .error (.lexing failure)

/-- What writing reports at its end, when `count` tokens have been written and `last` is behind
them. -/
def finishing (count : Nat) : Result → List Log.Event
  | .ok _ => [.tokensWritten count]
  | .error _ => []

/-- A failure of the place that JSON is written to is reported as it is. -/
theorem Json.adapt_write {m : Type → Type} [Monad m] [LawfulMonad m] (write : Writer m)
    (text : String) : (Json.write write text).adapt WriteError.cause = write (utf8Bytes text) := by
  -- the error is wrapped and unwrapped again
  have hcause : ∀ r : Except IoError Unit,
      (r.mapError WriteError.mk).mapError WriteError.cause = r := by
    intro r
    cases r <;> rfl
  apply ExceptT.ext
  show Except.mapError WriteError.cause <$> (Except.mapError WriteError.mk <$>
    (write (utf8Bytes text)).run) = _
  rw [Functor.map_map]
  simp only [hcause, id_map']

section
variable {m : Type → Type} [Monad m]

/-- Writes the lines of tokens that are there already, up to the first that cannot be written. Gives
how many of them were written. -/
def writeLines (write : Writer m) (format : TokenFormat) :
    List Token → m (Nat × Except IoError Unit)
  | [] => return (0, .ok ())
  | token :: tokens => do
    match ← (writeToken write format token).run with
    | .ok () => Prod.map (· + 1) id <$> writeLines write format tokens
    | .error cause => return (0, .error cause)

variable {S : Type} [LineSource S]

/-- What writing comes to over a lexer that ends in these tokens, when so many of their lines were
written. The lexer is asked once for each of these, and once more. -/
def Lexer.tokenized (x : Lexer S) (tokens : List Token) (last : Result) (count : Nat)
    (told : Array Log.Event) : Nat × Except IoError Unit → Tokenized S
  | (_, .ok ()) =>
    { result := writeResult (count + tokens.length) last
      lexer := x.after (tokens.length + 1)
      events := told.toList ++ x.reports (tokens.length + 1) ++
        finishing (count + tokens.length) last }
  | (n, .error cause) =>
    { result := .error (.output cause)
      lexer := x.after (n + 1)
      events := told.toList ++ x.reports (n + 1) }

variable {x : Lexer S}

theorem Lexer.tokenized_cons (token : Token) (tokens : List Token) (last : Result) (count : Nat)
    (told : Array Log.Event) (written : Nat × Except IoError Unit) :
    x.tokenized (token :: tokens) last count told (Prod.map (· + 1) id written) =
      x.next.after.tokenized tokens last (count + 1) (told ++ x.next.events) written := by
  obtain ⟨n, _ | _⟩ := written <;>
    simp [tokenized, after_succ, reports, Nat.add_assoc, Nat.add_comm 1]

variable [LawfulMonad m]

/-- Writing tokens as the lexer gives them is writing the lines of all its tokens: they do not depend on
what became of the lines before them. -/
theorem writeFrom_eq (write : Writer m) (format : TokenFormat) {tokens : List Token} {last : Result}
    (h : x.Ends tokens last) (count : Nat) (told : Array Log.Event) :
    writeFrom write format x count told =
      x.tokenized tokens last count told <$> writeLines write format tokens := by
  induction tokens generalizing x count told with
  | nil =>
    obtain ⟨hr, hl⟩ := Lexer.ends_nil_iff.1 h
    rw [writeFrom, writeLines, map_pure, ← hr]
    -- the first request finds the end or the failure, and no token
    split
    · next token y events hx => exact absurd (by rw [← hr, hx]; rfl) (hl token)
    · next hx => simp [Lexer.tokenized, Lexer.after_succ, Lexer.reports, writeResult, finishing, hx]
    · next hx => simp [Lexer.tokenized, Lexer.after_succ, Lexer.reports, writeResult, finishing, hx]
  | cons token tokens ih =>
    obtain ⟨hr, he⟩ := Lexer.ends_cons_iff.1 h
    rw [writeFrom, writeLines]
    split
    · next token' y events hx =>
      obtain rfl : token' = token := by simpa [hx, given] using hr
      rw [hx] at he
      rw [map_bind]
      -- a line that cannot be written is the last one; otherwise the next token is asked for
      refine bind_congr fun written => ?_
      cases written with
      | ok _ =>
        rw [ih he]
        simp only [Functor.map_map, Lexer.tokenized_cons, hx]
      | error cause => simp [Lexer.tokenized, Lexer.after_succ, Lexer.reports, hx]
    · next hx => simp [hx, given] at hr
    · next hx => simp [hx, given] at hr

end

/-! ### Writing to a sink -/

/-- A sink gets the line of a token, whether it is written at once or without the line feed first. -/
theorem writeToken_sink (format : TokenFormat) (token : Token) :
    writeToken Sink.device.writer format token =
      Sink.device.writer (utf8Bytes (format.line token)) := by
  match format with
  | .debug => rfl
  | .json =>
    rw [TokenFormat.line, utf8Bytes_append, ← Sink.writer_append, writeToken, Json.adapt_write]

/-- Where there is room for the lines of all tokens, they are written. -/
theorem run_writeLines_of_accepts (format : TokenFormat) {tokens : List Token} {sink : Sink}
    (hs : sink.Accepts (tokenBytes format tokens).length) :
    (writeLines Sink.device.writer format tokens).run sink =
      ((tokens.length, .ok ()), sink.extended (tokenBytes format tokens)) := by
  induction tokens generalizing sink with
  | nil =>
    rw [tokenBytes, List.flatMap_nil, Sink.extended_nil]
    rfl
  | cons token tokens ih =>
    rw [tokenBytes_cons] at hs ⊢
    -- the first line fits, and what is left of the room is enough for the others
    rw [writeLines, writeToken_sink, StateT.run_bind,
      Sink.run_writer_of_accepts (hs.mono (by simp)), ← Sink.extended_extended]
    show Prod.map (Prod.map (· + 1) id) id
      ((writeLines Sink.device.writer format tokens).run _) = _
    rw [ih hs.extended]
    rfl

section
variable {S : Type} [LineSource S] {s : S} {tokens : List Token} {last : Result}

/-- Where there is room for the lines of all tokens, they are written, and the result is the number of
tokens or the failure behind them. The lexer is asked once for each token and for what is behind. -/
theorem writeTokens_of_ends (format : TokenFormat) (h : (Lexer.ofSource s).Ends tokens last)
    {sink : Sink} (hs : sink.Accepts (tokenBytes format tokens).length) :
    writeTokens format s sink =
      { result := writeResult tokens.length last
        lexer := (Lexer.ofSource s).after (tokens.length + 1)
        events := .lexerCreated :: ((Lexer.ofSource s).reports (tokens.length + 1) ++
          finishing tokens.length last)
        sink := sink.extended (tokenBytes format tokens) } := by
  have hrun : (writeAll Sink.device.writer format s).run sink =
      Prod.map ((Lexer.ofSource s).tokenized tokens last 0 #[.lexerCreated]) id
        ((tokens.length, .ok ()), sink.extended (tokenBytes format tokens)) := by
    rw [writeAll, writeFrom_eq _ format h, StateT.run_map, run_writeLines_of_accepts format hs]
    rfl
  rw [writeTokens, hrun]
  simp [Lexer.tokenized]

end
end ArithLexer
