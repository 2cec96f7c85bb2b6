import ArithLexer.Lexer
import ArithLexer.Output.Device

/-!
# Writing tokens

Tokens are written one to a line, each as soon as the lexer gives it. Writing stops at the first
failure, of lexing or of writing; what was written by then stays written.
-/

namespace ArithLexer

open Log (Event)

/-- The forms in which tokens are written. -/
inductive TokenFormat where
  | debug
  | json
deriving DecidableEq, Repr

/-- Why a value could not be written as JSON: it can only be the place that it is written to. -/
structure Json.WriteError where
  cause : IoError
deriving DecidableEq, Repr

section
variable {m : Type → Type} [Monad m]

/-- Writes a value that has been put into JSON. -/
def Json.write (write : Writer m) (text : String) : ExceptT Json.WriteError m Unit :=
  (write (utf8Bytes text)).adapt WriteError.mk

/-- Writes the line for a token. In JSON the line feed is written by itself. -/
def writeToken (write : Writer m) (format : TokenFormat) (token : Token) : ExceptT IoError m Unit :=
  match format with
  | .debug => write (utf8Bytes (token.display ++ "\n"))
  | .json => do
    (Json.write write token.toJson).adapt Json.WriteError.cause
    write (utf8Bytes "\n")

end

/-- Why the tokens of a source were not all written. -/
inductive WriteFailure where
  | lexing (cause : LexFailure)
  | output (cause : IoError)
deriving DecidableEq, Repr

/-- What writing the tokens of a source came to, wherever they were written to. -/
structure Tokenized (S : Type) where
  /-- The number of tokens, if all were written. -/
  result : Except WriteFailure Nat
  lexer : Lexer S
  events : List Event

section
variable {m : Type → Type} [Monad m] {S : Type} [LineSource S]

/-- Writes the tokens that a lexer still has to give, after `count` others and `told` events. -/
def writeFrom (write : Writer m) (format : TokenFormat) (x : Lexer S) (count : Nat)
    (told : Array Event) : m (Tokenized S) :=
  match _ : x.next with
  | ⟨.ok (some token), y, events⟩ => do
    match ← (writeToken write format token).run with
    | .ok () => writeFrom write format y (count + 1) (told ++ events)
    | .error cause => return ⟨.error (.output cause), y, (told ++ events).toList⟩
  | ⟨.ok none, y, events⟩ => return ⟨.ok count, y, (told ++ events).toList ++ [.tokensWritten count]⟩
  | ⟨.error cause, y, events⟩ => return ⟨.error (.lexing cause), y, (told ++ events).toList⟩
termination_by x
decreasing_by
  have h := Lexer.less_of_next (x := x) (by rw [‹x.next = _›])
  rwa [‹x.next = _›] at h

/-- Writes all tokens of a source. -/
def writeAll (write : Writer m) (format : TokenFormat) (source : S) : m (Tokenized S) :=
  writeFrom write format (.ofSource source) 0 #[.lexerCreated]

end

/-- What writing the tokens of a source to a sink came to. -/
structure Written (S : Type) extends Tokenized S where
  sink : Sink

/-- Writes all tokens of a source to a sink. -/
def writeTokens {S : Type} [LineSource S] (format : TokenFormat) (source : S) (sink : Sink) :
    Written S :=
  let (tokenized, sink) := (writeAll Sink.device.writer format source).run sink
  { tokenized with sink }

end ArithLexer
