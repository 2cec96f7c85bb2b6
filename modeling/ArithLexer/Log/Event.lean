import ArithLexer.LexError
import ArithLexer.Log.Level

/-!
# Events

Everything a run reports on its way is an `Event`. An event has a level, a target that names the
part of the program it comes from, a message, and fields in a fixed order.
-/

namespace ArithLexer.Log

inductive Value where
  | number (value : Nat)
  | text (value : String)
deriving DecidableEq, Repr

def Value.display : Value → String
  | number value => value.repr
  | text value => value

/-- What a run reports. -/
inductive Event where
  | lexerCreated
  | tokenRequested
  /-- The line with this number has arrived, and has so many characters. -/
  | lineFetched (line length : Nat)
  /-- There are no more lines. The number is that of the last one. -/
  | sourceExhausted (line : Nat)
  | sourceFailed (line : Nat) (cause : IoError)
  /-- A token is complete, and the next character to take is at `position`. -/
  | tokenProduced (token : Token) (position : Coordinate)
  | inputEnded
  | characterRefused (error : LexError)
  | tokensWritten (count : Nat)
  | lexingFile (path : String)
  | lexingStdin
  | done (count : Nat)
deriving DecidableEq, Repr

def lexerTarget : String := "calx::lexer"

def commandTarget : String := "calx::cli"

namespace Event

def level : Event → Level
  | lexerCreated => .trace
  | tokenRequested => .trace
  | lineFetched _ _ => .trace
  | sourceExhausted _ => .trace
  | sourceFailed _ _ => .warn
  | tokenProduced _ _ => .debug
  | inputEnded => .trace
  | characterRefused _ => .warn
  | tokensWritten _ => .debug
  | lexingFile _ => .info
  | lexingStdin => .info
  | done _ => .info

def target : Event → String
  | tokensWritten _ => commandTarget
  | lexingFile _ => commandTarget
  | lexingStdin => commandTarget
  | done _ => commandTarget
  | _ => lexerTarget

def message : Event → String
  | lexerCreated => "Creating new Lexer"
  | tokenRequested => "Requesting next token"
  | lineFetched _ _ => "Fetched line"
  | sourceExhausted _ => "Line source exhausted"
  | sourceFailed _ _ => "Line source failed"
  | tokenProduced _ _ => "Produced token"
  | inputEnded => "Reached end of input"
  | characterRefused _ => "Lex error encountered"
  | tokensWritten _ => "Tokenization finished"
  | lexingFile _ => "Lexing file"
  | lexingStdin => "Lexing stdin"
  | done _ => "Done"

def fields : Event → List (String × Value)
  | lineFetched line length => [("line", .number line), ("len", .number length)]
  | sourceExhausted line => [("line", .number line)]
  | sourceFailed line cause => [("line", .number line), ("error", .text cause.text)]
  | tokenProduced token position =>
    [("token", .text token.display), ("line", .number position.line),
      ("column", .number position.column)]
  | characterRefused error => [("error", .text error.message)]
  | tokensWritten count => [("count", .number count)]
  | lexingFile path => [("path", .text path)]
  | done count => [("count", .number count)]
  | _ => []

end Event
end ArithLexer.Log
