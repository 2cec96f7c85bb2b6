import ArithLexer.Coordinate
import ArithLexer.IoError
import ArithLexer.Machine

/-!
# Errors of lexing

Lexing stops at a character that is refused, or at a line that cannot be read. A refused
character is shown in its line, with a caret under it.
-/

namespace ArithLexer

/-- A refused character: the reason, where it stands, and the whole line it stands in. -/
structure LexError where
  reason : Rejection
  position : Coordinate
  line : String
deriving DecidableEq, Repr

namespace LexError

def message (e : LexError) : String := e.position.display ++ ": " ++ e.reason.message

/-- What stands below the line in front of the caret: tabs are kept and every other character
becomes a space, so that the caret comes to stand under the refused character. -/
def margin (e : LexError) : String :=
  String.ofList
    ((e.line.toList.take (e.position.column - 1)).map fun c => if c = '\t' then '\t' else ' ')

def render (e : LexError) : String :=
  let number := e.position.line.repr
  let gutter := String.ofList (List.replicate number.length ' ')
  e.message ++ "\n " ++ number ++ " | " ++ e.line ++ "\n " ++ gutter ++ " | " ++ e.margin ++ "^"

end LexError

/-- Why lexing stopped before the end of its input. -/
inductive LexFailure where
  | rejected (error : LexError)
  /-- The line with this number could not be read. -/
  | unreadable (line : Nat) (cause : IoError)
deriving DecidableEq, Repr

namespace LexFailure

def message : LexFailure → String
  | rejected error => error.message
  | unreadable line cause => "failed to read line " ++ line.repr ++ ": " ++ cause.text

def render : LexFailure → String
  | rejected error => error.render
  | unreadable line cause => (unreadable line cause).message

end LexFailure
end ArithLexer
