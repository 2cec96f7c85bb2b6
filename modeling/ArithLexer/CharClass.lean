import ArithLexer.Text.Blank
import ArithLexer.Text.Digit

/-!
# Character classes

The lexer decides by the class of the next character alone. There are five classes, and the end
of the line, where there is no next character, is one of them. A blank is a blank first: no blank
is a digit or an operator character.
-/

namespace ArithLexer

/-- The characters that operators are made of. -/
def operatorChars : List Char :=
  ['+', '-', '*', '/', '$', '!', '&', '|', '^', '\\', '.', ',', '<', '>', '=']

/-- Whether a character can stand in an operator. -/
def isOperatorChar (c : Char) : Bool := operatorChars.contains c

/-- What the lexer needs to know of the next character of a line. -/
inductive CharClass where
  /-- There is no next character on this line. -/
  | lineEnd
  | blank
  | digit (value : Nat)
  | operator (c : Char)
  /-- A character that no token and no gap between tokens may hold. -/
  | other (c : Char)
deriving DecidableEq, Repr

def CharClass.ofChar (c : Char) : CharClass :=
  if Text.isBlank c then .blank
  else
    match Text.digit? c with
    | some d => .digit d
    | none => if isOperatorChar c then .operator c else .other c

/-- The class of what comes next on a line. -/
def CharClass.ofNext : Option Char → CharClass
  | none => .lineEnd
  | some c => .ofChar c

end ArithLexer
