import ArithLexer.Json.Quoted
import ArithLexer.Text.Quoted

/-!
# Tokens

A token is a number or an operator. It has two written forms: one for people, such as
`Number(12)` and `Operator("+-")`, and one JSON object for other programs.
-/

namespace ArithLexer

/-- The largest value that a number token can have. -/
def maxNumber : Nat := UInt64.size - 1

/-- A lexical unit of an arithmetic expression. -/
inductive Token where
  /-- A number without sign. The lexer makes none above `maxNumber`. -/
  | number (value : Nat)
  /-- A run of operator characters. The lexer makes none that is empty. -/
  | operator (text : String)
deriving DecidableEq, Repr

namespace Token

/-- A token as messages show it. -/
def display : Token → String
  | number value => "Number(" ++ value.repr ++ ")"
  | operator text => "Operator(" ++ Text.quoteString text ++ ")"

/-- A token as a JSON object on one line. -/
def toJson : Token → String
  | number value => "\x7b\"tag\":\"number\",\"value\":" ++ value.repr ++ "\x7d"
  | operator text => "\x7b\"tag\":\"operator\",\"operator\":" ++ Json.quote text ++ "\x7d"

end Token
end ArithLexer
