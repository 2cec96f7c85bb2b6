import ArithLexer.CharClass
import ArithLexer.Token

/-!
# The token machine

The machine looks at one character at a time and keeps what it has of the token it is reading.
Numbers and operators are read to their greatest length: the character that ends a token is not
taken, so that it can begin the next one. Blanks are taken only between tokens. The end of a line
ends a token as a blank does.
-/

namespace ArithLexer

/-- The part of a token read so far. -/
inductive State where
  | start
  | number (value : Nat)
  | operator (text : String)
deriving DecidableEq, Repr

/-- Why a character is refused. -/
inductive Rejection where
  /-- The character belongs to no token and is no blank. -/
  | unacceptable (c : Char)
  /-- The digit would take the number above `maxNumber`. -/
  | numberOverflow
deriving DecidableEq, Repr

def Rejection.message : Rejection → String
  | unacceptable c => "cannot accept character " ++ Text.quoteChar c
  | numberOverflow => "number literal exceeds " ++ maxNumber.repr

/-- What the machine does with the next character. -/
inductive Step where
  /-- It takes the character and goes on in `state`. -/
  | take (state : State)
  /-- The token is complete, and the character is left. -/
  | emit (token : Token)
  | reject (reason : Rejection)
deriving DecidableEq, Repr

/-- The machine's step at what comes next on the line. -/
def State.step (s : State) (next : Option Char) : Step :=
  match s, CharClass.ofNext next with
  | _, .other c => .reject (.unacceptable c)
  | .start, .lineEnd => .take .start
  | .start, .blank => .take .start
  | .start, .digit d => .take (.number d)
  | .start, .operator c => .take (.operator (String.singleton c))
  | .number n, .digit d =>
    if n * 10 + d ≤ maxNumber then .take (.number (n * 10 + d)) else .reject .numberOverflow
  | .number n, .lineEnd => .emit (.number n)
  | .number n, .blank => .emit (.number n)
  | .number n, .operator _ => .emit (.number n)
  | .operator text, .operator c => .take (.operator (text.push c))
  | .operator text, .lineEnd => .emit (.operator text)
  | .operator text, .blank => .emit (.operator text)
  | .operator text, .digit _ => .emit (.operator text)

/-- At the end of a line the machine can only go on between tokens. -/
theorem State.eq_start_of_step_none {s t : State} (h : s.step none = .take t) :
    s = .start ∧ t = .start := by
  cases s <;> simp_all [State.step, CharClass.ofNext]

/-- No token comes out where none has begun. -/
theorem State.ne_start_of_step_emit {s : State} {next : Option Char} {token : Token}
    (h : s.step next = .emit token) : s ≠ .start := by
  rintro rfl
  unfold State.step at h
  split at h <;> simp_all

end ArithLexer
