import ArithLexer.Text.Printable

/-!
# Characters and strings quoted for display

Messages show a character between apostrophes and a string between quotation marks. Inside, the
enclosing mark and the backslash get a backslash in front, four control characters have a letter
of their own, and a character that could not be seen, or that would merge with its neighbour, is
written by its code point.
-/

namespace ArithLexer.Text

/-- A character by its code point: `\u`, then lower case hexadecimal digits between braces. -/
def codePointEscape (c : Char) : List Char :=
  ['\\', 'u', '\x7b'] ++ Nat.toDigits 16 c.toNat ++ ['\x7d']

/-- How `c` is written between two of the character `mark`. -/
def escape (mark c : Char) : List Char :=
  if c = '\x00' then ['\\', '0']
  else if c = '\t' then ['\\', 't']
  else if c = '\r' then ['\\', 'r']
  else if c = '\n' then ['\\', 'n']
  else if c = '\\' ∨ c = mark then ['\\', c]
  else if extendsGrapheme c then codePointEscape c
  else if isPrintable c then [c]
  else codePointEscape c

/-- The characters `cs` between two of the character `mark`. -/
def enclose (mark : Char) (cs : List Char) : List Char :=
  mark :: (cs.flatMap (escape mark) ++ [mark])

def quoteChar (c : Char) : String := String.ofList (enclose '\'' [c])

def quoteString (s : String) : String := String.ofList (enclose '"' s.toList)

end ArithLexer.Text
