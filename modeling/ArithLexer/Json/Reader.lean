import ArithLexer.Json.Number
import ArithLexer.Text.Quoted

/-!
# Reading JSON

Readers take what is left of a text and give a value and what is left after it. They are strict:
whatever JSON does not allow is a fault. Reading goes from left to right, and the first fault
decides. Among faults, a text that ends too early is told apart from one that goes wrong, and both
from a well-formed value that is not wanted where it stands.
-/

namespace ArithLexer.Json

/-- Why a text cannot be read. -/
inductive Fault where
  | malformed
  | truncated
  /-- A value is not of the form that is wanted. -/
  | unsuitable (detail : String)
deriving DecidableEq, Repr

/-- A reader of values: the value, and what is left of the text. -/
abbrev Reader (α : Type) := List Char → Except Fault (α × List Char)

def isSpace (c : Char) : Bool := c = ' ' || c = '\t' || c = '\n' || c = '\r'

def skipSpace (cs : List Char) : List Char := cs.dropWhile isSpace

def expect : List Char → List Char → Except Fault (List Char)
  | [], cs => .ok cs
  | _ :: _, [] => .error .truncated
  | w :: ws, c :: cs => if c = w then expect ws cs else .error .malformed

/-- Reads the mark `mark` behind white space. -/
def expectMark (mark : Char) (cs : List Char) : Except Fault (List Char) :=
  match skipSpace cs with
  | [] => .error .truncated
  | c :: rest => if c = mark then .ok rest else .error .malformed

/-! ### Strings -/

/-- Reads four hexadecimal digits. With fewer than four bytes left, the text is too short. -/
def readHex : Reader Nat := fun cs =>
  if (String.ofList (cs.take 4)).utf8ByteSize < 4 then .error .truncated
  else
    match cs with
    | a :: b :: c :: d :: rest =>
      match Text.hexDigit? a, Text.hexDigit? b, Text.hexDigit? c, Text.hexDigit? d with
      | some a, some b, some c, some d => .ok (((a * 16 + b) * 16 + c) * 16 + d, rest)
      | _, _, _, _ => .error .malformed
    | _ => .error .malformed

/-- Whether a UTF-16 unit can only be the first of two. -/
def isHighSurrogate (n : Nat) : Bool := 0xD800 ≤ n && n ≤ 0xDBFF

def isLowSurrogate (n : Nat) : Bool := 0xDC00 ≤ n && n ≤ 0xDFFF

/-- Reads the second of two UTF-16 units, with the `\u` in front of it. -/
def readSecondUnit (high : Nat) : Reader Char := fun cs =>
  match expect ['\\', 'u'] cs with
  | .error fault => .error fault
  | .ok rest =>
    match readHex rest with
    | .error fault => .error fault
    | .ok (low, rest) =>
      if isLowSurrogate low then
        .ok (Char.ofNat (0x10000 + (high - 0xD800) * 0x400 + (low - 0xDC00)), rest)
      else .error .malformed

/-- Reads what follows `\u`: a UTF-16 unit, and a second one if the first cannot stand alone. -/
def readUnits : Reader Char := fun cs =>
  match readHex cs with
  | .error fault => .error fault
  | .ok (unit, rest) =>
    if isLowSurrogate unit then .error .malformed
    else if isHighSurrogate unit then readSecondUnit unit rest
    else .ok (Char.ofNat unit, rest)

/-- The character that a letter after a backslash stands for. -/
def escaped? : Char → Option Char
  | '"' => some '"'
  | '\\' => some '\\'
  | '/' => some '/'
  | 'b' => some '\x08'
  | 'f' => some '\x0c'
  | 'n' => some '\n'
  | 'r' => some '\r'
  | 't' => some '\t'
  | _ => none

def readEscape : Reader Char
  | [] => .error .truncated
  | c :: rest =>
    if c = 'u' then readUnits rest
    else
      match escaped? c with
      | some a => .ok (a, rest)
      | none => .error .malformed

theorem length_expect {word cs rest : List Char} (h : expect word cs = .ok rest) :
    rest.length ≤ cs.length := by
  fun_induction expect word cs with
  | case1 cs => cases h; exact Nat.le_refl _
  | case2 => simp at h
  | case3 w ws cs ih => exact Nat.le_succ_of_le (ih h)
  | case4 => simp at h

theorem length_readHex {cs rest : List Char} {n : Nat} (h : readHex cs = .ok (n, rest)) :
    rest.length < cs.length := by
  unfold readHex at h
  split at h
  · simp at h
  · split at h
    · split at h
      · simp only [Except.ok.injEq, Prod.mk.injEq] at h
        simp only [← h.2, List.length_cons]
        omega
      · simp at h
    · simp at h

theorem length_readSecondUnit {high : Nat} {cs rest : List Char} {c : Char}
    (h : readSecondUnit high cs = .ok (c, rest)) : rest.length < cs.length := by
  unfold readSecondUnit at h
  split at h
  · simp at h
  · next mid he =>
    split at h
    · simp at h
    · next hr =>
      split at h
      · simp only [Except.ok.injEq, Prod.mk.injEq] at h
        rw [← h.2]
        exact Nat.lt_of_lt_of_le (length_readHex hr) (length_expect he)
      · simp at h

theorem length_readUnits {cs rest : List Char} {c : Char} (h : readUnits cs = .ok (c, rest)) :
    rest.length < cs.length := by
  unfold readUnits at h
  split at h
  · simp at h
  · next hr =>
    split at h
    · simp at h
    · split at h
      · exact Nat.lt_trans (length_readSecondUnit h) (length_readHex hr)
      · simp only [Except.ok.injEq, Prod.mk.injEq] at h
        rw [← h.2]
        exact length_readHex hr

theorem length_readEscape {cs rest : List Char} {c : Char} (h : readEscape cs = .ok (c, rest)) :
    rest.length < cs.length := by
  rw [readEscape.eq_def] at h
  split at h
  · simp at h
  · split at h
    · exact Nat.lt_succ_of_lt (length_readUnits h)
    · split at h
      · cases h; exact Nat.lt_succ_self _
      · simp at h

/-- Reads a string behind its opening quotation mark, having read `got`, newest first. -/
def readChars (got : List Char) : Reader String
  | [] => .error .truncated
  | c :: rest =>
    if c = '"' then .ok (String.ofList got.reverse, rest)
    else if c = '\\' then
      match _ : readEscape rest with
      | .ok (a, rest) => readChars (a :: got) rest
      | .error fault => .error fault
    else if c.toNat < 0x20 then .error .malformed
    else readChars (c :: got) rest
termination_by cs => cs.length
decreasing_by
  · exact Nat.lt_succ_of_lt (length_readEscape ‹_›)
  · exact Nat.lt_succ_self _

/-- Reads a string behind its opening quotation mark. -/
def readString : Reader String := readChars []

/-! ### Numbers -/

def startsWithDigit : List Char → Bool
  | [] => false
  | c :: _ => (Text.digit? c).isSome

def skipDigits (cs : List Char) : List Char := cs.dropWhile fun c => (Text.digit? c).isSome

/-- Reads the digits of a whole number behind `n`. Digits that `n` has no room for only raise the
exponent. -/
def readWhole (n : Nat) : List Char → Scientific × List Char
  | [] => (⟨n, 0⟩, [])
  | c :: cs =>
    match Text.digit? c with
    | none => (⟨n, 0⟩, c :: cs)
    | some d =>
      if n * 10 + d ≤ maxSignificand then readWhole (n * 10 + d) cs
      else (⟨n, (c :: cs).length - (skipDigits (c :: cs)).length⟩, skipDigits (c :: cs))

/-- Reads the digits of a fraction behind `s`. Digits that `s` has no room for are dropped. -/
def readFraction (s : Scientific) : List Char → Scientific × List Char
  | [] => (s, [])
  | c :: cs =>
    match Text.digit? c with
    | none => (s, c :: cs)
    | some d =>
      if s.significand * 10 + d ≤ maxSignificand then
        readFraction ⟨s.significand * 10 + d, s.exponent - 1⟩ cs
      else (s, skipDigits (c :: cs))

/-- Reads the digits of a natural number behind `n`. -/
def readNat (n : Nat) : List Char → Nat × List Char
  | [] => (n, [])
  | c :: cs =>
    match Text.digit? c with
    | none => (n, c :: cs)
    | some d => readNat (n * 10 + d) cs

/-- Reads the exponent of `s`, behind the letter that announces it. -/
def readExponent (s : Scientific) : Reader Scientific := fun cs =>
  let (negative, digits) :=
    match cs with
    | '+' :: rest => (false, rest)
    | '-' :: rest => (true, rest)
    | _ => (false, cs)
  match digits with
  | [] => .error .truncated
  | c :: rest =>
    if startsWithDigit (c :: rest) then
      let (n, rest) := readNat 0 (c :: rest)
      .ok (⟨s.significand, if negative then s.exponent - n else s.exponent + n⟩, rest)
    else .error .malformed

/-- The double of a decimal that has been read, with its sign. -/
def finishDouble (negative : Bool) (s : Scientific) (rest : List Char) :
    Except Fault (Number × List Char) :=
  match s.toDouble? with
  | some x => .ok (.double (if negative then -x else x), rest)
  | none => .error .malformed

/-- Reads the exponent of `s`, if it has one, and finishes the double. -/
def readTail (negative : Bool) (s : Scientific) (cs : List Char) :
    Except Fault (Number × List Char) :=
  match cs with
  | [] => finishDouble negative s []
  | c :: rest =>
    if c = 'e' ∨ c = 'E' then do
      let (s, rest) ← readExponent s rest
      finishDouble negative s rest
    else finishDouble negative s (c :: rest)

/-- Reads a number behind its sign. A zero in front of other digits is not allowed. -/
def readMagnitude (negative : Bool) : Reader Number
  | [] => .error .truncated
  | c :: cs =>
    if startsWithDigit (c :: cs) then
      if c = '0' ∧ startsWithDigit cs then .error .malformed
      else
        match readWhole 0 (c :: cs) with
        | (s, '.' :: rest) =>
          match rest with
          | [] => .error .truncated
          | a :: rest =>
            if startsWithDigit (a :: rest) then
              let (s, rest) := readFraction s (a :: rest)
              readTail negative s rest
            else .error .malformed
        | (s, a :: rest) =>
          if s.exponent = 0 ∧ a ≠ 'e' ∧ a ≠ 'E' then
            .ok (.ofDigits negative s.significand, a :: rest)
          else readTail negative s (a :: rest)
        | (s, []) =>
          if s.exponent = 0 then .ok (.ofDigits negative s.significand, [])
          else finishDouble negative s []
    else .error .malformed

/-! ### Values that are not wanted -/

/-- What a message calls the value at the head of the text. Literals, numbers and strings have to
be well formed; of a list or an object only the opening mark is looked at. -/
def describeValue : List Char → Except Fault String
  | [] => .error .truncated
  | c :: cs =>
    if c = 'n' then (expect "ull".toList cs).map fun _ => "null"
    else if c = 't' then (expect "rue".toList cs).map fun _ => "boolean `true`"
    else if c = 'f' then (expect "alse".toList cs).map fun _ => "boolean `false`"
    else if c = '-' then (readMagnitude true cs).map fun r => r.1.describe
    else if startsWithDigit (c :: cs) then (readMagnitude false (c :: cs)).map fun r => r.1.describe
    else if c = '"' then (readString cs).map fun r => "string " ++ Text.quoteString r.1
    else if c = '[' then .ok "sequence"
    else if c = '{' then .ok "map"
    else .error .malformed

/-- The fault of a value where something else is wanted. -/
def unwanted (wanted : String) (cs : List Char) : Fault :=
  match describeValue cs with
  | .ok found => .unsuitable ("invalid type: " ++ found ++ ", expected " ++ wanted)
  | .error fault => fault

end ArithLexer.Json
