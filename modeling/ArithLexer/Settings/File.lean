import ArithLexer.Json.Reader
import ArithLexer.Settings.Choices

/-!
# Settings files

A settings file is a JSON object with up to five members, in any order, or a list of the five
values in the order of the members. A member that is absent and one that is `null` mean the same.
Levels and the log file are strings; the log layout and the output format are names from a list,
written as a string or as an object with the name as its one member and `null` as its value.
-/

namespace ArithLexer

namespace SettingsFile

open Json

/-- The members of a settings file. -/
inductive Member where
  | logLevel
  | lexerLogLevel
  | logFormat
  | logFile
  | output
deriving DecidableEq, Repr

def Member.all : List Member := [.logLevel, .lexerLogLevel, .logFormat, .logFile, .output]

def Member.key : Member → String
  | logLevel => "log_level"
  | lexerLogLevel => "lexer_log_level"
  | logFormat => "log_format"
  | logFile => "log_file"
  | output => "output"

def Member.ofKey? (key : String) : Option Member := Member.all.find? fun m => m.key = key

/-- The layouts that a settings file can name. -/
def layouts : List (String × Log.Layout) :=
  [("pretty", .pretty), ("compact", .compact), ("json", .json)]

def formats : List (String × TokenFormat) := [("debug", .debug), ("json", .json)]

/-- A name as messages show it. -/
def tick (name : String) : String := "`" ++ name ++ "`"

/-- The names that a message offers. -/
def offer : List String → String
  | [a, b] => tick a ++ " or " ++ tick b
  | names => "one of " ++ ", ".intercalate (names.map tick)

/-! ### Values -/

/-- Reads `null`, or a string for which messages say `wanted`. -/
def readText (wanted : String) : Reader (Option String) := fun cs =>
  match skipSpace cs with
  | [] => .error .truncated
  | c :: rest =>
    if c = 'n' then (expect "ull".toList rest).map fun rest => (none, rest)
    else if c = '"' then (readString rest).map fun r => (some r.1, r.2)
    else .error (unwanted wanted (c :: rest))

def choose {α : Type} (choices : List (String × α)) (name : String) : Except Fault α :=
  match choices.find? fun c => c.1 = name with
  | some (_, value) => .ok value
  | none =>
    .error (.unsuitable
      ("unknown variant " ++ tick name ++ ", expected " ++ offer (choices.map (·.1))))

/-- Reads `null`, and nothing else. -/
def readNull (cs : List Char) : Except Fault (List Char) :=
  match skipSpace cs with
  | [] => .error .truncated
  | c :: rest =>
    if c = 'n' then expect "ull".toList rest else .error (unwanted "unit" (c :: rest))

/-- Reads an object that names a choice, behind its opening brace. The name is judged before
what follows it. -/
def readChoiceObject {α : Type} (choices : List (String × α)) : Reader α := fun cs => do
  let rest ← expectMark '"' cs
  let (name, rest) ← readString rest
  let value ← choose choices name
  let rest ← expectMark ':' rest
  let rest ← readNull rest
  let rest ← expectMark '}' rest
  return (value, rest)

/-- Reads `null`, or one of the choices. -/
def readChoice {α : Type} (choices : List (String × α)) : Reader (Option α) := fun cs =>
  match skipSpace cs with
  | [] => .error .truncated
  | c :: rest =>
    if c = 'n' then (expect "ull".toList rest).map fun rest => (none, rest)
    else if c = '"' then do
      let (name, rest) ← readString rest
      let value ← choose choices name
      return (some value, rest)
    else if c = '{' then do
      let (value, rest) ← readChoiceObject choices rest
      return (some value, rest)
    else .error .malformed

/-- Reads the value of a member into `s`. -/
def readValue (m : Member) (s : Choices) : Reader Choices := fun cs =>
  match m with
  | .logLevel => (readText "a string" cs).map fun r => ({ s with logLevel := r.1 }, r.2)
  | .lexerLogLevel => (readText "a string" cs).map fun r => ({ s with lexerLogLevel := r.1 }, r.2)
  | .logFormat => (readChoice layouts cs).map fun r => ({ s with logFormat := r.1 }, r.2)
  | .logFile => (readText "path string" cs).map fun r => ({ s with logFile := r.1 }, r.2)
  | .output => (readChoice formats cs).map fun r => ({ s with output := r.1 }, r.2)

/-! ### Objects and lists -/

/-- Reads the key of a member that is still missing, behind its opening quotation mark. -/
def readKey (missing : List Member) : Reader { m : Member // m ∈ missing } := fun cs => do
  let (key, rest) ← readString cs
  match Member.ofKey? key with
  | none =>
    throw (.unsuitable
      ("unknown field " ++ tick key ++ ", expected " ++ offer (Member.all.map Member.key)))
  | some m =>
    if h : m ∈ missing then return (⟨m, h⟩, rest)
    else throw (.unsuitable ("duplicate field " ++ tick key))

/-- Whether another member follows in an object. If so, reads up to behind the opening quotation
mark of its key, and else up to behind the closing brace. -/
def readMore (isFirst : Bool) : Reader Bool := fun cs =>
  match skipSpace cs with
  | [] => .error .truncated
  | c :: rest =>
    if c = '}' then .ok (false, rest)
    else if isFirst then
      if c = '"' then .ok (true, rest) else .error .malformed
    else if c = ',' then (expectMark '"' rest).map fun rest => (true, rest)
    else .error .malformed

/-- Reads the members of an object that are still missing, behind its opening brace or behind a
member. No member may come twice. -/
def readMembers (missing : List Member) (isFirst : Bool) (s : Choices) :
    Reader Choices := fun cs =>
  match readMore isFirst cs with
  | .error fault => .error fault
  | .ok (false, rest) => .ok (s, rest)
  | .ok (true, rest) =>
    match readKey missing rest with
    | .error fault => .error fault
    | .ok (⟨m, _⟩, rest) =>
      match expectMark ':' rest with
      | .error fault => .error fault
      | .ok rest =>
        match readValue m s rest with
        | .error fault => .error fault
        | .ok (s, rest) => readMembers (missing.erase m) false s rest
termination_by missing.length
decreasing_by
  rw [List.length_erase_of_mem ‹m ∈ missing›]
  exact Nat.sub_lt (List.length_pos_of_mem ‹m ∈ missing›) Nat.one_pos

/-- The fault of a list that ends after `count` values. -/
def tooShort (count : Nat) : Fault :=
  .unsuitable
    ("invalid length " ++ count.repr ++ ", expected struct FileConfig with 5 elements")

/-- Reads the values of a list for `members`, after `count` others. -/
def readElements (count : Nat) (s : Choices) : List Member → Reader Choices
  | [], cs => (expectMark ']' cs).map fun rest => (s, rest)
  | m :: ms, cs =>
    match skipSpace cs with
    | [] => .error .truncated
    | c :: rest =>
      if c = ']' then .error (tooShort count)
      else if count = 0 then do
        let (s, rest) ← readValue m s (c :: rest)
        readElements (count + 1) s ms rest
      else if c = ',' then
        match skipSpace rest with
        | [] => .error .truncated
        | d :: rest =>
          if d = ']' then .error .malformed
          else do
            let (s, rest) ← readValue m s (d :: rest)
            readElements (count + 1) s ms rest
      else .error .malformed

/-- Reads a settings file up to the end of its value. -/
def read : Reader Choices := fun cs =>
  match skipSpace cs with
  | [] => .error .truncated
  | c :: rest =>
    if c = '[' then readElements 0 {} Member.all rest
    else if c = '{' then readMembers Member.all true {} rest
    else .error (unwanted "struct FileConfig" (c :: rest))

/-- The settings file that a text holds. Nothing but white space may follow it. -/
def decode (text : String) : Except Fault Choices :=
  match read text.toList with
  | .error fault => .error fault
  | .ok (s, rest) => if skipSpace rest = [] then .ok s else .error .malformed

end SettingsFile
end ArithLexer
