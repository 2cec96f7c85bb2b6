import ArithLexer.Json.Quoted
import ArithLexer.Log.Event

/-!
# Log lines

On the console events are laid out in one of three ways; in a log file there is one layout only.
In every layout the fields follow the message in their own order, except in JSON, where members
are in the order of their names.
-/

namespace ArithLexer.Log

/-- The layouts of events on the console. -/
inductive Layout where
  /-- For reading: an event is set off by an empty line. -/
  | pretty
  /-- One short line without the target. -/
  | compact
  | json
deriving DecidableEq, Repr

/-- A level in a column of five characters, moved to the right. -/
def Level.column (l : Level) : String :=
  String.ofList (List.replicate (5 - l.label.length) ' ') ++ l.label

namespace Event

/-- The fields of an event, each as its name, `between` and its value, and each after `before`. -/
def fieldText (before between : String) (e : Event) : String :=
  String.join (e.fields.map fun f => before ++ f.1 ++ between ++ f.2.display)

/-- The event as a line for the console that leaves out the target. -/
def compactLine (e : Event) : String :=
  e.level.column ++ " " ++ e.message ++ e.fieldText " " "="

/-- The event as a line of a log file. -/
def fileLine (e : Event) : String :=
  " " ++ e.level.column ++ " " ++ e.target ++ ": " ++ e.message ++ e.fieldText " " "="

def prettyLine (e : Event) : String :=
  "  " ++ e.level.label ++ " " ++ e.target ++ ": " ++ e.message ++ e.fieldText ", " ": " ++ "\n"

def valueJson : Value → String
  | .number value => value.repr
  | .text value => Json.quote value

/-- The message and the fields as members of a JSON object, by name. -/
def memberText (e : Event) : List String :=
  let members := ("message", Value.text e.message) :: e.fields
  (members.mergeSort fun a b => decide (a.1 ≤ b.1)).map fun m =>
    Json.quote m.1 ++ ":" ++ valueJson m.2

def jsonLine (e : Event) : String :=
  "\x7b\"fields\":\x7b" ++ ",".intercalate e.memberText ++ "\x7d,\"level\":" ++
    Json.quote e.level.label ++ ",\"target\":" ++ Json.quote e.target ++ "\x7d"

end Event

def Layout.line : Layout → Event → String
  | pretty => Event.prettyLine
  | compact => Event.compactLine
  | json => Event.jsonLine

/-- Events as console text, a line feed after each. -/
def Layout.text (l : Layout) (events : List Event) : String :=
  String.join (events.map fun e => l.line e ++ "\n")

/-- Events as text for a log file, a line feed after each. -/
def fileText (events : List Event) : String :=
  String.join (events.map fun e => e.fileLine ++ "\n")

end ArithLexer.Log
