import ArithLexer.Log.Event

/-!
# Which events are reported

A filter holds limits for targets. An entry applies to every target that begins with its name as
text, so to longer names too; among the entries that apply, the longest name decides, and where
none applies there is a limit for everything else.

The levels a user chooses, one for the whole program and perhaps one for the lexer, become a
filter with an entry for each part of the program.
-/

namespace ArithLexer.Log

/-- A limit for each target. -/
structure Filter where
  entries : List (String × Level)
  /-- The limit where no entry applies. -/
  otherwise : Level
deriving DecidableEq, Repr

namespace Filter

/-- Whether an entry applies to a target: the target begins with the name of the entry. -/
def appliesTo (target : String) (entry : String × Level) : Bool :=
  entry.1.toList.isPrefixOf target.toList

/-- The entry with the longer name, the first of two that are equally long. -/
def longer (a b : String × Level) : String × Level :=
  if a.1.length < b.1.length then b else a

def limit (f : Filter) (target : String) : Level :=
  match f.entries.filter (appliesTo target) with
  | [] => f.otherwise
  | e :: es => (es.foldl longer e).2

/-- Whether events of a level from a target are reported. -/
def enables (f : Filter) (target : String) (level : Level) : Bool := (f.limit target).admits level

def select (f : Filter) (events : List Event) : List Event :=
  events.filter fun e => f.enables e.target e.level

end Filter

/-- The levels that a user chooses. -/
structure Levels where
  overall : Level := .error
  /-- The level of the lexer, if it has one of its own. -/
  lexer : Option Level := none
deriving DecidableEq, Repr

namespace Levels

/-- The level for a target, by its whole name. -/
def forTarget (l : Levels) (target : String) : Level :=
  if target = lexerTarget then l.lexer.getD l.overall else l.overall

/-- The filter that puts the levels into effect. -/
def filter (l : Levels) : Filter :=
  ⟨[(lexerTarget, l.forTarget lexerTarget), (commandTarget, l.overall)], l.overall⟩

end Levels
end ArithLexer.Log
