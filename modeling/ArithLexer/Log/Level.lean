import ArithLexer.Text.Lowercase

/-!
# Log levels

A level says how much detail an event is. A limit lets through the events that are no more
detailed than itself.
-/

namespace ArithLexer.Log

/-- How much detail an event is, from the gravest to the most detailed. -/
inductive Level where
  | error
  | warn
  | info
  | debug
  | trace
deriving DecidableEq, Repr

namespace Level

/-- The levels from the gravest to the most detailed. -/
def all : List Level := [error, warn, info, debug, trace]

def detail : Level → Nat
  | error => 0
  | warn => 1
  | info => 2
  | debug => 3
  | trace => 4

/-- Whether events of `level` pass the limit. -/
def admits (limit level : Level) : Bool := level.detail ≤ limit.detail

def label : Level → String
  | error => "ERROR"
  | warn => "WARN"
  | info => "INFO"
  | debug => "DEBUG"
  | trace => "TRACE"

/-- The level that a user names. Case does not matter, and `silent` leaves errors on. -/
def ofName? (name : String) : Option Level :=
  match Text.lowercase name with
  | "silent" => some error
  | "error" => some error
  | "warn" => some warn
  | "info" => some info
  | "debug" => some debug
  | "trace" => some trace
  | _ => none

end Level
end ArithLexer.Log
