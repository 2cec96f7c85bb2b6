import ArithLexer.Log.Layout
import ArithLexer.TokenOutput

/-!
# What can be chosen

A settings file and the flags of the command line choose the same things, and each choice can be
left open.
-/

namespace ArithLexer

/-- Choices for a run. The names of levels are kept as they were given, not yet checked. -/
structure Choices where
  logLevel : Option String := none
  lexerLogLevel : Option String := none
  /-- The layout of log lines on the console. -/
  logFormat : Option Log.Layout := none
  logFile : Option String := none
  output : Option TokenFormat := none
deriving DecidableEq, Repr

end ArithLexer
