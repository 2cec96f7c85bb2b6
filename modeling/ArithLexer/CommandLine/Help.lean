/-!
# Help

The texts that answer a request for help or for the version.
-/

namespace ArithLexer.CommandLine

/-- The name and the version of the program. -/
def versionText : String := "calx 0.1.0\n"

/-- What the program does and how it is called. -/
def helpText : String :=
  "calx - streaming lexer for arithmetic expressions\n\n" ++
  "Usage: calx [FLAGS] lex [FLAGS] [FILE]\n\n" ++
  "Writes one token of FILE to a line; without FILE, or for -, of the standard input.\n\n" ++
  "Flags:\n" ++
  "  --config CONFIG            settings file (calx.json, if there is one)\n" ++
  "  --log-level LEVEL          silent, error, warn, info, debug or trace\n" ++
  "  --lexer-log-level LEVEL    the same for the lexer alone\n" ++
  "  --log-format FORMAT        pretty, compact or json\n" ++
  "  --log-file PATH            append log lines to this file too\n" ++
  "  --output FORMAT            debug or json; behind lex only\n" ++
  "  -h, --help                 show this text\n" ++
  "  -V, --version              show the version; in front of lex only\n"

end ArithLexer.CommandLine
