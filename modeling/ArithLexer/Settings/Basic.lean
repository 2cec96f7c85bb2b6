import ArithLexer.Log.Filter
import ArithLexer.Settings.File

/-!
# Settings

The settings of a run start from defaults, take over what the settings file says, and then what
the flags of the command line say. Names of levels are checked in this order, so a bad name in the
file is an error even if a flag would have replaced it.
-/

namespace ArithLexer

/-- Why there are no settings. -/
inductive SettingsError where
  | unreadable (path : String) (cause : IoError)
  | illFormed (path : String) (fault : Json.Fault)
  | unknownLevel (name : String)
deriving DecidableEq, Repr

/-- A fault as the end of a message. -/
def Json.Fault.message : Json.Fault → String
  | malformed => "not valid JSON"
  | truncated => "the text ends too early"
  | unsuitable detail => detail

def SettingsError.message : SettingsError → String
  | unreadable path cause => "cannot read '" ++ path ++ "': " ++ cause.text
  | illFormed path fault => "cannot parse '" ++ path ++ "': " ++ fault.message
  | unknownLevel name =>
    "unknown log level '" ++ name ++ "' (expected silent, error, warn, info, debug or trace)"

def parseLevel (name : String) : Except SettingsError Log.Level :=
  match Log.Level.ofName? name with
  | some level => .ok level
  | none => .error (.unknownLevel name)

structure Settings where
  levels : Log.Levels := {}
  logFormat : Log.Layout := .compact
  logFile : Option String := none
  output : TokenFormat := .debug
deriving DecidableEq, Repr

namespace Settings

/-- The settings with choices put in place of what they had. The level of the whole program is
checked before that of the lexer. -/
def adopt (s : Settings) (c : Choices) : Except SettingsError Settings := do
  let overall ← match c.logLevel with
    | some name => parseLevel name
    | none => pure s.levels.overall
  let lexer ← match c.lexerLogLevel with
    | some name => some <$> parseLevel name
    | none => pure s.levels.lexer
  return {
    levels := ⟨overall, lexer⟩
    logFormat := c.logFormat.getD s.logFormat
    logFile := c.logFile.or s.logFile
    output := c.output.getD s.output }

/-- The settings of a run: the defaults, then the choices of the settings file, then those of the
command line. -/
def ofChoices (file flags : Choices) : Except SettingsError Settings := do
  (← adopt {} file).adopt flags

end Settings
end ArithLexer
