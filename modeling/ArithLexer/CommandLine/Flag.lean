import ArithLexer.Settings.File

/-!
# Flags

A flag has a name with two dashes and a value. The values of flags are judged by the flag alone:
paths must not be empty, and layouts and formats have to be among those there are.
-/

namespace ArithLexer.CommandLine

/-- The flags with a value. -/
inductive Flag where
  | config
  | logLevel
  | lexerLogLevel
  | logFormat
  | logFile
  | output
deriving DecidableEq, Repr

namespace Flag

def all : List Flag := [config, logLevel, lexerLogLevel, logFormat, logFile, output]

/-- The name of a flag, without its dashes. -/
def name : Flag → String
  | config => "config"
  | logLevel => "log-level"
  | lexerLogLevel => "lexer-log-level"
  | logFormat => "log-format"
  | logFile => "log-file"
  | output => "output"

/-- Whether a flag may stand in front of the command too. -/
def isGlobal (f : Flag) : Bool := f ≠ output

def ofName? (name : String) : Option Flag := all.find? fun f => f.name = name

/-- Whether a flag takes a value. Names of levels are not judged here. -/
def takes (f : Flag) (value : String) : Bool :=
  match f with
  | config => value ≠ ""
  | logLevel => true
  | lexerLogLevel => true
  | logFormat => SettingsFile.layouts.any fun c => c.1 = value
  | logFile => value ≠ ""
  | output => SettingsFile.formats.any fun c => c.1 = value

end Flag

/-- Flags with their values, the last one given first. -/
abbrev Given := List (Flag × String)

namespace Given

def value? (g : Given) (f : Flag) : Option String := (g.find? fun e => e.1 = f).map (·.2)

def choices (g : Given) : Choices where
  logLevel := g.value? .logLevel
  lexerLogLevel := g.value? .lexerLogLevel
  logFormat := (g.value? .logFormat).bind fun v =>
    (SettingsFile.layouts.find? fun c => c.1 = v).map (·.2)
  logFile := g.value? .logFile
  output := (g.value? .output).bind fun v =>
    (SettingsFile.formats.find? fun c => c.1 = v).map (·.2)

end Given
end ArithLexer.CommandLine
