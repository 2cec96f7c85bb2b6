import ArithLexer.CommandLine.Help
import ArithLexer.CommandLine.Invocation
import ArithLexer.Host.Basic
import ArithLexer.Output.Buffered
import ArithLexer.Settings.Basic

/-!
# A run

A run understands its arguments, finds its settings, opens its log file, opens its input, and
writes the tokens of the input. The first of these that fails ends it. What it reports on the way
goes through the filter of the settings, to the console and to the log file. The tokens go through a
buffer, which is flushed at the end of the writing whatever that has come to.
-/

namespace ArithLexer

open Log (Event)

/-- Why a run failed. -/
inductive RunError where
  | settings (cause : SettingsError)
  | logFile (path : String) (cause : IoError)
  | input (path : String) (cause : IoError)
  | lexing (cause : LexFailure)
  | output (cause : IoError)
deriving DecidableEq, Repr

namespace RunError

def ofWriteFailure : WriteFailure → RunError
  | .lexing cause => lexing cause
  | .output cause => output cause

def message : RunError → String
  | settings cause => cause.message
  | logFile path cause => "cannot open log file '" ++ path ++ "': " ++ cause.text
  | input path cause => "cannot open '" ++ path ++ "': " ++ cause.text
  | lexing cause => cause.message
  | output cause => "cannot write output: " ++ cause.text

def render : RunError → String
  | lexing cause => cause.render
  | e => e.message

/-- The exit code: 2 where the way the run was set up is to blame, 1 otherwise. -/
def exitCode : RunError → Nat
  | settings _ => 2
  | logFile _ _ => 2
  | input _ _ => 1
  | lexing _ => 1
  | output _ => 1

end RunError

/-- What a run came to. -/
structure Report where
  /-- The number of tokens written, or why there are not more. -/
  result : Except RunError Nat
  /-- What the standard output has accepted. -/
  output : Array UInt8 := #[]
  events : List Event := []
  layout : Log.Layout := .compact

namespace Report

def exitCode (r : Report) : Nat :=
  match r.result with
  | .ok _ => 0
  | .error e => e.exitCode

/-- What a run shows of its error on the console. -/
def errorText (r : Report) : String :=
  match r.result with
  | .ok _ => ""
  | .error e => "error: " ++ e.render ++ "\n"

/-- What a run shows on the console: what it reported, and then its error. -/
def console (r : Report) : String := r.layout.text r.events ++ r.errorText

end Report

def defaultSettingsPath : String := "calx.json"

def readCapacity : Nat := 8192

def outputCapacity : Nat := 8192

/-- Whether a path names the standard input: it is a dash, behind which slashes and single dots
make no difference. -/
def isStandardInput (path : String) : Bool :=
  match pathNames path with
  | [] => false
  | name :: rest => name = "-" && rest.all fun n => n = "" || n = "."

section
variable {m : Type → Type} [Monad m] (host : Host m)

/-- The choices that the settings file at a path makes. -/
def readSettings (path : String) : m (Except SettingsError Choices) := do
  match ← host.readFile path with
  | .error cause => return .error (.unreadable path cause)
  | .ok content =>
    match textOfContent content with
    | .error cause => return .error (.unreadable path cause)
    | .ok text => return (SettingsFile.decode text).mapError (.illFormed path)

/-- The choices of the settings file that is named; if none is, those of the default one, if it
is there. -/
def findSettings (named : Option String) : m (Except SettingsError Choices) := do
  match named with
  | some path => readSettings host path
  | none =>
    if ← host.isFile defaultSettingsPath then readSettings host defaultSettingsPath
    else return .ok {}

/-- What a run has come to, having written tokens and flushed what it held of them. That the rest
could not be sent on counts only where nothing failed before. -/
def reportOn (written : Except WriteFailure Nat) (flushed : Except IoError Unit)
    (events : List Event) (output : Array UInt8) : Report :=
  match written, flushed with
  | .error cause, _ => { result := .error (.ofWriteFailure cause), output, events }
  | .ok _, .error cause => { result := .error (.output cause), output, events }
  | .ok count, .ok () => { result := .ok count, output, events := events ++ [.done count] }

/-- Writes the tokens of an input that has been opened, having reported `told`. What is held of the
output is sent on before it is looked at whether anything failed. -/
def lexPortions (output : Device m) (format : TokenFormat) (told : List Event)
    (portions : List Portion) : m Report := do
  let out : BufferedWriter m := ⟨output, outputCapacity⟩
  let source := ByteStream.ofSupply readCapacity portions
  let (written, buffer) ← (writeAll out.writer format source).run {}
  let (flushed, buffer) ← out.flush buffer
  let buffer ← out.finish buffer
  return reportOn written.result flushed (told ++ written.events) buffer.sent

/-- Opens the input and writes its tokens, with everything that is reported. -/
def lexInput (format : TokenFormat) (file : Option String) : m Report := do
  match file.filter fun path => !isStandardInput path with
  | none => lexPortions host.output format [.lexingStdin] (← host.standardInput)
  | some path =>
    match ← host.openInput path with
    | .ok portions => lexPortions host.output format [.lexingFile path] portions
    | .error cause => return { result := .error (.input path cause), events := [.lexingFile path] }

/-- The report with only what the settings let through. -/
def Report.under (r : Report) (s : Settings) : Report :=
  { r with events := s.levels.filter.select r.events, layout := s.logFormat }

/-- Lexes the input under settings that have been found. -/
def lexUnder (s : Settings) (file : Option String) : m Report := do
  match s.logFile with
  | none => return (← lexInput host s.output file).under s
  | some path =>
    match ← host.openLog path with
    | .error cause => return { result := .error (.logFile path cause) }
    | .ok () =>
      let report := (← lexInput host s.output file).under s
      host.extendLog path (utf8Bytes (Log.fileText report.events))
      return report

def carryOut (i : CommandLine.Invocation) : m Report := do
  let file ← findSettings host i.config
  match file.bind fun file => Settings.ofChoices file i.choices with
  | .error cause => return { result := .error (.settings cause) }
  | .ok s => lexUnder host s i.file

end

/-- What a command line came to. -/
inductive Outcome where
  | help
  | version
  | usage (error : CommandLine.UsageError)
  | ran (report : Report)

section
variable {m : Type → Type} [Monad m] (host : Host m)

/-- Writes a text to the standard output. If it cannot be written, nothing is said about it. -/
def tell (text : String) : m Unit := do
  let (_, result) ← host.output.sendAll Device.textRefused (utf8Bytes text)
  match result with
  | .ok () => discard host.output.flush.run
  | .error _ => return

def run (arguments : List String) : m Outcome := do
  match CommandLine.parse arguments with
  | .error error => return .usage error
  | .ok .help => tell host CommandLine.helpText; return .help
  | .ok .version => tell host CommandLine.versionText; return .version
  | .ok (.lex i) => return .ran (← carryOut host i)

end

namespace Outcome

def exitCode : Outcome → Nat
  | help => 0
  | version => 0
  | usage _ => 2
  | ran report => report.exitCode

def output : Outcome → Array UInt8
  | help => (utf8Bytes CommandLine.helpText).toArray
  | version => (utf8Bytes CommandLine.versionText).toArray
  | usage _ => #[]
  | ran report => report.output

def console : Outcome → String
  | help => ""
  | version => ""
  | usage error => "error: " ++ error.message ++ "\n"
  | ran report => report.console

end Outcome
end ArithLexer
