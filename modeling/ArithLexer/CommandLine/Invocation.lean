import ArithLexer.CommandLine.Flag

/-!
# The command line

The command line is `calx [FLAGS] lex [FLAGS] [FILE]`. A flag takes its value behind an equals
sign or from the next argument, which must not look like a flag itself. On either side of the
command a flag may stand once; where it stands on both sides, the one behind the command counts.
Behind `--` every argument is a file.

Arguments are judged from left to right. The value that a flag in front of the command takes from
the next argument is held back: it is judged when the next flag comes, or at the end, so not
before an answer to a request for help behind the command.
-/

namespace ArithLexer.CommandLine

/-- Why the arguments cannot be understood. -/
inductive UsageError where
  | noCommand
  /-- An argument has no place where it stands. -/
  | unexpected (argument : String)
  | noValue (flag : Flag)
  | badValue (flag : Flag) (value : String)
  /-- A flag stands twice on one side of the command. -/
  | repeated (flag : Flag)
deriving DecidableEq, Repr

def UsageError.message : UsageError → String
  | noCommand => "a command is missing"
  | unexpected argument => "unexpected argument '" ++ argument ++ "'"
  | noValue flag => "--" ++ flag.name ++ " needs a value"
  | badValue flag value => "'" ++ value ++ "' is no value for --" ++ flag.name
  | repeated flag => "--" ++ flag.name ++ " is given twice"

/-- What is to be lexed, and how. -/
structure Invocation where
  /-- The path of the settings file, if one is named. -/
  config : Option String
  choices : Choices
  file : Option String
deriving DecidableEq, Repr

/-- What the user asks for. -/
inductive Request where
  | help
  | version
  | lex (invocation : Invocation)
deriving DecidableEq, Repr

inductive Shape where
  | escape
  /-- A name behind two dashes, perhaps with a value behind an equals sign. -/
  | long (name : String) (value : Option String)
  /-- Letters behind one dash; the first of them decides. -/
  | short (letter : Char)
  | plain
deriving DecidableEq, Repr

/-- The shape of an argument. One dash alone is plain. -/
def Shape.of (argument : String) : Shape :=
  match argument.toList with
  | '-' :: '-' :: [] => .escape
  | '-' :: '-' :: rest =>
    .long (String.ofList (rest.takeWhile (· ≠ '=')))
      (match rest.dropWhile (· ≠ '=') with
        | [] => none
        | _ :: value => some (String.ofList value))
  | '-' :: letter :: _ => .short letter
  | _ => .plain

/-- Adds a flag with its value to those on its side of the command. -/
def add (flag : Flag) (value : String) (g : Given) : Except UsageError Given :=
  if (g.value? flag).isSome then .error (.repeated flag)
  else if flag.takes value then .ok ((flag, value) :: g)
  else .error (.badValue flag value)

/-- Judges the value that was held back, if there is one. -/
def settle (held : Option (Flag × String)) (g : Given) : Except UsageError Given :=
  match held with
  | none => .ok g
  | some (flag, value) => add flag value g

/-- The arguments behind the command, after flags `g` and perhaps a file. -/
def parseLex (g : Given) (file : Option String) (escaped : Bool) :
    List String → Except UsageError (Option (Given × Option String))
  | [] => .ok (some (g, file))
  | argument :: rest =>
    match if escaped then .plain else Shape.of argument with
    | .escape => parseLex g file true rest
    | .short letter => if letter = 'h' then .ok none else .error (.unexpected argument)
    | .long name value =>
      match Flag.ofName? name, value with
      | none, none => if name = "help" then .ok none else .error (.unexpected argument)
      | none, some _ => .error (.unexpected argument)
      | some flag, some value => do
        parseLex (← add flag value g) file false rest
      | some flag, none =>
        match rest with
        | [] => .error (.noValue flag)
        | value :: rest =>
          if Shape.of value = .plain then do
            parseLex (← add flag value g) file false rest
          else .error (.noValue flag)
    | .plain =>
      if file.isSome ∨ argument = "" then .error (.unexpected argument)
      else parseLex g (some argument) escaped rest

/-- A request for lexing, or for help, from the flags on both sides of the command. -/
def lexRequest (front : Given) : Option (Given × Option String) → Request
  | none => .help
  | some (g, file) =>
    let both := g ++ front
    .lex ⟨both.value? .config, both.choices, file⟩

/-- The arguments behind `help`: nothing, or one command. -/
def parseHelp : List String → Except UsageError Request
  | [] => .ok .help
  | ["lex"] => .ok .help
  | ["help"] => .ok .help
  | "lex" :: argument :: _ => .error (.unexpected argument)
  | "help" :: argument :: _ => .error (.unexpected argument)
  | argument :: _ => .error (.unexpected argument)

/-- The arguments from the head of the command line, after flags `g` and a value held back. -/
def parseFront (g : Given) (held : Option (Flag × String)) :
    List String → Except UsageError Request
  | [] => .error .noCommand
  | argument :: rest =>
    match Shape.of argument with
    | .escape => .error .noCommand
    | .short letter => do
      discard (settle held g)
      if letter = 'h' then return .help
      else if letter = 'V' then return .version
      else throw (.unexpected argument)
    | .long name value => do
      let g ← settle held g
      match (Flag.ofName? name).filter Flag.isGlobal, value with
      | none, none =>
        if name = "help" then return .help
        else if name = "version" then return .version
        else throw (.unexpected argument)
      | none, some _ => throw (.unexpected argument)
      | some flag, some value => parseFront (← add flag value g) none rest
      | some flag, none =>
        match rest with
        | [] => throw (.noValue flag)
        | value :: rest =>
          if Shape.of value = .plain then parseFront g (some (flag, value)) rest
          else throw (.noValue flag)
    | .plain =>
      if argument = "help" then parseHelp rest
      else if argument = "lex" then do
        match ← parseLex [] none false rest with
        | none => return .help
        | some behind => return lexRequest (← settle held g) (some behind)
      else .error (.unexpected argument)

/-- The request that the arguments stand for. -/
def parse (arguments : List String) : Except UsageError Request := parseFront [] none arguments

end ArithLexer.CommandLine
