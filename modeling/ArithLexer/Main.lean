import ArithLexer.Run

/-!
# The program

The host of the program is the machine it runs on. This module holds all effects; what is done
with them is decided elsewhere.
-/

namespace ArithLexer

/-- A failure of the machine as a failure of reading or writing. -/
def ioErrorOf (e : IO.Error) : IoError :=
  let coded (kind : IoErrorKind) (text : String) (code : UInt32) : IoError :=
    ⟨kind, text ++ " (os error " ++ code.toNat.repr ++ ")"⟩
  match e with
  | .noFileOrDirectory _ code _ => coded .notFound "No such file or directory" code
  | .permissionDenied _ code _ =>
    coded .permissionDenied (if code = 1 then "Operation not permitted" else "Permission denied") code
  | .inappropriateType _ code _ =>
    if code = 20 then coded .notADirectory "Not a directory" code
    else coded .isADirectory "Is a directory" code
  | .interrupted _ code _ => coded .interrupted "Interrupted system call" code
  | .invalidArgument _ 36 _ => coded .invalidFilename "File name too long" 36
  | .invalidArgument _ code _ => coded .invalidInput "Invalid argument" code
  | .resourceExhausted _ 28 _ => coded .other "No space left on device" 28
  | .resourceVanished 32 _ => coded .brokenPipe "Broken pipe" 32
  | e => ⟨.other, toString e⟩

/-- Reads a stream to its end, or up to a failure. -/
partial def readPortions (read : IO ByteArray) (got : List Portion) : IO (List Portion) := do
  match ← read.toBaseIO with
  | .error e => return ((.failure (ioErrorOf e)) :: got).reverse
  | .ok bytes =>
    if bytes.isEmpty then return got.reverse
    else readPortions read (.bytes bytes.data.toList :: got)

/-- Opens a file and reads it to its end, or up to a failure. -/
def portionsOf (path : String) : IO (Except IoError (List Portion)) := do
  match ← (IO.FS.Handle.mk path .read).toBaseIO with
  | .ok file => return .ok (← readPortions (file.read readCapacity.toUSize) [])
  | .error e => return .error (ioErrorOf e)

/-- Does something, and once more whenever it has been interrupted. -/
partial def uninterrupted {α : Type} (action : IO α) : ExceptT IoError IO α := ExceptT.mk do
  match ← action.toBaseIO with
  | .ok a => return .ok a
  | .error e =>
    let cause := ioErrorOf e
    if cause.kind = .interrupted then (uninterrupted action).run else return .error cause

def machine : Host IO where
  isFile path := do
    try
      let resolved ← IO.FS.realPath path
      return (← resolved.metadata).type == .file
    catch _ => return false
  readFile path := return (← portionsOf path).bind joinPortions
  openLog path := do
    match ← (IO.FS.Handle.mk path .append).toBaseIO with
    | .ok _ => return .ok ()
    | .error e => return .error (ioErrorOf e)
  extendLog path bytes := do
    let file ← IO.FS.Handle.mk path .append
    file.write ⟨bytes.toArray⟩
  openInput := portionsOf
  standardInput := do
    let input ← IO.getStdin
    readPortions (input.read readCapacity.toUSize) []
  output := {
    write := fun bytes => uninterrupted do
      (← IO.getStdout).write ⟨bytes.toArray⟩
      return bytes.length
    flush := uninterrupted do (← IO.getStdout).flush }

end ArithLexer

open ArithLexer in
def main (arguments : List String) : IO UInt32 := do
  let outcome ← run machine arguments
  (← IO.getStderr).putStr outcome.console
  return outcome.exitCode.toUInt32
