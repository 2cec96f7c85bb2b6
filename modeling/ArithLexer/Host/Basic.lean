import ArithLexer.LineSource.ByteStream
import ArithLexer.Output.Device

/-!
# The machine a run works on

A run reads files, makes and extends a log file, reads its standard input and writes to its standard
output. A `Host` is a machine that does these things, in whatever monad its effects live.
-/

namespace ArithLexer

/-- What a run asks of the machine it works on. -/
structure Host (m : Type → Type) where
  isFile : String → m Bool
  readFile : String → m (Except IoError (List UInt8))
  /-- Makes a log file, or keeps the one that is there. -/
  openLog : String → m (Except IoError Unit)
  /-- Extends a log file that has been opened. -/
  extendLog : String → List UInt8 → m Unit
  /-- Opens a file and gives what reads from it will give. -/
  openInput : String → m (Except IoError (List Portion))
  /-- What reads from the standard input will give. -/
  standardInput : m (List Portion)
  /-- The standard output. -/
  output : Device m

/-- The names of a path, which are parted by slashes. -/
def pathNames (path : String) : List String := (path.toList.splitOn '/').map String.ofList

/-- The bytes of portions together, unless there is a failure among them. -/
def joinPortions : List Portion → Except IoError (List UInt8)
  | [] => .ok []
  | .failure cause :: _ => .error cause
  | .bytes content :: rest => (joinPortions rest).map (content ++ ·)

def textOfContent (content : List UInt8) : Except IoError String :=
  match String.fromUTF8? ⟨content.toArray⟩ with
  | some text => .ok text
  | none => .error .invalidUtf8

end ArithLexer
