/-!
# Failures of reading and writing

Reading and writing can fail for reasons outside the program. Such a failure has a kind and a
text of its own.
-/

namespace ArithLexer

/-- The kinds of failure that are told apart. -/
inductive IoErrorKind where
  | notFound
  | permissionDenied
  | connectionReset
  | brokenPipe
  | wouldBlock
  | invalidInput
  | invalidData
  | timedOut
  /-- The operation was cut short by a signal and can be tried again. -/
  | interrupted
  | unexpectedEof
  | writeZero
  | isADirectory
  | notADirectory
  | invalidFilename
  | other
deriving DecidableEq, Repr

/-- A failure to read, write or open. -/
structure IoError where
  kind : IoErrorKind
  text : String
deriving DecidableEq, Repr

namespace IoError

/-- The bytes of a text are not valid UTF-8. -/
def invalidUtf8 : IoError := ⟨.invalidData, "stream did not contain valid UTF-8"⟩

end IoError
end ArithLexer
