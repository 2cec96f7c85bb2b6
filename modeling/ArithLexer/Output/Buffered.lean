import ArithLexer.Output.Device

/-!
# Buffered writing

A buffered writer keeps what is written to it until there is enough of it, and then sends it on to a
device. What does not fit into the buffer makes room for itself first; what would fill the whole
buffer goes straight to the device. Nothing else sends the rest on but a flush, and the end of the
writer, which cannot report a failure any more.
-/

namespace ArithLexer

/-- What a buffered writer has been given. -/
structure Buffer where
  /-- What the device has accepted. -/
  sent : Array UInt8 := #[]
  /-- What the device has not been offered yet, or has not accepted. -/
  held : Array UInt8 := #[]
deriving DecidableEq, Repr

namespace Buffer

/-- Everything that has been given, in order. -/
def all (b : Buffer) : List UInt8 := b.sent.toList ++ b.held.toList

def hold (b : Buffer) (bytes : List UInt8) : Buffer := { b with held := b.held ++ bytes }

end Buffer

/-- A writer that sends bytes on to a device when it holds more of them than its capacity. -/
structure BufferedWriter (m : Type → Type) where
  device : Device m
  capacity : Nat

namespace BufferedWriter

variable {m : Type → Type} [Monad m] (out : BufferedWriter m)

/-- The device has accepted nothing of what was held, though it has not failed. -/
def heldRefused : IoError := ⟨.writeZero, "failed to write the buffered data"⟩

/-- Sends on what is held. What the device does not accept stays. -/
def sendHeld (b : Buffer) : m (Except IoError Unit × Buffer) := do
  let bytes := b.held.toList
  let (count, result) ← out.device.sendAll heldRefused bytes
  return (result, ⟨b.sent ++ bytes.take count, (bytes.drop count).toArray⟩)

/-- Sends bytes on behind everything else, without holding them first. -/
def sendThrough (bytes : List UInt8) (b : Buffer) : m (Except IoError Unit × Buffer) := do
  let (count, result) ← out.device.sendAll Device.textRefused bytes
  return (result, { b with sent := b.sent ++ bytes.take count })

/-- How many more bytes can be held. -/
def spare (b : Buffer) : Nat := out.capacity - b.held.size

/-- Sends on what is held if these bytes do not fit behind it. -/
def makeRoom (bytes : List UInt8) (b : Buffer) : m (Except IoError Unit × Buffer) :=
  if out.spare b < bytes.length then out.sendHeld b else return (.ok (), b)

/-- Writes bytes: they are held, if need be in place of those that were held before, unless there are
as many as can be held. -/
def write (bytes : List UInt8) (b : Buffer) : m (Except IoError Unit × Buffer) := do
  if bytes.length < out.spare b then return (.ok (), b.hold bytes)
  else
    match ← out.makeRoom bytes b with
    | (.error cause, b) => return (.error cause, b)
    | (.ok (), b) =>
      if out.capacity ≤ bytes.length then out.sendThrough bytes b
      else return (.ok (), b.hold bytes)

def writer : Writer (StateT Buffer m) := fun bytes => ExceptT.mk (out.write bytes)

/-- Sends on what is held, and has the device pass it on. -/
def flush (b : Buffer) : m (Except IoError Unit × Buffer) := do
  match ← out.sendHeld b with
  | (.error cause, b) => return (.error cause, b)
  | (.ok (), b) => return (← out.device.flush.run, b)

/-- The end of the writer: what is still held is sent on, whatever comes of it. -/
def finish (b : Buffer) : m Buffer := do
  let (_, b) ← out.sendHeld b
  return b

end BufferedWriter
end ArithLexer
