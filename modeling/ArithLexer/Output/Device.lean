import ArithLexer.IoError

/-!
# Places to write to

A device accepts bytes. It may accept only some of those that it is offered, so a text is offered
to it again and again, each time without what it has accepted so far, until nothing is left or the
device fails.

A sink is a device in memory. It may have room for only so many bytes, and fails behind them.
-/

namespace ArithLexer

def utf8Bytes (text : String) : List UInt8 := text.toUTF8.data.toList

/-- Writes all of some bytes, or fails, in whatever monad its effects live. -/
abbrev Writer (m : Type → Type) := List UInt8 → ExceptT IoError m Unit

/-- A place that accepts bytes. A device that is interrupted starts again by itself. -/
structure Device (m : Type → Type) where
  /-- Offers bytes, and gives how many of them were accepted, from the first one on. -/
  write : List UInt8 → ExceptT IoError m Nat
  /-- Passes on what the device has accepted and holds back. -/
  flush : ExceptT IoError m Unit

namespace Device

variable {m : Type → Type} [Monad m]

/-- Nothing of a text was accepted, though the device has not failed. -/
def textRefused : IoError := ⟨.writeZero, "failed to write whole buffer"⟩

/-- Offers bytes up to the last one, or until the device fails. Gives how many were accepted in all.
A device that does not fail, but accepts nothing, has failed with `refused`. -/
def sendAll (device : Device m) (refused : IoError) (bytes : List UInt8) :
    m (Nat × Except IoError Unit) := do
  if _ : bytes = [] then return (0, .ok ())
  else
    match ← (device.write bytes).run with
    | .error cause => return (0, .error cause)
    | .ok count =>
      if _ : count = 0 then return (0, .error refused)
      else
        let (more, result) ← sendAll device refused (bytes.drop count)
        return (count + more, result)
termination_by bytes.length
decreasing_by
  have := List.length_pos_iff.2 ‹bytes ≠ []›
  rw [List.length_drop]
  omega

/-- Writes straight to a device. -/
def writer (device : Device m) : Writer m :=
  fun bytes => ExceptT.mk ((·.2) <$> device.sendAll textRefused bytes)

end Device

/-- A device in memory, which may accept only so many bytes. -/
structure Sink where
  written : Array UInt8
  /-- How many more bytes are accepted; `none` for any number. -/
  room : Option Nat
deriving DecidableEq, Repr

namespace Sink

def unlimited : Sink := ⟨#[], none⟩

/-- An empty sink that accepts so many bytes and then fails. -/
def limited (room : Nat) : Sink := ⟨#[], some room⟩

def closed : IoError := ⟨.brokenPipe, "pipe closed"⟩

/-- Accepts as many bytes as there is room for. Without any room it fails. -/
def accept (s : Sink) (bytes : List UInt8) : Except IoError Nat × Sink :=
  match s.room with
  | none => (.ok bytes.length, ⟨s.written ++ bytes, none⟩)
  | some 0 => (.error closed, s)
  | some room =>
    (.ok (min room bytes.length), ⟨s.written ++ bytes.take room, some (room - bytes.length)⟩)

def device : Device (StateM Sink) where
  write bytes := ExceptT.mk (modifyGet fun s => s.accept bytes)
  flush := pure ()

end Sink
end ArithLexer
