import ArithLexer.LineSource.Basic
import ArithLexer.Text.Lines

/-!
# Lines in memory

Two sources that hold what they will deliver: a queue of lines, which then ends, and a script of
answers, in which ends and failures may stand anywhere.
-/

namespace ArithLexer

/-- A queue of lines, delivered in order. -/
structure MemoryLines where
  lines : List String
deriving DecidableEq, Repr

namespace MemoryLines

/-- The lines of a text. -/
def ofText (text : String) : MemoryLines := ⟨Text.lines text⟩

/-- The first line of the queue and the rest of it. -/
def next : MemoryLines → Except IoError (Option String) × MemoryLines
  | ⟨[]⟩ => (.ok none, ⟨[]⟩)
  | ⟨line :: rest⟩ => (.ok (some line), ⟨rest⟩)

end MemoryLines

instance : LineSource MemoryLines where
  next := MemoryLines.next
  bound s := s.lines.length
  bound_lt := by
    rintro ⟨_ | ⟨l, ls⟩⟩ t line h
    · simp [MemoryLines.next] at h
    · simp only [MemoryLines.next, Prod.mk.injEq] at h
      rw [← h.2]
      exact Nat.lt_succ_self _

/-- One answer of a line source. -/
inductive Answer where
  | line (text : String)
  | finish
  | failure (cause : IoError)
deriving DecidableEq, Repr

/-- A source that gives prepared answers, and after the last of them always the end. -/
structure Script where
  answers : List Answer
deriving DecidableEq, Repr

namespace Script

/-- The first answer of the script and the rest of it. -/
def next : Script → Except IoError (Option String) × Script
  | ⟨[]⟩ => (.ok none, ⟨[]⟩)
  | ⟨.line text :: rest⟩ => (.ok (some text), ⟨rest⟩)
  | ⟨.finish :: rest⟩ => (.ok none, ⟨rest⟩)
  | ⟨.failure cause :: rest⟩ => (.error cause, ⟨rest⟩)

end Script

instance : LineSource Script where
  next := Script.next
  bound s := s.answers.length
  bound_lt := by
    rintro ⟨_ | ⟨_ | _ | _, rest⟩⟩ t line h <;> simp [Script.next] at h
    rw [← h.2]
    exact Nat.lt_succ_self _

end ArithLexer
