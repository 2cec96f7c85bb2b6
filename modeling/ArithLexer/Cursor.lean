import ArithLexer.LineSource.Basic
import ArithLexer.Log.Event

/-!
# The cursor

A cursor stands in a line and knows what is ahead on it. It fetches a new line only when it is
asked to go on behind the end of the current one, skips empty lines, and keeps the coordinate of
the next character. Every line counts, the empty ones too. Once its source has reported the end
of the input, the cursor never asks it again.
-/

namespace ArithLexer

open Log (Event)

/-- The outcome of a request: its result, the state it leaves behind, and the events that were
reported on the way, in order. -/
structure Reply (α σ : Type) where
  result : Except LexFailure α
  after : σ
  events : List Event

/-- A place in the input. -/
structure Cursor (S : Type) where
  source : S
  /-- The line that was fetched last. -/
  line : String
  /-- What has not been taken of that line. -/
  ahead : List Char
  /-- The coordinate of the next character to take. -/
  position : Coordinate
  /-- Whether the source has reported the end of the input. -/
  exhausted : Bool
deriving DecidableEq

namespace Cursor

variable {S : Type}

/-- A cursor before the first line of its source. -/
def ofSource (source : S) : Cursor S := ⟨source, "", [], .beforeInput, false⟩

/-- The next character of the current line. No line is fetched for it. -/
def peek (c : Cursor S) : Option Char := c.ahead.head?

/-- The next character of the current line and the cursor behind it. -/
def take? (c : Cursor S) : Option (Char × Cursor S) :=
  match c.ahead with
  | [] => none
  | a :: rest => some (a, { c with ahead := rest, position := c.position.nextColumn })

theorem take?_eq_some_iff {c d : Cursor S} {a : Char} :
    c.take? = some (a, d) ↔
      ∃ rest, c.ahead = a :: rest ∧
        d = { c with ahead := rest, position := c.position.nextColumn } := by
  rw [take?]
  split
  · simp_all
  · next b bs hb =>
    rw [hb]
    constructor
    · rintro ⟨⟩
      exact ⟨bs, rfl, rfl⟩
    · rintro ⟨rest, he, rfl⟩
      cases he
      rfl

/-- The cursor at the head of a line that has arrived. -/
def atLine (c : Cursor S) (source : S) (line : String) : Cursor S :=
  { c with source := source, line := line, ahead := line.toList, position := c.position.nextLine }

variable [LineSource S]

/-- Fetches lines up to one that is not empty, having reported `told`, newest first. -/
def fetch (c : Cursor S) (told : List Event) : Reply Bool (Cursor S) :=
  match h : LineSource.next c.source with
  | (.ok (some line), source) =>
    let here := c.atLine source line
    let told := .lineFetched here.position.line line.length :: told
    if line.isEmpty then fetch here told else ⟨.ok true, here, told.reverse⟩
  | (.ok none, source) =>
    let told := .sourceExhausted c.position.line :: told
    ⟨.ok false, { c with source := source, exhausted := true }, told.reverse⟩
  | (.error cause, source) =>
    let line := c.position.line + 1
    let told := .sourceFailed line cause :: told
    ⟨.error (.unreadable line cause), { c with source := source }, told.reverse⟩
termination_by LineSource.bound c.source
decreasing_by exact LineSource.bound_lt h

/-- Goes to the head of the next line that is not empty; `false` if there is none. -/
def nextLine (c : Cursor S) : Reply Bool (Cursor S) :=
  if c.exhausted then ⟨.ok false, c, []⟩ else c.fetch []

/-- Takes the next character, on the next line that is not empty if the current one has no more;
`none` if there is no such line. -/
def advance (c : Cursor S) : Reply (Option Char) (Cursor S) :=
  match c.take? with
  | some (a, after) => ⟨.ok (some a), after, []⟩
  | none =>
    match c.nextLine with
    | ⟨.error failure, after, events⟩ => ⟨.error failure, after, events⟩
    | ⟨.ok _, here, events⟩ =>
      match here.take? with
      | some (a, after) => ⟨.ok (some a), after, events⟩
      | none => ⟨.ok none, here, events⟩

theorem fetch_of_empty {c : Cursor S} {source : S} {line : String} (told : List Event)
    (h : LineSource.next c.source = (.ok (some line), source)) (he : line.isEmpty = true) :
    c.fetch told =
      (c.atLine source line).fetch
        (.lineFetched (c.atLine source line).position.line line.length :: told) := by
  rw [fetch]
  split <;> simp_all

theorem fetch_of_line {c : Cursor S} {source : S} {line : String} (told : List Event)
    (h : LineSource.next c.source = (.ok (some line), source)) (he : line.isEmpty = false) :
    c.fetch told =
      ⟨.ok true, c.atLine source line,
        told.reverse ++ [.lineFetched (c.atLine source line).position.line line.length]⟩ := by
  rw [fetch]
  split <;> simp_all

theorem fetch_of_end {c : Cursor S} {source : S} (told : List Event)
    (h : LineSource.next c.source = (.ok none, source)) :
    c.fetch told =
      ⟨.ok false, { c with source := source, exhausted := true },
        told.reverse ++ [.sourceExhausted c.position.line]⟩ := by
  rw [fetch]
  split <;> simp_all

theorem fetch_of_error {c : Cursor S} {source : S} {cause : IoError} (told : List Event)
    (h : LineSource.next c.source = (.error cause, source)) :
    c.fetch told =
      ⟨.error (.unreadable (c.position.line + 1) cause), { c with source := source },
        told.reverse ++ [.sourceFailed (c.position.line + 1) cause]⟩ := by
  rw [fetch]
  split <;> simp_all

/-- A cursor that has found another line has less of its source before it. -/
theorem bound_fetch_lt {c : Cursor S} {told : List Event} (h : (c.fetch told).result = .ok true) :
    LineSource.bound (c.fetch told).after.source < LineSource.bound c.source := by
  fun_induction fetch c told with
  | case1 c told line source hn here told' he ih => exact Nat.lt_trans (ih h) (LineSource.bound_lt hn)
  | case2 c told line source hn here told' he => exact LineSource.bound_lt hn
  | case3 => simp at h
  | case4 => simp at h

theorem bound_nextLine_lt {c : Cursor S} (h : c.nextLine.result = .ok true) :
    LineSource.bound c.nextLine.after.source < LineSource.bound c.source := by
  rw [nextLine] at h ⊢
  split at h
  · simp at h
  · next he => simpa [he] using bound_fetch_lt h

end Cursor
end ArithLexer
