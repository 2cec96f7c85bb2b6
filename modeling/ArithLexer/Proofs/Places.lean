import ArithLexer.Proofs.Reporting
import Mathlib.Data.Prod.Lex

/-!
# The place of a cursor

Whoever has a cursor can look at the next character, take it, and go to the next line, in any order.
What one operation can come to is said once: `Cursor.refills` for going to the next line, and
`Cursor.advances` for taking a character.

`Cursor.Stands` is what every operation keeps: the cursor stands somewhere on the line that its source
delivered last, its line number counts the lines, and it knows whether it has been told of the end. The
main statement, `keeps_place`, says so at every point of every use, together with what the failures leave
behind.
-/

namespace ArithLexer

open LineSource (told)

/-- Coordinates are compared by their lines, and on one line by their columns. -/
def Coordinate.rank (p : Coordinate) : Nat ×ₗ Nat := toLex (p.line, p.column)

theorem Coordinate.rank_le_iff {p q : Coordinate} :
    p.rank ≤ q.rank ↔ p.line < q.line ∨ p.line = q.line ∧ p.column ≤ q.column :=
  Prod.Lex.toLex_le_toLex

theorem Coordinate.rank_lt_iff {p q : Coordinate} :
    p.rank < q.rank ↔ p.line < q.line ∨ p.line = q.line ∧ p.column < q.column :=
  Prod.Lex.toLex_lt_toLex

namespace Cursor

/-- What can be done with a cursor. -/
inductive Operation where
  /-- Look at the next character of the line. -/
  | peek
  /-- Take the next character. -/
  | advance
  /-- Go to the head of the next line. -/
  | nextLine
deriving DecidableEq

/-! ### What an operation can come to -/

section
variable {S : Type}

def pass (c : Cursor S) (rest : List Char) : Cursor S :=
  { c with ahead := rest, position := c.position.nextColumn }

/-- The cursor behind `n` more lines, all of them empty. -/
def skip (c : Cursor S) (n : Nat) : Cursor S :=
  if n = 0 then c else { c with line := "", ahead := [], position := ⟨c.position.line + n, 1⟩ }

@[simp] theorem skip_zero (c : Cursor S) : c.skip 0 = c := rfl

@[simp] theorem skip_number (c : Cursor S) (n : Nat) :
    (c.skip n).position.line = c.position.line + n := by
  rw [skip]
  split
  · next hn => rw [hn, Nat.add_zero]
  · rfl

@[simp] theorem skip_exhausted (c : Cursor S) (n : Nat) : (c.skip n).exhausted = c.exhausted := by
  rw [skip]
  split <;> rfl

theorem skip_atLine (c : Cursor S) (source : S) (n : Nat) :
    (c.atLine source "").skip n = { c.skip (n + 1) with source := source } := by
  cases n with
  | zero => rfl
  | succ n =>
    simp only [skip, atLine, Coordinate.nextLine, Nat.succ_ne_zero, if_false]
    rw [Nat.add_right_comm, Nat.add_assoc]

variable [LineSource S]

/-- The cursor after an operation. -/
def perform (c : Cursor S) : Operation → Cursor S
  | .peek => c
  | .advance => c.advance.after
  | .nextLine => c.nextLine.after

/-- The cursor after some operations, one after the other. -/
def performAll (c : Cursor S) (operations : List Operation) : Cursor S := operations.foldl perform c

theorem performAll_induction {P : Cursor S → Prop} (step : ∀ {c} operation, P c → P (c.perform operation))
    {c : Cursor S} (h : P c) (operations : List Operation) : P (c.performAll operations) := by
  induction operations generalizing c with
  | nil => exact h
  | cons operation operations ih => exact ih (step operation h)

/-- What taking a character can be: one of the current line, or the first one of another line; and if
there is no other line, nothing or a failure. -/
inductive Advances (c : Cursor S) : Except LexFailure (Option Char) → Cursor S → Prop
  | take {a : Char} {rest : List Char} : c.ahead = a :: rest → Advances c (.ok (some a)) (c.pass rest)
  | line {d : Cursor S} {a : Char} {rest : List Char} {events : List Log.Event} : c.ahead = [] →
      c.nextLine = ⟨.ok true, d, events⟩ → d.ahead = a :: rest →
      Advances c (.ok (some a)) (d.pass rest)
  | finish {d : Cursor S} {events : List Log.Event} : c.ahead = [] →
      c.nextLine = ⟨.ok false, d, events⟩ → d.ahead = [] → Advances c (.ok none) d
  | fail {d : Cursor S} {failure : LexFailure} {events : List Log.Event} : c.ahead = [] →
      c.nextLine = ⟨.error failure, d, events⟩ → Advances c (.error failure) d

theorem advances (c : Cursor S) : c.Advances c.advance.result c.advance.after := by
  cases ha : c.ahead with
  | cons a rest =>
    have ht : c.take? = some (a, c.pass rest) := take?_eq_some_iff.2 ⟨rest, ha, rfl⟩
    rw [advance]
    simp only [ht]
    exact .take ha
  | nil =>
    have ht : c.take? = none := by rw [take?, ha]
    rw [advance]
    simp only [ht]
    rcases hn : c.nextLine with ⟨failure | (_ | _), d, events⟩
    · exact .fail ha hn
    · -- going to the end has left nothing ahead, so there is no second try
      have hd : d.ahead = [] := (fetched_nextLine hn).2 ha
      have htd : d.take? = none := by rw [take?, hd]
      simp only [htd]
      exact .finish ha hn hd
    · obtain ⟨-, hne, -⟩ := fetched_nextLine hn
      obtain ⟨a, rest, hd⟩ := List.exists_cons_of_ne_nil hne
      have htd : d.take? = some (a, d.pass rest) := take?_eq_some_iff.2 ⟨rest, hd, rfl⟩
      simp only [htd]
      exact .line ha hn hd

variable {s : S}

/-- What going to the next line can be, for a cursor over `s`: nothing is asked for behind the end;
otherwise some empty lines are skipped, and then there is a line, the end or a failure. -/
inductive Refills (s : S) (c : Cursor (Counted S)) : Except LexFailure Bool → Cursor (Counted S) → Prop
  | known : c.exhausted = true → Refills s c (.ok false) c
  | line {n : Nat} {source : Counted S} {text : String} : c.exhausted = false → Asked s source →
      told s source.pulls = told s c.source.pulls ++ List.replicate n (.line "") ++ [.line text] →
      text ≠ "" → Refills s c (.ok true) ((c.skip n).atLine source text)
  | finish {n : Nat} {source : Counted S} : c.exhausted = false → Asked s source →
      told s source.pulls = told s c.source.pulls ++ List.replicate n (.line "") ++ [.finish] →
      Refills s c (.ok false) { c.skip n with source := source, exhausted := true }
  | fail {n : Nat} {source : Counted S} {cause : IoError} : c.exhausted = false → Asked s source →
      told s source.pulls = told s c.source.pulls ++ List.replicate n (.line "") ++ [.failure cause] →
      Refills s c (.error (.unreadable ((c.skip n).position.line + 1) cause))
        { c.skip n with source := source }

theorem Refills.skip_line {c d : Cursor (Counted S)} {source : Counted S}
    {r : Except LexFailure Bool} (h : (c.atLine source "").Refills s r d) (he : c.exhausted = false)
    (ht : told s source.pulls = told s c.source.pulls ++ [.line ""]) : c.Refills s r d := by
  -- the empty line in front and those that are skipped behind it
  have hmore : ∀ n, told s source.pulls ++ List.replicate n (.line "") =
      told s c.source.pulls ++ List.replicate (n + 1) (.line "") := by
    intro n
    rw [ht, List.append_assoc, List.singleton_append, ← List.replicate_succ]
  cases h with
  | known hex => exact absurd (he.symm.trans hex) Bool.false_ne_true
  | @line n source' text _ ha htold hne =>
    rw [skip_atLine]
    exact .line (n := n + 1) he ha (hmore n ▸ htold) hne
  | @finish n source' _ ha htold =>
    rw [skip_atLine]
    exact .finish (n := n + 1) he ha (hmore n ▸ htold)
  | @fail n source' cause _ ha htold =>
    rw [skip_atLine]
    exact .fail (n := n + 1) he ha (hmore n ▸ htold)

theorem refills_fetch {c : Cursor (Counted S)} (ha : Asked s c.source) (he : c.exhausted = false)
    (events : List Log.Event) :
    c.Refills s (c.fetch events).result (c.fetch events).after := by
  refine fetch_induction (P := fun c r d => Asked s c.source → c.exhausted = false →
    c.Refills s r d) ?_ ?_ ?_ ?_ c events ha he
  · intro c line source r d hn hempty ih ha he
    -- an empty line is skipped, and counts in front of what comes of the rest
    obtain rfl : line = "" := String.toList_eq_nil_iff.1 hempty
    obtain ⟨ha', ht⟩ := ha.told_next hn
    exact (ih ha' he).skip_line he ht
  · intro c line source hn hempty ha he
    obtain ⟨ha', ht⟩ := ha.told_next hn
    have hne : line ≠ "" := fun h => hempty (String.toList_eq_nil_iff.2 h)
    exact .line (n := 0) he ha' (by simpa [Answer.ofResult] using ht) hne
  · intro c source hn ha he
    obtain ⟨ha', ht⟩ := ha.told_next hn
    exact .finish (n := 0) he ha' (by simpa [Answer.ofResult] using ht)
  · intro c cause source hn ha he
    obtain ⟨ha', ht⟩ := ha.told_next hn
    exact .fail (n := 0) he ha' (by simpa [Answer.ofResult] using ht)

theorem refills {c : Cursor (Counted S)} (ha : Asked s c.source) :
    c.Refills s c.nextLine.result c.nextLine.after := by
  cases he : c.exhausted with
  | true =>
    rw [nextLine_of_exhausted he]
    exact .known he
  | false =>
    rw [nextLine_of_not_exhausted he]
    exact refills_fetch ha he []

end

/-! ### What every operation keeps -/

section
variable {S : Type} [LineSource S] {s : S}

/-- A cursor over a source that has not been asked, and that counts how often it is. -/
def counting (s : S) : Cursor (Counted S) := ofSource ⟨s, 0⟩

/-- How a cursor over `s` stands. -/
structure Stands (s : S) (c : Cursor (Counted S)) : Prop where
  asked : Asked s c.source
  place : ∃ before, c.Behind before
  line : c.line = (linesAmong (told s c.source.pulls)).getLast?.getD ""
  number : c.position.line = (linesAmong (told s c.source.pulls)).length
  ends : c.exhausted = true ↔ .finish ∈ told s c.source.pulls

theorem stands_counting (s : S) : (counting s).Stands s :=
  ⟨rfl, ⟨[], rfl, rfl⟩, rfl, rfl, by simp [counting, ofSource, told]⟩

variable {c d : Cursor (Counted S)}

theorem linesAmong_append (answers more : List Answer) :
    linesAmong (answers ++ more) = linesAmong answers ++ linesAmong more :=
  List.filterMap_append

theorem linesAmong_skipped (n : Nat) :
    linesAmong (List.replicate n (.line "")) = List.replicate n "" :=
  List.filterMap_replicate_of_some rfl

/-- The lines when some have been skipped on the way to the last answer. -/
theorem linesAmong_skipping (answers : List Answer) (n : Nat) (last : Answer) :
    linesAmong (answers ++ List.replicate n (.line "") ++ [last]) =
      linesAmong answers ++ List.replicate n "" ++ linesAmong [last] := by
  rw [linesAmong_append, linesAmong_append, linesAmong_skipped]

/-- Behind skipped lines, and an answer that is no line, the cursor stands where it was, or on the last
of these lines. -/
theorem Stands.skipped (h : c.Stands s) {n : Nat} {source : Counted S} {last : Answer} {ended : Bool}
    (ha : Asked s source)
    (ht : told s source.pulls = told s c.source.pulls ++ List.replicate n (.line "") ++ [last])
    (hl : linesAmong [last] = []) (he : ended = true ↔ .finish ∈ told s source.pulls) :
    Stands s { c.skip n with source := source, exhausted := ended } := by
  have hlines : linesAmong (told s source.pulls) =
      linesAmong (told s c.source.pulls) ++ List.replicate n "" := by
    rw [ht, linesAmong_skipping, hl, List.append_nil]
  refine ⟨ha, ?_, ?_, ?_, he⟩
  · -- without a skipped line the cursor has not moved, otherwise it is on an empty one
    cases n with
    | zero =>
      obtain ⟨before, hb⟩ := h.place
      exact ⟨before, hb.line, hb.column⟩
    | succ n => exact ⟨[], rfl, rfl⟩
  · rw [hlines]
    cases n with
    | zero => simpa using h.line
    | succ n => simp [Cursor.skip, List.replicate_succ']
  · show (c.skip n).position.line = _
    rw [hlines, skip_number, h.number, List.length_append, List.length_replicate]

theorem Stands.pass {a : Char} {rest : List Char} (h : c.Stands s) (ha : c.ahead = a :: rest) :
    (c.pass rest).Stands s := by
  obtain ⟨before, hb⟩ := h.place
  refine ⟨h.asked, ⟨before ++ [a], ?_, ?_⟩, h.line, h.number, h.ends⟩
  · simpa [Cursor.pass, ha] using hb.line
  · simp only [Cursor.pass, Coordinate.nextColumn, hb.column, List.length_append,
      List.length_singleton]
    omega

theorem Stands.refills (h : c.Stands s) {r : Except LexFailure Bool} (hr : c.Refills s r d) :
    d.Stands s := by
  -- a cursor that is not exhausted has not been told of the end
  have hnot : c.exhausted = false → .finish ∉ told s c.source.pulls := by
    intro he hm
    exact Bool.false_ne_true (he.symm.trans (h.ends.2 hm))
  cases hr with
  | known => exact h
  | @line n source text he ha ht hne =>
    have hlines : linesAmong (told s source.pulls) =
        linesAmong (told s c.source.pulls) ++ List.replicate n "" ++ [text] := by
      rw [ht, linesAmong_skipping]
      rfl
    refine ⟨ha, ⟨[], rfl, rfl⟩, ?_, ?_, ?_⟩
    · show text = (linesAmong (told s source.pulls)).getLast?.getD ""
      rw [hlines, List.getLast?_concat]
      rfl
    · show (c.skip n).position.line + 1 = (linesAmong (told s source.pulls)).length
      rw [hlines, skip_number, h.number, List.length_append, List.length_append,
        List.length_replicate]
      rfl
    · show (c.skip n).exhausted = true ↔ .finish ∈ told s source.pulls
      rw [ht, skip_exhausted]
      simp [he, hnot he]
  | finish he ha ht => exact h.skipped ha ht rfl (by simp [ht])
  | fail he ha ht => exact h.skipped ha ht rfl (by simp [ht, he, hnot he])

theorem Stands.advance (h : c.Stands s) : c.advance.after.Stands s := by
  have ht := c.advances
  have hd := h.refills (Cursor.refills h.asked)
  generalize c.advance.result = r at ht
  generalize c.advance.after = d at ht
  cases ht with
  | take ha => exact h.pass ha
  | line ha hn hahead =>
    rw [hn] at hd
    exact hd.pass hahead
  | finish ha hn hahead =>
    rw [hn] at hd
    exact hd
  | fail ha hn =>
    rw [hn] at hd
    exact hd

theorem Stands.perform (h : c.Stands s) (operation : Operation) : (c.perform operation).Stands s := by
  cases operation with
  | peek => exact h
  | advance => exact h.advance
  | nextLine => exact h.refills (Cursor.refills h.asked)

theorem stands_performAll (s : S) (operations : List Operation) :
    ((counting s).performAll operations).Stands s :=
  performAll_induction (fun operation h => h.perform operation) (stands_counting s) operations

/-! ### What follows from where a cursor stands -/

theorem Behind.ahead_eq {S : Type} {c : Cursor S} {before : List Char} (h : c.Behind before) :
    c.ahead = c.line.toList.drop (c.position.column - 1) := by
  rw [h.line, h.column, Nat.add_sub_cancel_left, List.drop_left]

theorem Behind.column_eq {S : Type} {c : Cursor S} {before : List Char} (h : c.Behind before) :
    c.position.column + c.ahead.length = c.line.length + 1 := by
  rw [← String.length_toList, h.line, h.column, List.length_append]
  omega

/-- Going to the next line leaves the place as it is, or leads to the head of a later line, which is
empty where no line was found. -/
theorem Refills.place {r : Except LexFailure Bool} (hr : c.Refills s r d) :
    (r ≠ .ok true ∧ d.line = c.line ∧ d.ahead = c.ahead ∧ d.position = c.position) ∨
      (c.position.line < d.position.line ∧ d.position.column = 1 ∧ d.ahead = d.line.toList ∧
        (r ≠ .ok true → d.ahead = [])) := by
  cases hr with
  | known => exact .inl ⟨by simp, rfl, rfl, rfl⟩
  | @line n source text he ha ht hne =>
    refine .inr ⟨?_, rfl, rfl, fun h => absurd rfl h⟩
    show c.position.line < (c.skip n).position.line + 1
    rw [skip_number]
    omega
  | @finish n source he ha ht =>
    cases n with
    | zero => exact .inl ⟨by simp, rfl, rfl, rfl⟩
    | succ n => exact .inr ⟨Nat.lt_add_of_pos_right (Nat.succ_pos n), rfl, rfl, fun _ => rfl⟩
  | @fail n source cause he ha ht =>
    cases n with
    | zero => exact .inl ⟨by simp, rfl, rfl, rfl⟩
    | succ n => exact .inr ⟨Nat.lt_add_of_pos_right (Nat.succ_pos n), rfl, rfl, fun _ => rfl⟩

theorem Refills.rank_le {r : Except LexFailure Bool} (hr : c.Refills s r d) :
    c.position.rank ≤ d.position.rank := by
  rcases hr.place with ⟨-, -, -, hp⟩ | ⟨hl, -⟩
  · rw [hp]
  · exact Coordinate.rank_le_iff.2 (.inl hl)

omit [LineSource S] in
theorem rank_le_pass (c : Cursor S) (rest : List Char) :
    c.position.rank ≤ (c.pass rest).position.rank :=
  Coordinate.rank_le_iff.2 (.inr ⟨rfl, Nat.le_succ _⟩)

theorem Stands.rank_le (h : c.Stands s) (operation : Operation) :
    c.position.rank ≤ (c.perform operation).position.rank := by
  have hnext := (Cursor.refills h.asked).rank_le
  cases operation with
  | peek => exact le_refl _
  | nextLine => exact hnext
  | advance =>
    have ht := c.advances
    show c.position.rank ≤ c.advance.after.position.rank
    generalize c.advance.result = r at ht
    generalize c.advance.after = d at ht
    cases ht with
    | take ha => exact c.rank_le_pass _
    | @line d a rest events ha hn hahead =>
      rw [hn] at hnext
      exact le_trans hnext (d.rank_le_pass rest)
    | finish ha hn hahead =>
      rw [hn] at hnext
      exact hnext
    | fail ha hn =>
      rw [hn] at hnext
      exact hnext

/-- `c.Passes a d` says that `d` is one column further than `c`, or than the head of its line if that is
another line, and that the column between them has the character `a`. -/
def Passes {S : Type} (c : Cursor S) (a : Char) (d : Cursor S) : Prop :=
  let start := if d.position.line = c.position.line then c.position.column else 1
  d.line.toList[start - 1]? = some a ∧ d.position.column = start + 1

/-- A character is returned exactly when the cursor goes past it. -/
theorem Stands.advance_eq_some_iff (h : c.Stands s) {a : Char} :
    c.advance.result = .ok (some a) ↔ c.Passes a c.advance.after := by
  have hplace := (Cursor.refills h.asked).place
  have ht := c.advances
  generalize c.advance.result = r at ht
  generalize c.advance.after = d at ht
  -- where no character is taken, the column is that of the start
  have hnot : ∀ {d : Cursor (Counted S)}, c.nextLine.after = d → c.nextLine.result ≠ .ok true →
      ¬ c.Passes a d := by
    rintro d rfl hr ⟨-, hc⟩
    rcases hplace with ⟨-, -, -, hp⟩ | ⟨hl, hone, -⟩
    · rw [hp, if_pos rfl] at hc
      omega
    · rw [if_neg (by omega)] at hc
      omega
  cases ht with
  | @take b rest ha =>
    obtain ⟨before, hb⟩ := h.place
    have hline : c.line.toList[c.position.column - 1]? = some b := by
      -- the first character ahead is the one at the column
      rw [hb.line, hb.column, ha, Nat.add_sub_cancel_left, List.getElem?_append_right (le_refl _),
        Nat.sub_self]
      rfl
    show _ ↔ _ ∧ _
    simp [Cursor.pass, Coordinate.nextColumn, hline]
  | @line d b rest events ha hn hahead =>
    rw [hn] at hplace
    rcases hplace with ⟨hr, -⟩ | ⟨hl, hone, hall, -⟩
    · exact absurd rfl hr
    · have hl : d.position.line ≠ c.position.line := Nat.ne_of_gt hl
      have hall : d.line.toList = b :: rest := hall.symm.trans hahead
      have hone : d.position.column = 1 := hone
      show _ ↔ _ ∧ _
      simp [Cursor.pass, Coordinate.nextColumn, hl, hone, hall]
  | finish ha hn hahead =>
    have hd := hnot (congrArg Reply.after hn) (by simp [hn])
    exact ⟨fun hr => by simp at hr, fun hp => absurd hp hd⟩
  | fail ha hn =>
    have hd := hnot (congrArg Reply.after hn) (by simp [hn])
    exact ⟨fun hr => by simp at hr, fun hp => absurd hp hd⟩

/-- What a failure leaves behind: the cursor can go on asking. It has been told of the failure, and
names it after the line that could not be read. Where nothing else was asked for, it stands as before. -/
structure Failed (s : S) (c : Cursor (Counted S)) (failure : LexFailure) (d : Cursor (Counted S)) :
    Prop where
  not_exhausted : d.exhausted = false
  unreadable : ∃ cause, failure = .unreadable (d.position.line + 1) cause ∧
    (told s d.source.pulls).getLast? = some (.failure cause)
  unchanged : d.source.pulls = c.source.pulls + 1 → d = { c with source := d.source }

theorem Refills.failed {failure : LexFailure} (hr : c.Refills s (.error failure) d) :
    c.Failed s failure d := by
  cases hr with
  | @fail n source cause he ha ht =>
    refine ⟨(skip_exhausted c n).trans he, ⟨cause, rfl, ?_⟩, fun hp => ?_⟩
    · show (told s source.pulls).getLast? = _
      rw [ht, List.getLast?_concat]
    · have hp : source.pulls = c.source.pulls + 1 := hp
      have hlength := congrArg List.length ht
      simp only [LineSource.length_told, List.length_append, List.length_replicate,
        List.length_singleton] at hlength
      -- one answer is the failure alone, so no line was skipped
      obtain rfl : n = 0 := by omega
      rfl

section
variable {T : Type} [LineSource T] {c : Cursor T}

/-- Behind the end, what is ahead can still be taken, and then nothing happens any more. -/
theorem advance_of_exhausted (he : c.exhausted = true) :
    (∃ a rest, c.ahead = a :: rest ∧ c.advance.after = c.pass rest) ∨
      (c.ahead = [] ∧ c.advance.result = .ok none ∧ c.advance.after = c) := by
  have hnext := nextLine_of_exhausted he
  have ht := c.advances
  generalize c.advance.result = r at ht
  generalize c.advance.after = d at ht
  cases ht with
  | @take a rest ha => exact .inl ⟨a, rest, ha, rfl⟩
  | line ha hn => cases hnext.symm.trans hn
  | fail ha hn => cases hnext.symm.trans hn
  | finish ha hn =>
    cases hnext.symm.trans hn
    exact .inr ⟨ha, rfl, rfl⟩

/-- Nothing is asked for any more, whatever is done. -/
theorem performAll_of_exhausted (h : c.exhausted = true) (operations : List Operation) :
    (c.performAll operations).exhausted = true ∧ (c.performAll operations).source = c.source := by
  refine performAll_induction (P := fun d => d.exhausted = true ∧ d.source = c.source) ?_ ⟨h, rfl⟩
    operations
  rintro d operation ⟨hd, hs⟩
  cases operation with
  | peek => exact ⟨hd, hs⟩
  | nextLine =>
    show d.nextLine.after.exhausted = true ∧ d.nextLine.after.source = c.source
    rw [nextLine_of_exhausted hd]
    exact ⟨hd, hs⟩
  | advance =>
    show d.advance.after.exhausted = true ∧ d.advance.after.source = c.source
    rcases advance_of_exhausted hd with ⟨a, rest, -, hafter⟩ | ⟨-, -, hafter⟩ <;> rw [hafter]
    · exact ⟨hd, hs⟩
    · exact ⟨hd, hs⟩

end

/-- However a cursor is used, it keeps its place. At every point its line is the one that was delivered
last, what is ahead is the rest of that line from the column on, and its line number counts the lines.
The column is one of the line or the one behind it, where there is no next character. The cursor knows
of the end exactly if its source has reported it, and then never asks again. It never goes back. It
returns a character exactly if it goes past it, and nothing only if it knows of the end and nothing is
ahead. And a failure, of either operation, leaves it as `Failed` says. -/
theorem keeps_place (s : S) (operations : List Operation) :
    let c := (counting s).performAll operations
    let answers := told s c.source.pulls
    (c.line = (linesAmong answers).getLast?.getD "" ∧
      c.ahead = c.line.toList.drop (c.position.column - 1) ∧
      c.position.line = (linesAmong answers).length) ∧
    (1 ≤ c.position.column ∧ c.position.column ≤ c.line.length + 1 ∧
      c.peek = c.line.toList[c.position.column - 1]? ∧
      (c.peek = none ↔ c.position.column = c.line.length + 1)) ∧
    ((c.exhausted = true ↔ .finish ∈ answers) ∧
      (c.exhausted = true → ∀ more, (c.performAll more).source = c.source)) ∧
    (∀ more, c.position.rank ≤ (c.performAll more).position.rank) ∧
    (∀ a, c.advance.result = .ok (some a) ↔ c.Passes a c.advance.after) ∧
    (c.advance.result = .ok none → c.advance.after.exhausted = true ∧ c.advance.after.peek = none) ∧
    (∀ failure, c.advance.result = .error failure → c.Failed s failure c.advance.after) ∧
    (∀ failure, c.nextLine.result = .error failure → c.Failed s failure c.nextLine.after) := by
  intro c answers
  have h : c.Stands s := stands_performAll s operations
  obtain ⟨before, hb⟩ := h.place
  have hcolumn := hb.column_eq
  have hrefills : c.Refills s c.nextLine.result c.nextLine.after := Cursor.refills h.asked
  refine ⟨⟨h.line, hb.ahead_eq, h.number⟩, ⟨?_, by omega, ?_, ?_⟩, ⟨h.ends, ?_⟩, ?_, ?_, ?_, ?_, ?_⟩
  · rw [hb.column]
    exact Nat.le_add_right 1 _
  · rw [peek, hb.ahead_eq, List.head?_drop]
  · rw [peek, List.head?_eq_none_iff, ← List.length_eq_zero_iff]
    omega
  · exact fun he more => (performAll_of_exhausted he more).2
  · intro more
    -- each operation keeps how the cursor stands, and does not lead back
    exact (performAll_induction (P := fun d => d.Stands s ∧ c.position.rank ≤ d.position.rank)
      (fun operation hd => ⟨hd.1.perform operation, hd.2.trans (hd.1.rank_le operation)⟩)
      ⟨h, le_refl _⟩ more).2
  · intro a
    exact h.advance_eq_some_iff
  · intro hr
    have ht := c.advances
    rw [hr] at ht
    generalize c.advance.after = d at ht
    cases ht with
    | finish ha hn hahead =>
      refine ⟨(fetched_nextLine hn).1, ?_⟩
      rw [peek, hahead, List.head?_nil]
  · intro failure hr
    have ht := c.advances
    rw [hr] at ht
    generalize c.advance.after = d at ht
    cases ht with
    | fail ha hn =>
      rw [hn] at hrefills
      exact hrefills.failed
  · intro failure hr
    rw [hr] at hrefills
    exact hrefills.failed

/-- Behind the first line, a line is skipped, and the third one cannot be read. -/
theorem keeps_place_at_failure :
    let s := Script.mk [.line "ab", .line "", .failure .invalidUtf8, .line "c"]
    let c := (counting s).performAll [.advance, .peek, .advance]
    c.line = "ab" ∧ c.peek = none ∧ c.advance.result = .error (.unreadable 3 .invalidUtf8) ∧
      c.Failed s (.unreadable 3 .invalidUtf8) c.advance.after := by
  intro s c
  have hr : c.advance.result = .error (.unreadable 3 .invalidUtf8) := by decide +kernel
  obtain ⟨-, -, -, -, -, -, hfailed, -⟩ := keeps_place s [.advance, .peek, .advance]
  exact ⟨by decide +kernel, by decide +kernel, hr, hfailed _ hr⟩

end
end Cursor
end ArithLexer
