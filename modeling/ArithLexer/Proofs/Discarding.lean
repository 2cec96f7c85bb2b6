import ArithLexer.Proofs.Places

/-!
# What is left behind on a line

A cursor that goes to the next line leaves the rest of its own line behind. `Cursor.Beyond` says that
nothing of a line can be taken any more, and every operation keeps it.

There is one way in which the rest of a line is not left behind. If the end is the first thing that the
source answers, the cursor has no line to go to and stays where it is, though it says that there is no
more line. The main statement, `nextLine_discards_iff`, says that this is the only one.
-/

namespace ArithLexer

namespace Cursor

section
variable {S : Type} {s : S} {c d : Cursor (Counted S)} {l : Nat}

/-- `c.Beyond l` says that the cursor has nothing ahead that stands on the line with the number `l`, or
before. -/
structure Beyond (l : Nat) (c : Cursor (Counted S)) : Prop where
  number_le : l ≤ c.position.line
  number_lt : c.ahead ≠ [] → l < c.position.line

theorem Beyond.pass {a : Char} {rest : List Char} (h : c.Beyond l) (ha : c.ahead = a :: rest) :
    (c.pass rest).Beyond l :=
  ⟨h.number_le, fun _ => h.number_lt (by simp [ha])⟩

variable [LineSource S]

theorem Beyond.refills (h : c.Beyond l) {r : Except LexFailure Bool} (hr : c.Refills s r d) :
    d.Beyond l := by
  -- either nothing was gone to, or the new line is a later one
  rcases hr.place with ⟨-, -, ha, hp⟩ | ⟨hl, -⟩
  · refine ⟨?_, fun hd => ?_⟩
    · rw [hp]
      exact h.number_le
    · rw [hp]
      exact h.number_lt (ha ▸ hd)
  · have hlater : l < d.position.line := Nat.lt_of_le_of_lt h.number_le hl
    exact ⟨Nat.le_of_lt hlater, fun _ => hlater⟩

theorem Beyond.advance (h : c.Beyond l) (hc : c.Stands s) :
    c.advance.after.Beyond l ∧
      ∀ a, c.advance.result = .ok (some a) → l < c.advance.after.position.line := by
  have hnext := h.refills (Cursor.refills hc.asked)
  have ht := c.advances
  generalize c.advance.result = r at ht
  generalize c.advance.after = d at ht
  cases ht with
  -- a character from the line ahead, or from a line that was gone to
  | take ha => exact ⟨h.pass ha, fun _ _ => h.number_lt (by simp [ha])⟩
  | line ha hn hahead =>
    rw [hn] at hnext
    exact ⟨hnext.pass hahead, fun _ _ => hnext.number_lt (by simp [hahead])⟩
  | finish ha hn hahead =>
    rw [hn] at hnext
    exact ⟨hnext, fun _ hr => by simp at hr⟩
  | fail ha hn =>
    rw [hn] at hnext
    exact ⟨hnext, fun _ hr => by simp at hr⟩

theorem Beyond.perform (h : c.Beyond l) (hc : c.Stands s) (operation : Operation) :
    (c.perform operation).Beyond l := by
  cases operation with
  | peek => exact h
  | advance => exact (h.advance hc).1
  | nextLine => exact h.refills (Cursor.refills hc.asked)

theorem Beyond.performAll (h : c.Beyond l) (hc : c.Stands s) (operations : List Operation) :
    (c.performAll operations).Beyond l ∧ (c.performAll operations).Stands s :=
  performAll_induction (P := fun d => d.Beyond l ∧ d.Stands s)
    (fun operation hd => ⟨hd.1.perform hd.2 operation, hd.2.perform operation⟩) ⟨h, hc⟩ operations

/-- Where nothing is ahead and the end is known, nothing happens any more. -/
theorem performAll_of_finished {T : Type} [LineSource T] {c : Cursor T} (he : c.exhausted = true)
    (ha : c.ahead = []) (operations : List Operation) :
    (c.performAll operations).peek = none ∧ (c.performAll operations).advance.result = .ok none := by
  obtain ⟨hresult, hafter⟩ : c.advance.result = .ok none ∧ c.advance.after = c := by
    rcases advance_of_exhausted he with ⟨a, rest, hcons, -⟩ | ⟨-, hadvance⟩
    · cases ha.symm.trans hcons
    · exact hadvance
  -- no operation changes the cursor any more
  have hall : c.performAll operations = c := by
    refine performAll_induction (P := fun d => d = c) ?_ rfl operations
    rintro _ operation rfl
    cases operation with
    | peek => rfl
    | advance => exact hafter
    | nextLine => exact congrArg Reply.after (nextLine_of_exhausted he)
  rw [hall]
  exact ⟨by rw [peek, ha, List.head?_nil], hresult⟩

/-- Where there is no line, the cursor stays as it was, or it has skipped lines and has nothing ahead. -/
theorem Refills.finished (hr : c.Refills s (.ok false) d) :
    d.exhausted = true ∧
      (d = { c with source := d.source, exhausted := true } ∨
        c.position.line < d.position.line ∧ d.ahead = []) := by
  cases hr with
  | known he => exact ⟨he, .inl (by rw [← he])⟩
  | @finish n source he ha ht =>
    refine ⟨rfl, ?_⟩
    -- the number of empty lines that were skipped
    cases n with
    | zero => exact .inl rfl
    | succ n => exact .inr ⟨Nat.lt_add_of_pos_right (Nat.succ_pos n), rfl⟩

/-- When a cursor goes to the next line and comes to a line, or to the end, the rest of its own line is
left behind, so that no character of it is returned later, exactly if a line was found, or at least an
empty one was skipped, or nothing was ahead. At the end there is then nothing more to be had. In the
other case the end came at once: the cursor knows of it, but is otherwise as before, with the rest of the
line still ahead. -/
theorem nextLine_discards_iff (s : S) (operations : List Operation) {found : Bool}
    (hfound : ((counting s).performAll operations).nextLine.result = .ok found) :
    let c := (counting s).performAll operations
    let d := c.nextLine.after
    ((∀ more, let e := d.performAll more
        (∀ a, e.peek = some a → c.position.line < e.position.line) ∧
        ∀ a, e.advance.result = .ok (some a) → c.position.line < e.advance.after.position.line) ↔
      found = true ∨ c.position.line < d.position.line ∨ c.peek = none) ∧
    (found = false → c.position.line < d.position.line ∨ c.peek = none →
      ∀ more, (d.performAll more).peek = none ∧ (d.performAll more).advance.result = .ok none) ∧
    (found = false → d.position.line = c.position.line →
      d = { c with source := d.source, exhausted := true }) := by
  intro c d
  have hc : c.Stands s := stands_performAll s operations
  have hr : c.Refills s (.ok found) d := hfound ▸ Cursor.refills hc.asked
  have hpeek : c.peek = none ↔ c.ahead = [] := List.head?_eq_none_iff
  refine ⟨⟨fun hlater => ?_, fun hcases more => ?_⟩, ?_, ?_⟩
  · -- if nothing was skipped, the next character is that of `c`
    rcases hr.place with ⟨-, -, ha, hp⟩ | ⟨hl, -⟩
    · refine .inr (.inr (Option.eq_none_iff_forall_ne_some.2 fun a hpa => ?_))
      have hd : d.peek = some a := by rwa [peek, ha]
      have hlt : c.position.line < d.position.line := (hlater []).1 a hd
      rw [hp] at hlt
      exact absurd hlt (Nat.lt_irrefl _)
    · exact .inr (.inl hl)
  · -- in each of the three cases nothing of the line is ahead
    have hbeyond : d.Beyond c.position.line := by
      rcases hr.place with ⟨hnot, -, ha, hp⟩ | ⟨hl, -⟩
      · refine ⟨le_of_eq (by rw [hp]), fun hd => ?_⟩
        rcases hcases with rfl | hl | hnone
        · exact absurd rfl hnot
        · exact hl
        · exact absurd (ha.trans (hpeek.1 hnone)) hd
      · exact ⟨Nat.le_of_lt hl, fun _ => hl⟩
    obtain ⟨hb, he⟩ := hbeyond.performAll (hc.refills hr) more
    refine ⟨fun a ha => hb.number_lt fun hn => ?_, (hb.advance he).2⟩
    simp [peek, hn] at ha
  · rintro rfl hcases more
    -- with the end known and nothing ahead, the cursor is finished
    obtain ⟨he, hd⟩ := hr.finished
    refine performAll_of_finished he ?_ more
    rcases hd with hd | ⟨-, ha⟩
    · have ha : d.ahead = c.ahead := by rw [hd]
      have hp : d.position = c.position := by rw [hd]
      rcases hcases with hl | hnone
      · exact absurd hl (by rw [hp]; exact Nat.lt_irrefl _)
      · exact ha.trans (hpeek.1 hnone)
    · exact ha
  · rintro rfl hl
    rcases hr.finished.2 with hd | ⟨hlt, -⟩
    · exact hd
    · exact absurd hl (Nat.ne_of_gt hlt)

/-- Behind the empty line that is skipped, nothing of the first line can be had. -/
theorem nextLine_discards_behind_empty_line :
    let c := (counting (Script.mk [.line "ab", .line ""])).performAll [.advance]
    let d := c.nextLine.after
    c.nextLine.result = .ok false ∧ c.peek = some 'b' ∧
      ∀ more, (d.performAll more).peek = none ∧ (d.performAll more).advance.result = .ok none := by
  intro c d
  have hr : c.nextLine.result = .ok false := by decide +kernel
  have hskipped : c.position.line < d.position.line := by decide +kernel
  exact ⟨hr, by decide +kernel, (nextLine_discards_iff _ _ hr).2.1 rfl (.inl hskipped)⟩

/-- Where the end follows at once, the rest of the line is not left behind: it is still shown, and
returned. -/
theorem rest_returned_after_end :
    let c := (counting (Script.mk [.line "ab"])).performAll [.advance]
    let d := c.nextLine.after
    c.nextLine.result = .ok false ∧ d.peek = some 'b' ∧ d.advance.result = .ok (some 'b') ∧
      d.advance.after.position.line = c.position.line := by
  decide +kernel

end
end Cursor
end ArithLexer
