import ArithLexer.Proofs.Simulation

/-!
# The answers of a source

`LineSource.answer s n` is what a source answers when it has been asked `n` times before. Sources that
go on answering alike have the same answers (`Answering.answer_eq`), also if it is counted how often
they are asked (`Answering.counted`), and if both of them answer like a third one (`Answering.common`).

A counted source has been asked as often as its count says (`Asked`).
-/

namespace ArithLexer

namespace LineSource

variable {S : Type} [LineSource S]

/-- The source after `n` questions. -/
def after (s : S) (n : Nat) : S := (fun t => (next t).2)^[n] s

/-- The answer to the question behind the first `n`. -/
def answer (s : S) (n : Nat) : Except IoError (Option String) := (next (after s n)).1

theorem after_succ' (s : S) (n : Nat) : after s (n + 1) = (next (after s n)).2 :=
  Function.iterate_succ_apply' _ n s

theorem answer_succ (s : S) (n : Nat) : answer s (n + 1) = answer (next s).2 n := rfl

end LineSource

section
variable {S T U : Type} [LineSource S] [LineSource T] [LineSource U]

theorem Answering.answer_eq {R : S → T → Prop} (hR : Answering R) {s : S} {t : T} (h : R s t)
    (n : Nat) : LineSource.answer s n = LineSource.answer t n := by
  induction n generalizing s t with
  | zero => exact (hR s t h).1
  | succ n ih =>
    rw [LineSource.answer_succ, LineSource.answer_succ]
    exact ih (hR s t h).2

theorem Answering.counted {R : S → T → Prop} (hR : Answering R) :
    Answering fun (s : Counted S) (t : Counted T) => s.pulls = t.pulls ∧ R s.source t.source := by
  rintro ⟨s, k⟩ ⟨t, _⟩ ⟨rfl, h⟩
  exact ⟨(hR s t h).1, rfl, (hR s t h).2⟩

/-- Two sources that answer like a third one answer alike. -/
theorem Answering.common {R : S → T → Prop} {Q : S → U → Prop} (hR : Answering R)
    (hQ : Answering Q) : Answering fun (t : T) (u : U) => ∃ s, R s t ∧ Q s u := by
  rintro t u ⟨s, ht, hu⟩
  obtain ⟨hrt, ht'⟩ := hR s t ht
  obtain ⟨hru, hu'⟩ := hQ s u hu
  exact ⟨hrt.symm.trans hru, _, ht', hu'⟩

/-- An answer as a source gives it. -/
def Answer.result : Answer → Except IoError (Option String)
  | line text => .ok (some text)
  | finish => .ok none
  | failure cause => .error cause

/-- A script gives its answers one after the other, and then always the end. -/
theorem Script.answer_eq (answers : List Answer) (n : Nat) :
    LineSource.answer (Script.mk answers) n = (answers[n]?.getD .finish).result := by
  induction n generalizing answers with
  | zero => rcases answers with _ | ⟨_ | _ | _, rest⟩ <;> rfl
  | succ n ih =>
    rw [LineSource.answer_succ]
    rcases answers with _ | ⟨_ | _ | _, rest⟩ <;> exact ih _

/-- A queue of lines gives them one after the other, and then always the end. -/
theorem MemoryLines.answer_eq (lines : List String) (n : Nat) :
    LineSource.answer (MemoryLines.mk lines) n = .ok lines[n]? := by
  induction n generalizing lines with
  | zero => cases lines <;> rfl
  | succ n ih =>
    rw [LineSource.answer_succ]
    cases lines with
    | nil => exact ih []
    | cons line rest => exact ih rest

/-- What is behind the counter is the source `s` after as many questions as have been counted. -/
def Asked (s : S) (t : Counted S) : Prop := t.source = LineSource.after s t.pulls

theorem Asked.next {s : S} {t : Counted S} (h : Asked s t) :
    (LineSource.next t).1 = LineSource.answer s t.pulls ∧ Asked s (LineSource.next t).2 ∧
      (LineSource.next t).2.pulls = t.pulls + 1 := by
  have hnext : LineSource.next t =
      ((LineSource.next t.source).1, ⟨(LineSource.next t.source).2, t.pulls + 1⟩) := rfl
  have hsource : t.source = LineSource.after s t.pulls := h
  rw [hnext, hsource]
  exact ⟨rfl, (LineSource.after_succ' s t.pulls).symm, rfl⟩

end

end ArithLexer
