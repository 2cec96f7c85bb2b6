import ArithLexer.Proofs.Runs

/-!
# What the machine holds

A state of the machine stands for the characters of the token it is reading. `State.Pending s u`
says that these characters are `u`. From there the machine does what the runs of the line ask for:
it takes a character that goes on with `u`, gives `u` out as a token where a run ends, and refuses
exactly the characters that are refused behind `u` (`State.Pending.steps`,
`State.Pending.step_none`).
-/

namespace ArithLexer

open Text (isBlank digit?)

/-- `s.Pending u` says that `s` has read the characters `u` of a token that is not complete. -/
inductive State.Pending : State → List Char → Prop
  | start : Pending .start []
  | number {u : List Char} : u ≠ [] → (∀ c ∈ u, isDigit c = true) → numeralValue u ≤ maxNumber →
      Pending (.number (numeralValue u)) u
  | operator {u : List Char} : u ≠ [] → (∀ c ∈ u, isOperatorChar c = true) →
      Pending (.operator (String.ofList u)) u

/-- What the machine can do in the state `s` with the character `c`, if it holds `u`. -/
inductive State.Steps (s : State) (u : List Char) (c : Char) : Prop
  | pass : u = [] → s.step (some c) = .take .start → isBlank c = true → Steps s u c
  | take {t : State} : s.step (some c) = .take t → t.Pending (u ++ [c]) → Steps s u c
  /-- The run of `u` ends before `c`, which is not refused at the head of another run. -/
  | emit {t : Token} : s.step (some c) = .emit t → Lexeme u t → (∀ w, Apart u (c :: w)) →
      refusal? [] c = none → Steps s u c
  | reject {r : Rejection} : s.step (some c) = .reject r → refusal? u c = some r → Steps s u c

/-! ### The class of a character -/

theorem CharClass.ofChar_blank {c : Char} (h : isBlank c = true) : ofChar c = .blank := by
  simp [ofChar, h]

theorem CharClass.ofChar_digit {c : Char} (h : isDigit c = true) :
    ofChar c = .digit (digitValue c) := by
  obtain ⟨d, hd⟩ := isDigit_iff.1 h
  simp [ofChar, isBlank_eq_false_of_isDigit h, hd, digitValue_eq hd]

theorem CharClass.ofChar_operator {c : Char} (h : isOperatorChar c = true) :
    ofChar c = .operator c := by
  obtain ⟨hb, hd⟩ := classes_of_isOperatorChar h
  have hn : digit? c = none := by simpa [isDigit] using hd
  simp [ofChar, hb, hn, h]

theorem CharClass.ofChar_other {c : Char} (hb : isBlank c = false) (hd : isDigit c = false)
    (ho : isOperatorChar c = false) : ofChar c = .other c := by
  have hn : digit? c = none := by simpa [isDigit] using hd
  simp [ofChar, hb, hn, ho]

/-- Every character is a blank, a digit, an operator character, or none of these. -/
theorem class_cases (c : Char) :
    isBlank c = true ∨ isDigit c = true ∨ isOperatorChar c = true ∨
      (isBlank c = false ∧ isDigit c = false ∧ isOperatorChar c = false) := by
  grind

namespace State.Pending

variable {s : State} {u : List Char}

theorem firstRefused_eq_none (h : s.Pending u) : firstRefused u = none := by
  cases h with
  | start => rfl
  | number _ hd hv => exact firstRefused_of_digits hd hv
  | operator _ ho => exact firstRefused_of_operators ho

theorem tokensBefore_eq_nil (h : s.Pending u) : tokensBefore u = [] := by
  cases h with
  | start => rfl
  | number hne hd hv => exact (Lexeme.number hne hd hv).tokensBefore_eq
  | operator hne ho => exact (Lexeme.operator hne ho).tokensBefore_eq

/-- At the end of the line the machine gives out what it holds. -/
theorem step_none (h : s.Pending u) :
    (s = .start ∧ u = []) ∨ ∃ t, s.step none = .emit t ∧ Lexeme u t := by
  cases h with
  | start => exact .inl ⟨rfl, rfl⟩
  | number hne hd hv => exact .inr ⟨_, rfl, .number hne hd hv⟩
  | operator hne ho => exact .inr ⟨_, rfl, .operator hne ho⟩

/-- What the machine does with a character: it passes over it, takes it to what it holds, gives out
what it holds as the character belongs to something else, or refuses it. -/
theorem steps (h : s.Pending u) (c : Char) : s.Steps u c := by
  -- the class of the character first: it decides what the machine does, and what it holds only
  -- decides whether a run ends
  rcases class_cases c with hb | hd | ho | ⟨hb, hd, ho⟩
  · have hc : CharClass.ofNext (some c) = .blank := CharClass.ofChar_blank hb
    cases h with
    | start =>
      refine .pass rfl ?_ hb
      simp [step, hc]
    | number hne hu hv =>
      -- a blank is in no run, so it parts what is held from all that comes
      refine .emit ?_ (.number hne hu hv) ?_ (refusal?_blank hb _)
      · simp [step, hc]
      · exact Apart.of_digits hu (isDigit_eq_false_of_isBlank hb)
    | operator hne hu =>
      refine .emit ?_ (.operator hne hu) ?_ (refusal?_blank hb _)
      · simp [step, hc]
      · exact Apart.of_operators hu (isOperatorChar_eq_false_of_isBlank hb)
  · have hc : CharClass.ofNext (some c) = .digit (digitValue c) := CharClass.ofChar_digit hd
    cases h with
    | start =>
      have hone : ∀ a ∈ [c], isDigit a = true := List.forall_mem_singleton.2 hd
      refine .take ?_ (.number (by simp) hone (numeralValue_singleton_le c))
      simp [step, hc, numeralValue_singleton]
    | @number u hne hu hv =>
      have hall : ∀ a ∈ u ++ [c], isDigit a = true :=
        List.forall_mem_append.2 ⟨hu, List.forall_mem_singleton.2 hd⟩
      -- the machine compares the value of the digits with this one, before it takes it
      have hval := numeralValue_concat u c
      by_cases hle : numeralValue (u ++ [c]) ≤ maxNumber
      · refine .take ?_ (.number (by simp) hall hle)
        rw [hval] at hle
        simp [step, hc, hle, hval]
      · refine .reject (r := .numberOverflow) ?_ ?_
        · rw [hval] at hle
          simp [step, hc, hle]
        · rw [refusal?_digit hd, lastDigits_of_digits hu, if_pos ⟨hv, by omega⟩]
    | operator hne hu =>
      refine .emit ?_ (.operator hne hu) ?_ (refusal?_nil_digit hd)
      · simp [step, hc]
      · exact Apart.of_operators hu (isOperatorChar_eq_false_of_isDigit hd)
  · have hc : CharClass.ofNext (some c) = .operator c := CharClass.ofChar_operator ho
    cases h with
    | start =>
      have hone : ∀ a ∈ [c], isOperatorChar a = true := List.forall_mem_singleton.2 ho
      refine .take ?_ (.operator (by simp) hone)
      simp [step, hc]
    | number hne hu hv =>
      refine .emit ?_ (.number hne hu hv) ?_ (refusal?_operator ho _)
      · simp [step, hc]
      · exact Apart.of_digits hu (classes_of_isOperatorChar ho).2
    | @operator u hne hu =>
      have hall : ∀ a ∈ u ++ [c], isOperatorChar a = true :=
        List.forall_mem_append.2 ⟨hu, List.forall_mem_singleton.2 ho⟩
      refine .take ?_ (.operator (by simp) hall)
      simp [step, hc]
  · have hc : CharClass.ofNext (some c) = .other c := CharClass.ofChar_other hb hd ho
    -- refused in every state
    refine .reject ?_ (refusal?_other hb hd ho u)
    cases s <;> simp [step, hc]

end State.Pending
end ArithLexer
