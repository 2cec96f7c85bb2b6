import ArithLexer.Machine
import Mathlib.Data.List.DropRight
import Mathlib.Data.List.SplitBy
import Mathlib.Data.Nat.Digits.Defs

/-!
# Runs and refused characters

What a line says, without a machine that reads it. The line is cut into its maximal *runs*: two
neighbours belong to one run if both are digits or both are operator characters. A run of digits
stands for a number, a run of operator characters for an operator, and any other character is a run
of its own that stands for nothing.

A character is *refused* behind the characters before it if it belongs to no class, or if it is the
digit at which the number it belongs to grows above `maxNumber`. `reading` puts the two together:
the tokens of a line up to its first refused character.

The equations for `reading` at the end of the file, one for each way a line can go on
(`reading_blank_cons`, `reading_lexeme_append`, `reading_append_refused`), are all that later
modules use of these definitions.
-/

namespace ArithLexer

open Text (isBlank digit?)

/-! ### Classes of characters -/

def isDigit (c : Char) : Bool := (digit? c).isSome

def digitValue (c : Char) : Nat := (digit? c).getD 0

theorem isDigit_iff {c : Char} : isDigit c = true ↔ ∃ d, digit? c = some d :=
  Option.isSome_iff_exists

theorem digitValue_eq {c : Char} {d : Nat} (h : digit? c = some d) : digitValue c = d := by
  rw [digitValue, h, Option.getD_some]

theorem digitValue_lt (c : Char) : digitValue c < 10 := by
  rw [digitValue]
  cases h : digit? c with
  | none => decide
  | some d => exact (Text.digit?_eq_some_iff.1 h).1

theorem isDigit_eq_false_of_isBlank {c : Char} (h : isBlank c = true) : isDigit c = false := by
  rw [Bool.eq_false_iff]
  intro hd
  obtain ⟨d, hd⟩ := isDigit_iff.1 hd
  obtain ⟨hlt, hc⟩ := Text.digit?_eq_some_iff.1 hd
  obtain ⟨r, hr, hlo, hhi⟩ := Text.isBlank_iff.1 h
  have h0 : '0'.toNat = 48 := by decide
  -- each range of white space lies beside the code points of the digits
  simp only [Text.whiteSpace, List.mem_cons, List.not_mem_nil, or_false] at hr
  rcases hr with rfl | rfl | rfl | rfl | rfl | rfl | rfl | rfl | rfl | rfl <;>
    simp only at hlo hhi <;> omega

/-- The operator characters are neither blanks nor digits. -/
theorem classes_of_isOperatorChar {c : Char} (h : isOperatorChar c = true) :
    isBlank c = false ∧ isDigit c = false := by
  have hall : operatorChars.all (fun c => !isBlank c && !isDigit c) = true := by decide
  have hc := List.all_eq_true.1 hall c (List.contains_iff_mem.1 h)
  simpa using hc

theorem isOperatorChar_eq_false_of_isBlank {c : Char} (h : isBlank c = true) :
    isOperatorChar c = false := by
  rw [Bool.eq_false_iff]
  intro ho
  simp [(classes_of_isOperatorChar ho).1] at h

theorem isBlank_eq_false_of_isDigit {c : Char} (h : isDigit c = true) : isBlank c = false := by
  grind [isDigit_eq_false_of_isBlank]

theorem isOperatorChar_eq_false_of_isDigit {c : Char} (h : isDigit c = true) :
    isOperatorChar c = false := by
  rw [Bool.eq_false_iff]
  intro ho
  simp [(classes_of_isOperatorChar ho).2] at h

/-! ### Numerals -/

/-- The value of a string of digits to the base ten. -/
def numeralValue (ds : List Char) : Nat := Nat.ofDigits 10 (ds.map digitValue).reverse

@[simp] theorem numeralValue_nil : numeralValue [] = 0 := rfl

theorem numeralValue_concat (ds : List Char) (c : Char) :
    numeralValue (ds ++ [c]) = numeralValue ds * 10 + digitValue c := by
  simp only [numeralValue, List.map_append, List.map_cons, List.map_nil, List.reverse_append,
    List.reverse_cons, List.reverse_nil, List.nil_append, List.singleton_append, Nat.ofDigits_cons]
  omega

theorem numeralValue_singleton (c : Char) : numeralValue [c] = digitValue c := by
  simpa using numeralValue_concat [] c

/-- A number may have any digit as its first one. -/
theorem numeralValue_singleton_le (c : Char) : numeralValue [c] ≤ maxNumber := by
  have hmax : 10 ≤ maxNumber := by decide
  have hlt := digitValue_lt c
  rw [numeralValue_singleton]
  omega

/-! ### Runs -/

/-- Whether two neighbours belong to one run. -/
def joins (a b : Char) : Bool := (isDigit a && isDigit b) || (isOperatorChar a && isOperatorChar b)

/-- The maximal runs of a line, in order. -/
def runs (cs : List Char) : List (List Char) := cs.splitBy joins

/-- The token that a run stands for, if any. -/
def runToken? (run : List Char) : Option Token :=
  if run = [] then none
  else if run.all isDigit then some (.number (numeralValue run))
  else if run.all isOperatorChar then some (.operator (String.ofList run))
  else none

/-- The tokens of the maximal runs of a line. -/
def tokensOf (cs : List Char) : List Token := (runs cs).filterMap runToken?

/-- The tokens of the maximal runs of `p` except the last run, which touches whatever follows. -/
def tokensBefore (p : List Char) : List Token := (runs p).dropLast.filterMap runToken?

/-- No run goes on from the end of `p` to the head of `w`. -/
def Apart (p w : List Char) : Prop := ∀ a ∈ p.getLast?, ∀ b ∈ w.head?, joins a b = false

theorem Apart.nil_right (p : List Char) : Apart p [] := by
  intro a _ b hb
  simp at hb

theorem Apart.nil_left (w : List Char) : Apart [] w := by
  intro a ha
  simp at ha

theorem joins_eq_false_of_isBlank_left {a : Char} (h : isBlank a = true) (b : Char) :
    joins a b = false := by
  simp [joins, isDigit_eq_false_of_isBlank h, isOperatorChar_eq_false_of_isBlank h]

theorem joins_comm (a b : Char) : joins a b = joins b a := by
  rw [joins, joins, Bool.and_comm (isDigit a), Bool.and_comm (isOperatorChar a)]

/-- A blank at the end keeps a text apart from what follows. -/
theorem Apart.of_blank_left {p : List Char} {c : Char} (h : isBlank c = true) (w : List Char) :
    Apart (p ++ [c]) w := by
  intro a ha b _
  rw [List.getLast?_concat, Option.mem_some_iff] at ha
  exact ha ▸ joins_eq_false_of_isBlank_left h b

/-- A blank at the head keeps a text apart from what precedes. -/
theorem Apart.of_blank_right (p : List Char) {c : Char} (h : isBlank c = true) (w : List Char) :
    Apart p (c :: w) := by
  intro a _ b hb
  rw [List.head?_cons, Option.mem_some_iff] at hb
  rw [joins_comm]
  exact hb ▸ joins_eq_false_of_isBlank_left h a

/-- A character that is no digit ends a run of digits. -/
theorem Apart.of_digits {x : List Char} {c : Char} (hx : ∀ a ∈ x, isDigit a = true)
    (hc : isDigit c = false) (w : List Char) : Apart x (c :: w) := by
  intro a ha b hb
  have had : isDigit a = true := hx a (List.mem_of_getLast? ha)
  obtain rfl : c = b := by simpa using hb
  simp [joins, hc, isOperatorChar_eq_false_of_isDigit had]

/-- A character that is no operator character ends a run of operator characters. -/
theorem Apart.of_operators {x : List Char} {c : Char} (hx : ∀ a ∈ x, isOperatorChar a = true)
    (hc : isOperatorChar c = false) (w : List Char) : Apart x (c :: w) := by
  intro a ha b hb
  have hao : isOperatorChar a = true := hx a (List.mem_of_getLast? ha)
  obtain rfl : c = b := by simpa using hb
  simp [joins, hc, (classes_of_isOperatorChar hao).2]

theorem runs_append {p w : List Char} (h : Apart p w) : runs (p ++ w) = runs p ++ runs w :=
  List.splitBy_append h

theorem tokensOf_append {p w : List Char} (h : Apart p w) :
    tokensOf (p ++ w) = tokensOf p ++ tokensOf w := by
  rw [tokensOf, runs_append h, List.filterMap_append, tokensOf, tokensOf]

theorem tokensBefore_append {p w : List Char} (h : Apart p w) (hw : w ≠ []) :
    tokensBefore (p ++ w) = tokensOf p ++ tokensBefore w := by
  have hr : runs w ≠ [] := List.splitBy_ne_nil.2 hw
  rw [tokensBefore, runs_append h, List.dropLast_append_of_ne_nil hr, List.filterMap_append,
    tokensOf, tokensBefore]

/-! ### Lexemes -/

/-- `Lexeme x t` says that `x` is one way to write the token `t`: digits with a value that fits,
leading zeros or not, or operator characters. -/
inductive Lexeme : List Char → Token → Prop
  | number {x : List Char} : x ≠ [] → (∀ c ∈ x, isDigit c = true) → numeralValue x ≤ maxNumber →
      Lexeme x (.number (numeralValue x))
  | operator {x : List Char} : x ≠ [] → (∀ c ∈ x, isOperatorChar c = true) →
      Lexeme x (.operator (String.ofList x))

theorem Lexeme.ne_nil {x : List Char} {t : Token} (h : Lexeme x t) : x ≠ [] := by
  cases h <;> assumption

theorem Lexeme.runs_eq {x : List Char} {t : Token} (h : Lexeme x t) : runs x = [x] := by
  suffices hj : ∀ a ∈ x, ∀ b ∈ x, joins a b = true by
    exact List.splitBy_of_isChain h.ne_nil (List.pairwise_of_forall_mem_list hj).isChain
  -- any two characters of a lexeme are of its class, neighbours or not
  intro a ha b hb
  cases h with
  | number _ hd _ => simp [joins, hd a ha, hd b hb]
  | operator _ ho => simp [joins, ho a ha, ho b hb]

theorem Lexeme.runToken?_eq {x : List Char} {t : Token} (h : Lexeme x t) :
    runToken? x = some t := by
  cases h with
  | number hne hd _ => rw [runToken?, if_neg hne, if_pos (List.all_eq_true.2 hd)]
  | operator hne ho =>
    obtain ⟨c, rest, rfl⟩ := List.exists_cons_of_ne_nil hne
    have hc : isDigit c = false := (classes_of_isOperatorChar (ho c (by simp))).2
    have hn : ¬((c :: rest).all isDigit = true) := by simp [hc]
    rw [runToken?, if_neg hne, if_neg hn, if_pos (List.all_eq_true.2 ho)]

theorem Lexeme.tokensOf_eq {x : List Char} {t : Token} (h : Lexeme x t) : tokensOf x = [t] := by
  rw [tokensOf, h.runs_eq, List.filterMap_cons_some h.runToken?_eq, List.filterMap_nil]

/-- A character that is neither a digit nor an operator character stands for nothing. -/
theorem tokensOf_singleton {c : Char} (hd : isDigit c = false) (ho : isOperatorChar c = false) :
    tokensOf [c] = [] := by
  simp [tokensOf, runs, List.splitBy, List.splitBy.loop, runToken?, hd, ho]

/-! ### Refused characters -/

/-- The digits at the end of `p`, which a digit behind `p` would join. -/
def lastDigits (p : List Char) : List Char := p.rtakeWhile isDigit

/-- Why the character `c` is refused behind `p`, if it is. -/
def refusal? (p : List Char) (c : Char) : Option Rejection :=
  if isBlank c ∨ isOperatorChar c then none
  else if isDigit c then
    if numeralValue (lastDigits p) ≤ maxNumber ∧ maxNumber < numeralValue (lastDigits p ++ [c]) then
      some .numberOverflow
    else none
  else some (.unacceptable c)

/-- The first character of the second list that is refused behind the first list and what precedes
it in the second: everything before that character, and the reason. -/
def refusedFrom (p : List Char) : List Char → Option (List Char × Rejection)
  | [] => none
  | c :: cs =>
    match refusal? p c with
    | some reason => some (p, reason)
    | none => refusedFrom (p ++ [c]) cs

/-- The first refused character of a line: what precedes it, and the reason. -/
def firstRefused (cs : List Char) : Option (List Char × Rejection) := refusedFrom [] cs

theorem refusal?_blank {c : Char} (h : isBlank c = true) (p : List Char) : refusal? p c = none := by
  simp [refusal?, h]

theorem refusal?_operator {c : Char} (h : isOperatorChar c = true) (p : List Char) :
    refusal? p c = none := by
  simp [refusal?, h]

theorem refusal?_digit {c : Char} (h : isDigit c = true) (p : List Char) :
    refusal? p c =
      if numeralValue (lastDigits p) ≤ maxNumber ∧ maxNumber < numeralValue (lastDigits p ++ [c])
      then some .numberOverflow else none := by
  simp [refusal?, isBlank_eq_false_of_isDigit h, isOperatorChar_eq_false_of_isDigit h, h]

theorem refusal?_other {c : Char} (hb : isBlank c = false) (hd : isDigit c = false)
    (ho : isOperatorChar c = false) (p : List Char) : refusal? p c = some (.unacceptable c) := by
  simp [refusal?, hb, hd, ho]

theorem refusal?_nil_digit {c : Char} (h : isDigit c = true) : refusal? [] c = none := by
  have hle := numeralValue_singleton_le c
  rw [refusal?_digit h, if_neg]
  rintro ⟨-, hlt⟩
  exact absurd hlt (Nat.not_lt.2 hle)

theorem lastDigits_of_digits {p : List Char} (h : ∀ c ∈ p, isDigit c = true) : lastDigits p = p :=
  List.rtakeWhile_eq_self_iff.2 h

theorem lastDigits_append_digits (p : List Char) {q : List Char} (h : ∀ c ∈ q, isDigit c = true) :
    lastDigits (p ++ q) = lastDigits p ++ q := by
  rw [lastDigits, lastDigits, List.rtakeWhile, List.reverse_append,
    List.takeWhile_append_of_pos (by simpa using h), List.reverse_append, List.reverse_reverse,
    List.rtakeWhile]

theorem lastDigits_append_of_not (p : List Char) {q : List Char} {c : Char} (hc : c ∈ q)
    (h : isDigit c = false) : lastDigits (p ++ q) = lastDigits q := by
  have hl : (q.reverse.takeWhile isDigit).length ≠ q.reverse.length := by
    -- if the digits went through all of `q`, `c` would be one of them
    intro hl
    have he := (List.takeWhile_prefix (p := isDigit) (l := q.reverse)).eq_of_length hl
    have := List.mem_takeWhile_imp (he ▸ List.mem_reverse.2 hc)
    rw [h] at this
    exact absurd this (by decide)
  rw [lastDigits, List.rtakeWhile, List.reverse_append, List.takeWhile_append, if_neg hl]
  rfl

/-- What stands before a run has no influence on whether its characters are refused. -/
theorem refusal?_append {p q : List Char} {c : Char} (h : Apart p (q ++ [c])) :
    refusal? (p ++ q) c = refusal? q c := by
  by_cases hc : isDigit c = true
  · suffices hl : lastDigits (p ++ q) = lastDigits q by rw [refusal?_digit hc, hl, refusal?_digit hc]
    by_cases hq : ∀ a ∈ q, isDigit a = true
    · -- the run of `c` begins at the head of `q`, so no digit precedes it
      obtain ⟨b, hb, hbd⟩ : ∃ b, (q ++ [c]).head? = some b ∧ isDigit b = true := by
        cases q with
        | nil => exact ⟨c, rfl, hc⟩
        | cons b q => exact ⟨b, rfl, hq b (by simp)⟩
      have hp : lastDigits p = [] := by
        refine List.rtakeWhile_eq_nil_iff.2 fun hne ha => ?_
        have := h _ (List.getLast?_eq_some_getLast hne) b hb
        simp [joins, ha, hbd] at this
      rw [lastDigits_append_digits p hq, hp, List.nil_append, lastDigits_of_digits hq]
    · -- the last digits end within `q`, before they come to `p`
      push Not at hq
      obtain ⟨a, ha, hd⟩ := hq
      exact lastDigits_append_of_not p ha (by simpa using hd)
  · simp [refusal?, hc]

theorem Apart.prefix_right {p w q s : List Char} (h : Apart p w) (hw : w = q ++ s) (hq : q ≠ []) :
    Apart p q := by
  intro a ha b hb
  obtain ⟨d, q, rfl⟩ := List.exists_cons_of_ne_nil hq
  exact h a ha b (by rw [hw]; exact hb)

theorem refusedFrom_append (p u w : List Char) :
    refusedFrom p (u ++ w) = (refusedFrom p u).or (refusedFrom (p ++ u) w) := by
  induction u generalizing p with
  | nil => simp [refusedFrom]
  | cons c u ih =>
    rw [List.cons_append, refusedFrom, refusedFrom]
    cases refusal? p c with
    | some reason => rfl
    | none =>
      rw [ih]
      simp

theorem refusedFrom_append_left {p q w : List Char} (h : Apart p (q ++ w)) :
    refusedFrom (p ++ q) w = (refusedFrom q w).map fun x => (p ++ x.1, x.2) := by
  -- what has been read moves from `w` to `q`, and the cut stays where it is
  induction w generalizing q with
  | nil => rfl
  | cons c w ih =>
    have hc : Apart p (q ++ [c]) := h.prefix_right (s := w) (by simp) (by simp)
    rw [refusedFrom, refusedFrom, refusal?_append hc]
    cases refusal? q c with
    | some reason => rfl
    | none => simpa using ih (q := q ++ [c]) (by simpa using h)

theorem firstRefused_append_of_none {u w : List Char} (h : Apart u w)
    (hu : firstRefused u = none) :
    firstRefused (u ++ w) = (firstRefused w).map fun x => (u ++ x.1, x.2) := by
  have hw := refusedFrom_append_left (p := u) (q := []) (w := w) h
  rw [firstRefused] at hu
  rw [firstRefused, refusedFrom_append, hu, Option.none_or]
  simpa [firstRefused] using hw

theorem firstRefused_append_of_some {u : List Char} {x : List Char × Rejection} (w : List Char)
    (hu : firstRefused u = some x) : firstRefused (u ++ w) = some x := by
  rw [firstRefused] at hu
  rw [firstRefused, refusedFrom_append, hu, Option.some_or]

theorem firstRefused_of_append {u w : List Char} (h : firstRefused (u ++ w) = none) :
    firstRefused u = none := by
  cases hu : firstRefused u with
  | none => rfl
  | some x =>
    -- what is refused in `u` stays refused, whatever follows
    rw [firstRefused_append_of_some w hu] at h
    cases h

theorem firstRefused_concat {p : List Char} (hp : firstRefused p = none) (c : Char) :
    firstRefused (p ++ [c]) = (refusal? p c).map fun reason => (p, reason) := by
  rw [firstRefused] at hp
  rw [firstRefused, refusedFrom_append, hp, Option.none_or, List.nil_append, refusedFrom]
  cases refusal? p c <;> rfl

/-- The first refused character has nothing refused before it. -/
theorem firstRefused_eq_some_iff {cs p : List Char} {reason : Rejection} :
    firstRefused cs = some (p, reason) ↔
      firstRefused p = none ∧ ∃ c s, cs = p ++ c :: s ∧ refusal? p c = some reason := by
  constructor
  · intro h
    -- from the end, since whether the last character is looked at depends on those before it
    induction cs using List.reverseRecOn with
    | nil => simp [firstRefused, refusedFrom] at h
    | append_singleton cs c ih =>
      cases hcs : firstRefused cs with
      | none =>
        rw [firstRefused_concat hcs, Option.map_eq_some_iff] at h
        obtain ⟨r, hr, he⟩ := h
        cases he
        exact ⟨hcs, c, [], rfl, hr⟩
      | some x =>
        rw [firstRefused_append_of_some _ hcs] at h
        obtain ⟨hp, d, s, rfl, hd⟩ := ih (hcs.trans h)
        exact ⟨hp, d, s ++ [c], by simp, hd⟩
  · rintro ⟨hp, c, s, rfl, hc⟩
    have h := firstRefused_append_of_some s (x := (p, reason))
      (by rw [firstRefused_concat hp, hc]; rfl)
    simpa using h

theorem firstRefused_of_digits {x : List Char} (hd : ∀ c ∈ x, isDigit c = true)
    (hv : numeralValue x ≤ maxNumber) : firstRefused x = none := by
  -- from the end, as each digit is looked at behind those before it
  induction x using List.reverseRecOn with
  | nil => rfl
  | append_singleton x c ih =>
    have hx : ∀ a ∈ x, isDigit a = true := fun a ha => hd a (by simp [ha])
    have hle : numeralValue x ≤ maxNumber := by
      rw [numeralValue_concat] at hv
      omega
    rw [firstRefused_concat (ih hx hle), refusal?_digit (hd c (by simp)),
      lastDigits_of_digits hx, if_neg (by omega)]
    rfl

theorem firstRefused_of_operators {x : List Char} (ho : ∀ c ∈ x, isOperatorChar c = true) :
    firstRefused x = none := by
  induction x using List.reverseRecOn with
  | nil => rfl
  | append_singleton x c ih =>
    have hx : ∀ a ∈ x, isOperatorChar a = true := fun a ha => ho a (by simp [ha])
    rw [firstRefused_concat (ih hx), refusal?_operator (ho c (by simp))]
    rfl

theorem Lexeme.firstRefused_eq_none {x : List Char} {t : Token} (h : Lexeme x t) :
    firstRefused x = none := by
  cases h with
  | number _ hd hv => exact firstRefused_of_digits hd hv
  | operator _ ho => exact firstRefused_of_operators ho

/-! ### Readings -/

/-- The tokens of a line up to its first refused character, and that character, if there is one: what
precedes it, and the reason. A run that touches the refused character gives no token. -/
def reading (cs : List Char) : List Token × Option (List Char × Rejection) :=
  match firstRefused cs with
  | none => (tokensOf cs, none)
  | some (p, reason) => (tokensBefore p, some (p, reason))

theorem reading_nil : reading [] = ([], none) := rfl

theorem reading_of_none {cs : List Char} (h : firstRefused cs = none) :
    reading cs = (tokensOf cs, none) := by
  rw [reading, h]

theorem reading_snd (cs : List Char) : (reading cs).2 = firstRefused cs := by
  rw [reading]
  cases firstRefused cs <;> rfl

/-- Two texts that are apart are read one after the other. The run at the end of the first counts
unless the second begins with a refused character. -/
theorem reading_append {u w : List Char} (h : Apart u w) (hu : firstRefused u = none)
    (hw : tokensBefore u = tokensOf u ∨ ∀ c ∈ w.head?, refusal? [] c = none) :
    reading (u ++ w) =
      (tokensOf u ++ (reading w).1, (reading w).2.map fun x => (u ++ x.1, x.2)) := by
  rw [reading, firstRefused_append_of_none h hu, reading]
  cases hf : firstRefused w with
  | none => simp [tokensOf_append h]
  | some x =>
    obtain ⟨p, reason⟩ := x
    obtain ⟨-, c, s, rfl, hc⟩ := firstRefused_eq_some_iff.1 hf
    simp only [Option.map_some, Prod.mk.injEq, and_true]
    -- the last run of `u` touches the refused character only if that is the head of `w`
    by_cases hp : p = []
    · subst hp
      rcases hw with hw | hw
      · rw [List.append_nil, hw]
        simp [tokensBefore, runs]
      · rw [hw c rfl] at hc
        exact absurd hc (by simp)
    · exact tokensBefore_append (h.prefix_right rfl hp) hp

theorem reading_append_of_some {u : List Char} {x : List Char × Rejection} (w : List Char)
    (hu : firstRefused u = some x) : reading (u ++ w) = reading u := by
  rw [reading, firstRefused_append_of_some w hu, reading, hu]

/-- A blank at the head is passed over. -/
theorem reading_blank_cons {c : Char} (h : isBlank c = true) (w : List Char) :
    reading (c :: w) = ((reading w).1, (reading w).2.map fun x => (c :: x.1, x.2)) := by
  have ht : tokensOf [c] = [] :=
    tokensOf_singleton (isDigit_eq_false_of_isBlank h) (isOperatorChar_eq_false_of_isBlank h)
  have hf : firstRefused [c] = none := by
    simp [firstRefused, refusedFrom, refusal?_blank h]
  have hb : tokensBefore [c] = tokensOf [c] := by
    rw [ht]
    rfl
  simpa [ht] using reading_append (Apart.of_blank_left (p := []) h w) hf (Or.inl hb)

/-- A blank keeps what precedes it apart from what follows it. -/
theorem reading_append_blank_cons {u : List Char} {c : Char} (hu : firstRefused u = none)
    (hc : isBlank c = true) (w : List Char) :
    reading (u ++ c :: w) =
      (tokensOf u ++ (reading w).1, (reading w).2.map fun x => (u ++ c :: x.1, x.2)) := by
  rw [reading_append (Apart.of_blank_right u hc w) hu (.inr (by simp [refusal?_blank hc])),
    reading_blank_cons hc, Option.map_map]
  rfl

theorem reading_concat_blank {c : Char} (h : isBlank c = true) (u : List Char) :
    reading (u ++ [c]) = reading u := by
  cases hu : firstRefused u with
  | some x => exact reading_append_of_some [c] hu
  | none =>
    -- the blank parts the text from nothing
    rw [reading_append_blank_cons hu h, reading_nil, reading_of_none hu, List.append_nil]
    rfl

/-- A lexeme at the head is the first token, unless it could go on or touches a refused
character. -/
theorem reading_lexeme_append {x w : List Char} {t : Token} (hx : Lexeme x t) (h : Apart x w)
    (hw : ∀ c ∈ w.head?, refusal? [] c = none) :
    reading (x ++ w) = (t :: (reading w).1, (reading w).2.map fun y => (x ++ y.1, y.2)) := by
  simpa [hx.tokensOf_eq] using reading_append h hx.firstRefused_eq_none (Or.inr hw)

/-- A refused character behind a text without refused characters. -/
theorem reading_append_refused {p : List Char} {c : Char} {reason : Rejection}
    (hp : firstRefused p = none) (hc : refusal? p c = some reason) (w : List Char) :
    reading (p ++ c :: w) = (tokensBefore p, some (p, reason)) := by
  have h : firstRefused (p ++ c :: w) = some (p, reason) :=
    firstRefused_eq_some_iff.2 ⟨hp, c, w, rfl, hc⟩
  rw [reading, h]

theorem Lexeme.tokensBefore_eq {x : List Char} {t : Token} (h : Lexeme x t) :
    tokensBefore x = [] := by
  simp [tokensBefore, h.runs_eq]

end ArithLexer
