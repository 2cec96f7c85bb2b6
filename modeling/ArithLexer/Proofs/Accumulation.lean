import ArithLexer.Proofs.Pending
import Mathlib.Order.Bounds.Basic

/-!
# Accumulating numbers

A number is read one digit after another. `accumulated n ds` is what the digits `ds` make of `n`, without
any bound. The machine checks at each digit whether the number still fits into 64 bits, and `takeAll`
follows it over a whole string of digits.

The same check can be made in words of 64 bits, where the multiplication by ten and the addition of the
digit can each overflow: `appendDigit?` watches both. Over any string of digits it succeeds exactly if the
number fits, and then with that number (`foldlM_appendDigit?_eq_some_iff`). The main statement,
`State.digits_accumulate`, puts the two together.
-/

namespace ArithLexer

/-! ### The value without a bound -/

/-- The number that comes of `n` when the digits `ds` are written behind it. -/
def accumulated (n : Nat) (ds : List Char) : Nat := n * 10 ^ ds.length + numeralValue ds

@[simp] theorem accumulated_nil (n : Nat) : accumulated n [] = n := by simp [accumulated]

theorem numeralValue_cons (c : Char) (ds : List Char) :
    numeralValue (c :: ds) = digitValue c * 10 ^ ds.length + numeralValue ds := by
  rw [numeralValue, numeralValue, List.map_cons, List.reverse_cons, Nat.ofDigits_append,
    Nat.ofDigits_singleton, List.length_reverse, List.length_map]
  ring

/-- The first digit can be written behind `n` before the others are. -/
theorem accumulated_cons (n : Nat) (c : Char) (ds : List Char) :
    accumulated n (c :: ds) = accumulated (n * 10 + digitValue c) ds := by
  rw [accumulated, accumulated, numeralValue_cons, List.length_cons, pow_succ]
  ring

theorem accumulated_append (n : Nat) (ds more : List Char) :
    accumulated n (ds ++ more) = accumulated (accumulated n ds) more := by
  induction ds generalizing n with
  | nil => rw [accumulated_nil, List.nil_append]
  | cons c ds ih => rw [List.cons_append, accumulated_cons, ih, ← accumulated_cons]

theorem le_accumulated (n : Nat) (ds : List Char) : n ≤ accumulated n ds := by
  have hpow : 0 < 10 ^ ds.length := Nat.pow_pos (by decide)
  exact (Nat.le_mul_of_pos_right n hpow).trans (Nat.le_add_right _ _)

/-! ### The machine -/

namespace State

/-- `s.Holds n` says that the machine has the number `n` so far. Between tokens it can begin one, which is
no number yet and counts as 0. -/
inductive Holds : State → Nat → Prop
  | start : Holds .start 0
  | number (n : Nat) : Holds (.number n) n

/-- The state of a machine that has taken all of some characters, one after the other, if it takes them. -/
def takeAll (s : State) : List Char → Option State
  | [] => some s
  | c :: cs =>
    match s.step (some c) with
    | .take t => t.takeAll cs
    | .emit _ => none
    | .reject _ => none

theorem takeAll_cons {s t : State} {c : Char} (h : s.step (some c) = .take t) (cs : List Char) :
    s.takeAll (c :: cs) = t.takeAll cs := by
  rw [takeAll, h]

variable {s : State} {n : Nat}

/-- A digit is taken if the number still fits into 64 bits with it, and refused if not. -/
theorem Holds.step_digit (h : s.Holds n) {c : Char} (hc : isDigit c = true) :
    s.step (some c) =
      if n * 10 + digitValue c < 2 ^ 64 then .take (.number (n * 10 + digitValue c))
      else .reject .numberOverflow := by
  have hclass : CharClass.ofNext (some c) = .digit (digitValue c) := CharClass.ofChar_digit hc
  have hmax : maxNumber + 1 = 2 ^ 64 := by decide
  cases h with
  -- a single digit always fits, so nothing is checked between tokens
  | start =>
    have hlt : 0 * 10 + digitValue c < 2 ^ 64 := by
      have := digitValue_lt c
      omega
    rw [if_pos hlt, Nat.zero_mul, Nat.zero_add]
    simp only [step, hclass]
  | number n => simp only [step, hclass, ← hmax, Nat.lt_succ_iff]

theorem Holds.step_of_fits (h : s.Holds n) {c : Char} {ds : List Char} (hc : isDigit c = true)
    (hlt : accumulated n (c :: ds) < 2 ^ 64) :
    s.step (some c) = .take (.number (n * 10 + digitValue c)) := by
  rw [accumulated_cons] at hlt
  rw [h.step_digit hc, if_pos ((le_accumulated _ ds).trans_lt hlt)]

/-- Digits are taken as long as the number fits. -/
theorem takeAll_digits {ds : List Char} (hd : ∀ c ∈ ds, isDigit c = true)
    (hlt : accumulated n ds < 2 ^ 64) :
    (number n).takeAll ds = some (number (accumulated n ds)) := by
  induction ds generalizing n with
  | nil => rw [takeAll, accumulated_nil]
  | cons c ds ih =>
    obtain ⟨hc, hds⟩ := List.forall_mem_cons.1 hd
    rw [takeAll_cons ((Holds.number n).step_of_fits hc hlt)]
    rw [accumulated_cons] at hlt ⊢
    exact ih hds hlt

theorem Holds.takeAll_digits (h : s.Holds n) {ds : List Char} (hne : ds ≠ [])
    (hd : ∀ c ∈ ds, isDigit c = true) (hlt : accumulated n ds < 2 ^ 64) :
    s.takeAll ds = some (.number (accumulated n ds)) := by
  obtain ⟨c, ds, rfl⟩ := List.exists_cons_of_ne_nil hne
  obtain ⟨hc, hds⟩ := List.forall_mem_cons.1 hd
  -- behind the first digit the machine is inside a number, from `start`, too
  rw [takeAll_cons (h.step_of_fits hc hlt)]
  rw [accumulated_cons] at hlt ⊢
  exact State.takeAll_digits hds hlt

end State

/-- Where a number does not fit in the end, there is a digit with which it does not fit any more. -/
theorem exists_overflow {n : Nat} (hn : n < 2 ^ 64) {ds : List Char}
    (h : 2 ^ 64 ≤ accumulated n ds) :
    ∃ p c rest, ds = p ++ c :: rest ∧ accumulated n p < 2 ^ 64 ∧
      2 ^ 64 ≤ accumulated n (p ++ [c]) := by
  induction ds generalizing n with
  | nil => exact absurd h (by rw [accumulated_nil]; omega)
  | cons c ds ih =>
    rw [accumulated_cons] at h
    -- either the rest overflows behind the first digit, or the first digit does it itself
    by_cases hlt : n * 10 + digitValue c < 2 ^ 64
    · obtain ⟨p, d, rest, rfl, hp, hd⟩ := ih hlt h
      refine ⟨c :: p, d, rest, rfl, ?_, ?_⟩
      · rwa [accumulated_cons]
      · rwa [List.cons_append, accumulated_cons]
    · refine ⟨[], c, ds, rfl, by rwa [accumulated_nil], ?_⟩
      rw [List.nil_append, accumulated_cons, accumulated_nil]
      exact Nat.le_of_not_lt hlt

/-- It is the first such digit, and the number does not fit behind it either. -/
theorem isLeast_overflow {n : Nat} {p rest : List Char} {c : Char} (hp : accumulated n p < 2 ^ 64)
    (hc : 2 ^ 64 ≤ accumulated n (p ++ [c])) :
    IsLeast {i | 2 ^ 64 ≤ accumulated n ((p ++ c :: rest).take i)} (p.length + 1) := by
  constructor
  · have htake : (p ++ c :: rest).take (p.length + 1) = p ++ [c] := by
      rw [List.take_length_add_append, List.take_succ_cons, List.take_zero]
    rwa [Set.mem_ofPred_eq, htake]
  · intro i hi
    by_contra hlt
    have htake : (p ++ c :: rest).take i = p.take i := List.take_append_of_le_length (by omega)
    rw [Set.mem_ofPred_eq, htake] at hi
    -- a shorter string of digits makes no larger number
    have hle : accumulated n (p.take i) ≤ accumulated n p := by
      conv_rhs => rw [← List.take_append_drop i p, accumulated_append]
      exact le_accumulated _ _
    omega

/-! ### In words of 64 bits -/

/-- The product of two words, unless it overflows. -/
def mulWord? (a b : UInt64) : Option UInt64 :=
  if a.toBitVec.umulOverflow b.toBitVec then none else some (a * b)

/-- The sum of two words, unless it overflows. -/
def addWord? (a b : UInt64) : Option UInt64 :=
  if a.toBitVec.uaddOverflow b.toBitVec then none else some (a + b)

/-- The word with one more digit behind it, unless one of the two operations overflows. -/
def appendDigit? (w : UInt64) (c : Char) : Option UInt64 :=
  (mulWord? w 10).bind fun v => addWord? v (.ofNat (digitValue c))

theorem exists_word {n : Nat} (h : n < 2 ^ 64) : ∃ w : UInt64, w.toNat = n :=
  ⟨.ofNat n, UInt64.toNat_ofNat_of_lt' h⟩

theorem mulWord?_eq_some_iff {a b w : UInt64} :
    mulWord? a b = some w ↔ w.toNat = a.toNat * b.toNat := by
  have hw := w.toNat_lt
  rw [mulWord?]
  split
  · next h =>
    have hover : 2 ^ 64 ≤ a.toNat * b.toNat := by simpa [BitVec.umulOverflow] using h
    simp only [reduceCtorEq, false_iff]
    omega
  · next h =>
    have hfits : a.toNat * b.toNat < 2 ^ 64 := by simpa [BitVec.umulOverflow] using h
    rw [Option.some.injEq, ← UInt64.toNat_inj, UInt64.toNat_mul, Nat.mod_eq_of_lt hfits, eq_comm]

theorem addWord?_eq_some_iff {a b w : UInt64} :
    addWord? a b = some w ↔ w.toNat = a.toNat + b.toNat := by
  have hw := w.toNat_lt
  rw [addWord?]
  split
  · next h =>
    have hover : 2 ^ 64 ≤ a.toNat + b.toNat := by simpa [BitVec.uaddOverflow] using h
    simp only [reduceCtorEq, false_iff]
    omega
  · next h =>
    have hfits : a.toNat + b.toNat < 2 ^ 64 := by simpa [BitVec.uaddOverflow] using h
    rw [Option.some.injEq, ← UInt64.toNat_inj, UInt64.toNat_add, Nat.mod_eq_of_lt hfits, eq_comm]

/-- Neither operation overflows if the number with the digit is a word, and if it is not, one of them
does. -/
theorem appendDigit?_eq_some_iff {w v : UInt64} {c : Char} :
    appendDigit? w c = some v ↔ v.toNat = w.toNat * 10 + digitValue c := by
  have hdigit : (UInt64.ofNat (digitValue c)).toNat = digitValue c := by
    have hlt : digitValue c < UInt64.size := (digitValue_lt c).trans (by decide)
    exact UInt64.toNat_ofNat_of_lt' hlt
  have hten : (10 : UInt64).toNat = 10 := rfl
  simp only [appendDigit?, Option.bind_eq_some_iff, mulWord?_eq_some_iff, addWord?_eq_some_iff,
    hdigit, hten]
  constructor
  · rintro ⟨u, hu, hv⟩
    rw [hv, hu]
  · intro hv
    -- the product is no more than the sum, which is the value of a word
    have hlt : w.toNat * 10 < 2 ^ 64 := by
      have := v.toNat_lt
      omega
    obtain ⟨u, hu⟩ := exists_word hlt
    exact ⟨u, hu, by rw [hu, hv]⟩

/-- Over some digits the words hold what is accumulated, for as long as it is a word, and no longer. -/
theorem foldlM_appendDigit?_eq_some_iff {w v : UInt64} {ds : List Char} :
    ds.foldlM appendDigit? w = some v ↔ v.toNat = accumulated w.toNat ds := by
  induction ds generalizing w with
  | nil => rw [List.foldlM_nil, accumulated_nil, Option.pure_def, Option.some.injEq,
      ← UInt64.toNat_inj, eq_comm]
  | cons c ds ih =>
    rw [List.foldlM_cons, accumulated_cons, Option.bind_eq_bind, Option.bind_eq_some_iff]
    constructor
    · rintro ⟨u, hu, hv⟩
      rw [← appendDigit?_eq_some_iff.1 hu]
      exact ih.1 hv
    · intro hv
      -- no number on the way is larger than the last one, so each of them is a word
      have hle := le_accumulated (w.toNat * 10 + digitValue c) ds
      have hlt : w.toNat * 10 + digitValue c < 2 ^ 64 := by
        have := v.toNat_lt
        omega
      obtain ⟨u, hu⟩ := exists_word hlt
      exact ⟨u, appendDigit?_eq_some_iff.2 hu, ih.2 (by rw [hu, hv])⟩

theorem State.Holds.step_digit_word {s : State} {w : UInt64} (h : s.Holds w.toNat) {c : Char}
    (hc : isDigit c = true) :
    s.step (some c) =
      match appendDigit? w c with
      | some v => .take (.number v.toNat)
      | none => .reject .numberOverflow := by
  rw [h.step_digit hc]
  cases hv : appendDigit? w c with
  | some v =>
    have hvalue := appendDigit?_eq_some_iff.1 hv
    rw [← hvalue, if_pos v.toNat_lt]
  | none =>
    refine if_neg fun hlt => ?_
    obtain ⟨v, hvalue⟩ := exists_word hlt
    rw [appendDigit?_eq_some_iff.2 hvalue] at hv
    cases hv

/-- From a state that holds `n`, below `2 ^ 64`, the machine takes any string of digits and then holds
exactly the number that they make of `n`, if that is below `2 ^ 64`, too. If it is not, there is a first
digit with which it is not; the digits before it are taken, and it is refused. The machine could as well
hold the number in a word of 64 bits: it would check each digit by a multiplication and an addition, of
which neither overflows as long as the number fits. -/
theorem State.digits_accumulate {s : State} {n : Nat} (hs : s.Holds n) (hn : n < 2 ^ 64)
    {ds : List Char} (hne : ds ≠ []) (hd : ∀ c ∈ ds, isDigit c = true) :
    (accumulated n ds < 2 ^ 64 → s.takeAll ds = some (.number (accumulated n ds))) ∧
    (2 ^ 64 ≤ accumulated n ds → ∃ p c rest t, ds = p ++ c :: rest ∧
      IsLeast {i | 2 ^ 64 ≤ accumulated n (ds.take i)} (p.length + 1) ∧
      s.takeAll p = some t ∧ t = (if p = [] then s else .number (accumulated n p)) ∧
      t.step (some c) = .reject .numberOverflow) ∧
    (∀ (t : State) (w : UInt64), t.Holds w.toNat → ∀ c ∈ ds,
      t.step (some c) =
        match appendDigit? w c with
        | some v => .take (.number v.toNat)
        | none => .reject .numberOverflow) ∧
    ∀ w v : UInt64, ds.foldlM appendDigit? w = some v ↔ v.toNat = accumulated w.toNat ds := by
  refine ⟨hs.takeAll_digits hne hd, fun hover => ?_,
    fun t w hw c hc => hw.step_digit_word (hd c hc), fun w v => foldlM_appendDigit?_eq_some_iff⟩
  obtain ⟨p, c, rest, rfl, hp, hc⟩ := exists_overflow hn hover
  obtain ⟨hdp, hdc⟩ := List.forall_mem_append.1 hd
  obtain ⟨hdigit, -⟩ := List.forall_mem_cons.1 hdc
  -- the checks of the machine are about one digit behind what it holds
  have hbig : ¬ accumulated n p * 10 + digitValue c < 2 ^ 64 := by
    rw [accumulated_append, accumulated_cons, accumulated_nil] at hc
    omega
  refine ⟨p, c, rest, if p = [] then s else .number (accumulated n p), rfl, isLeast_overflow hp hc,
    ?_, rfl, ?_⟩
  · split
    · next hnil => rw [hnil, takeAll]
    · next hcons => exact hs.takeAll_digits hcons hdp hp
  · -- it holds the number of the digits before the first that does not fit, if there are any
    have hholds : (if p = [] then s else State.number (accumulated n p)).Holds (accumulated n p) := by
      split
      · next hnil => rwa [hnil, accumulated_nil]
      · exact .number _
    rw [hholds.step_digit hdigit, if_neg hbig]

/-- Leading zeros do not count: behind three of them the largest number is taken. And of the digits 165
behind 184467440737095516 the first is taken, but the second is refused. -/
theorem State.digits_accumulate_at_limit :
    start.takeAll "00018446744073709551615".toList = some (number (2 ^ 64 - 1)) ∧
      (number 184467440737095516).takeAll ['1'] = some (number 1844674407370955161) ∧
      (number 1844674407370955161).step (some '6') = .reject .numberOverflow := by
  have hlimit := (@digits_accumulate start 0 .start (by decide) "00018446744073709551615".toList
    (by decide) (List.all_eq_true.1 (by decide +kernel))).1 (by decide +kernel)
  obtain ⟨p, c, rest, t, hds, hleast, htake, ht, hstep⟩ :=
    (@digits_accumulate _ _ (.number 184467440737095516) (by decide) ['1', '6', '5'] (by decide)
      (List.all_eq_true.1 (by decide))).2.1 (by decide)
  have htwo : p.length + 1 ≤ 2 := hleast.2 (show 2 ^ 64 ≤ accumulated _ ['1', '6'] by decide)
  -- the first digit alone does not overflow, and with the second one it is over
  rcases p with _ | ⟨a, _ | ⟨b, p⟩⟩
  · exact absurd hleast.1 (show ¬ 2 ^ 64 ≤ accumulated _ ['1'] by decide)
  · obtain ⟨rfl, rfl, -⟩ : '1' = a ∧ '6' = c ∧ _ := by simpa using hds
    rw [if_neg (by simp)] at ht
    subst ht
    exact ⟨hlimit, htake, hstep⟩
  · simp at htwo

end ArithLexer
