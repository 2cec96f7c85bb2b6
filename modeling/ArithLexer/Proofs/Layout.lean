import ArithLexer.Proofs.Pending
import ArithLexer.Proofs.Tokenize

/-!
# Layouts

A list of tokens can be written in many ways: each token as any lexeme of it, with blanks in front,
between and behind, of which at least one has to separate two numbers or two operators. `Layout ts cs`
says that `cs` is such a text for `ts`. The main statement, `tokenize_eq_ok_iff_layout`, is that a
text has the tokens `ts` exactly if it is one of these texts.
-/

namespace ArithLexer

open Text (isBlank)

/-- A gap is made of blanks. It may be empty. -/
def IsGap (w : List Char) : Prop := ∀ c ∈ w, isBlank c = true

/-- Two numbers, or two operators. -/
inductive Token.SameKind : Token → Token → Prop
  | numbers (m n : Nat) : SameKind (.number m) (.number n)
  | operators (s t : String) : SameKind (.operator s) (.operator t)

/-- A layout without a gap in front: each token as a lexeme of it, and behind it a gap, which must not
be empty if the next token is of the same kind. -/
inductive LayoutCore : List Token → List Char → Prop
  | nil : LayoutCore [] []
  | cons {t : Token} {ts : List Token} {x w cs : List Char} : Lexeme x t → IsGap w →
      (w = [] → ∀ u ∈ ts.head?, ¬t.SameKind u) → LayoutCore ts cs →
      LayoutCore (t :: ts) (x ++ (w ++ cs))

/-- `Layout ts cs` says that `cs` is the tokens `ts` in order, with gaps in front, between and
behind. -/
def Layout (ts : List Token) (cs : List Char) : Prop :=
  ∃ w body, IsGap w ∧ cs = w ++ body ∧ LayoutCore ts body

/-! ### Lexemes next to each other -/

theorem Lexeme.exists_cons {x : List Char} {t : Token} (h : Lexeme x t) :
    ∃ c rest, x = c :: rest ∧ isBlank c = false ∧ refusal? [] c = none := by
  obtain ⟨c, rest, rfl⟩ := List.exists_cons_of_ne_nil h.ne_nil
  refine ⟨c, rest, rfl, ?_⟩
  cases h with
  | number _ hd _ =>
    have hc := hd c (by simp)
    exact ⟨isBlank_eq_false_of_isDigit hc, refusal?_nil_digit hc⟩
  | operator _ ho =>
    have hc := ho c (by simp)
    exact ⟨(classes_of_isOperatorChar hc).1, refusal?_operator hc []⟩

/-- Two lexemes can stand side by side exactly if their tokens are of different kinds. -/
theorem Lexeme.apart_iff {x y : List Char} {t u : Token} (hx : Lexeme x t) (hy : Lexeme y u)
    (w : List Char) : Apart x (y ++ w) ↔ ¬t.SameKind u := by
  obtain ⟨c, rest, rfl, -, -⟩ := hy.exists_cons
  have hl := List.getLast?_eq_some_getLast hx.ne_nil
  constructor
  · intro h hk
    have hj := h _ hl c rfl
    -- two tokens of a kind: the characters at the seam would go on
    cases hk with
    | numbers =>
      cases hx with
      | number hne hdx _ =>
        cases hy with
        | number _ hdy _ => simp [joins, hdx _ (List.getLast_mem hne), hdy c (by simp)] at hj
    | operators =>
      cases hx with
      | operator hne hox =>
        cases hy with
        | operator _ hoy => simp [joins, hox _ (List.getLast_mem hne), hoy c (by simp)] at hj
  · intro h
    cases hx with
    | number _ hdx _ =>
      cases hy with
      | number => exact absurd (.numbers _ _) h
      | operator _ hoy => exact Apart.of_digits hdx (classes_of_isOperatorChar (hoy c (by simp))).2 _
    | operator _ hox =>
      cases hy with
      | number _ hdy _ =>
        exact Apart.of_operators hox (isOperatorChar_eq_false_of_isDigit (hdy c (by simp))) _
      | operator => exact absurd (.operators _ _) h

/-! ### Every layout is read back -/

theorem reading_gap_append {w : List Char} (hw : IsGap w) (cs : List Char) :
    reading (w ++ cs) = ((reading cs).1, (reading cs).2.map fun x => (w ++ x.1, x.2)) := by
  induction w with
  | nil => simp
  | cons c w ih =>
    rw [List.cons_append, reading_blank_cons (hw c (by simp)),
      ih fun a ha => hw a (List.mem_cons_of_mem c ha), Option.map_map]
    rfl

theorem LayoutCore.reading_eq {ts : List Token} {cs : List Char} (h : LayoutCore ts cs) :
    reading cs = (ts, none) := by
  induction h with
  | nil => exact reading_nil
  | @cons t ts x w cs hx hw hsep hcs ih =>
    have hr : reading (w ++ cs) = (ts, none) := by rw [reading_gap_append hw, ih]; rfl
    -- what follows the lexeme is a blank, the end, or a lexeme of another kind
    have hap : Apart x (w ++ cs) ∧ ∀ c ∈ (w ++ cs).head?, refusal? [] c = none := by
      match w, hw with
      | c :: w, hw =>
        have hc := hw c (by simp)
        exact ⟨Apart.of_blank_right x hc _, by simp [refusal?_blank hc]⟩
      | [], _ =>
        cases hcs with
        | nil => exact ⟨Apart.nil_right x, by simp⟩
        | @cons u us y v ds hy _ _ _ =>
          refine ⟨(hx.apart_iff hy _).2 (hsep rfl u rfl), ?_⟩
          obtain ⟨c, rest, rfl, -, hc⟩ := hy.exists_cons
          simpa using hc
    rw [reading_lexeme_append hx hap.1 hap.2, hr]
    rfl

/-! ### Every text that is read has a layout -/

theorem numeralValue_le_of_firstRefused {x : List Char} (hd : ∀ c ∈ x, isDigit c = true)
    (h : firstRefused x = none) : numeralValue x ≤ maxNumber := by
  induction x using List.reverseRecOn with
  | nil => exact Nat.zero_le _
  | append_singleton x c ih =>
    have hx : ∀ a ∈ x, isDigit a = true := fun a ha => hd a (by simp [ha])
    have hf := firstRefused_of_append h
    have hle := ih hx hf
    rw [firstRefused_concat hf, Option.map_eq_none_iff, refusal?_digit (hd c (by simp)),
      lastDigits_of_digits hx] at h
    -- the last digit would be refused, as the number before it still fits
    by_contra hgt
    rw [if_pos ⟨hle, by omega⟩] at h
    cases h

/-- A text without refused characters that begins with a character of a token begins with a lexeme,
and so does what follows the lexeme, unless it is empty or begins with a blank. -/
theorem exists_lexeme_append {c : Char} {cs : List Char} (h : firstRefused (c :: cs) = none)
    (hc : isBlank c = false) :
    ∃ x t w, c :: cs = x ++ w ∧ Lexeme x t ∧ Apart x w ∧ ∀ d ∈ w.head?, refusal? [] d = none := by
  -- what comes behind the lexeme is judged as at the head of a text, since nothing goes on there
  suffices hs : ∃ x t w, c :: cs = x ++ w ∧ Lexeme x t ∧ Apart x w by
    obtain ⟨x, t, w, he, hx, hap⟩ := hs
    refine ⟨x, t, w, he, hx, hap, ?_⟩
    intro d hd
    obtain ⟨w, rfl⟩ := List.head?_eq_some_iff.1 hd
    have hxd : firstRefused (x ++ [d]) = none := by
      rw [he, List.append_cons] at h
      exact firstRefused_of_append h
    rw [firstRefused_concat hx.firstRefused_eq_none, Option.map_eq_none_iff] at hxd
    rw [← refusal?_append (p := x) (hap.prefix_right (q := [d]) rfl (by simp)), List.append_nil]
    exact hxd
  have hfirst : refusal? [] c = none := by
    have hnil : firstRefused [] = none := rfl
    have hone : firstRefused ([] ++ [c]) = none := firstRefused_of_append (w := cs) h
    rwa [firstRefused_concat hnil, Option.map_eq_none_iff] at hone
  -- a maximal run from the head of the text on
  have hspan : ∀ p : Char → Bool, p c = true →
      (c :: cs).takeWhile p ≠ [] ∧ (∀ a ∈ (c :: cs).takeWhile p, p a = true) ∧
        ∀ d ∈ ((c :: cs).dropWhile p).head?, p d = false := by
    intro p hp
    refine ⟨by simp [hp], fun a ha => List.mem_takeWhile_imp ha, ?_⟩
    intro d hd
    have := List.head?_dropWhile_not p (c :: cs)
    rw [hd] at this
    exact this
  rcases class_cases c with hb | hd | ho | ⟨hb, hd, ho⟩
  · rw [hb] at hc
    cases hc
  · obtain ⟨hne, hall, hhead⟩ := hspan isDigit hd
    have hsplit := List.takeWhile_append_dropWhile (p := isDigit) (l := c :: cs)
    -- the digits are not refused, so their number fits
    have hf : firstRefused ((c :: cs).takeWhile isDigit) = none :=
      firstRefused_of_append (w := (c :: cs).dropWhile isDigit) (by rw [hsplit, h])
    refine ⟨_, _, _, hsplit.symm,
      .number hne hall (numeralValue_le_of_firstRefused hall hf), ?_⟩
    cases hw : (c :: cs).dropWhile isDigit with
    | nil => exact Apart.nil_right _
    | cons d w => exact Apart.of_digits hall (hhead d (by rw [hw]; rfl)) w
  · obtain ⟨hne, hall, hhead⟩ := hspan isOperatorChar ho
    refine ⟨_, _, _, List.takeWhile_append_dropWhile.symm, .operator hne hall, ?_⟩
    cases hw : (c :: cs).dropWhile isOperatorChar with
    | nil => exact Apart.nil_right _
    | cons d w => exact Apart.of_operators hall (hhead d (by rw [hw]; rfl)) w
  · rw [refusal?_other hb hd ho] at hfirst
    cases hfirst

theorem Layout.blank_cons {ts : List Token} {cs : List Char} {c : Char} (h : Layout ts cs)
    (hc : isBlank c = true) : Layout ts (c :: cs) := by
  obtain ⟨w, body, hw, rfl, hb⟩ := h
  refine ⟨c :: w, body, ?_, rfl, hb⟩
  intro a ha
  rcases List.mem_cons.1 ha with rfl | ha
  · exact hc
  · exact hw a ha

theorem layout_of_reading : (cs : List Char) → {ts : List Token} → reading cs = (ts, none) →
    Layout ts cs
  | [], ts, h => by
    rw [reading_nil] at h
    cases h
    exact ⟨[], [], by simp [IsGap], rfl, .nil⟩
  | c :: cs, ts, h => by
    have hf : firstRefused (c :: cs) = none := by rw [← reading_snd, h]
    cases hc : isBlank c with
    | true =>
      rw [reading_blank_cons hc] at h
      have hr : reading cs = (ts, none) := by
        rw [Prod.ext_iff] at h ⊢
        exact ⟨h.1, Option.map_eq_none_iff.1 h.2⟩
      exact (layout_of_reading cs hr).blank_cons hc
    | false =>
      -- the first lexeme, which leaves less of the text
      obtain ⟨x, t, w, he, hx, hap, hw⟩ := exists_lexeme_append hf hc
      obtain ⟨us, hus⟩ : ∃ us, (reading w).1 = us := ⟨_, rfl⟩
      rw [he, reading_lexeme_append hx hap hw, hus] at h
      obtain ⟨rfl, hn⟩ := Prod.ext_iff.1 h
      have hr : reading w = (us, none) := Prod.ext_iff.2 ⟨hus, Option.map_eq_none_iff.1 hn⟩
      have hlt : w.length < (c :: cs).length := by
        have := List.length_pos_iff.2 hx.ne_nil
        rw [he, List.length_append]
        omega
      obtain ⟨g, body, hg, hwe, hb⟩ := layout_of_reading w hr
      refine ⟨[], c :: cs, by simp [IsGap], rfl, ?_⟩
      rw [he, hwe]
      refine .cons hx hg ?_ hb
      -- lexemes of one kind side by side would have been one run
      rintro rfl u hu
      cases hb with
      | nil => simp at hu
      | @cons u' us y v ds hy hv hsep htail =>
        obtain rfl : u' = u := by simpa using hu
        rw [List.nil_append] at hwe
        exact (hx.apart_iff hy _).1 (hwe ▸ hap)
termination_by cs => cs.length
decreasing_by
  · exact hlt
  · simp

theorem layout_iff_reading {cs : List Char} {ts : List Token} :
    Layout ts cs ↔ reading cs = (ts, none) := by
  constructor
  · rintro ⟨w, body, hw, rfl, hb⟩
    rw [reading_gap_append hw, hb.reading_eq]
    rfl
  · exact layout_of_reading cs

/-- The texts with the tokens `ts` are the layouts of `ts`. -/
theorem tokenize_eq_ok_iff_layout (text : String) (ts : List Token) :
    tokenize text = .ok ts ↔ Layout ts text.toList := by
  rw [layout_iff_reading]
  -- either side holds only if no character is refused
  cases h : firstRefused text.toList with
  | none => rw [tokenize_of_none h, reading_of_none h, Prod.ext_iff]; simp
  | some x =>
    obtain ⟨p, reason⟩ := x
    have hs : (reading text.toList).2 = some (p, reason) := by rw [reading_snd, h]
    rw [tokenize_of_some h, Prod.ext_iff, hs]
    simp

end ArithLexer
