import ArithLexer.Json.Reader
import Mathlib.Data.List.Forall2
import Mathlib.Data.List.TakeWhile
import Mathlib.Data.Nat.Digits.Defs

/-!
# JSON text

The syntax of JSON as far as settings files need it, beside the readers of it: white space, words and
marks, and strings with all their spellings of a character. A reader and a form of text are tied
together by `Reads`, which says for every text that the reader succeeds exactly where the text begins
with the form, and leaves what is behind it. So what is not of the form is a fault of the reader.

A character may stand for itself, be named by a letter behind a backslash, or be given by its UTF-16
units in hexadecimal digits, one unit or two (`Spells`). The main statement is `reads_string`.
-/

namespace ArithLexer.Json

/-- A reader that succeeds exactly on texts that begin with text of some form. -/
def Reads {α : Type} (read : Reader α) (Form : List Char → α → Prop) : Prop :=
  ∀ cs x rest, read cs = .ok (x, rest) ↔ ∃ w, Form w x ∧ w ++ rest = cs

section
variable {α β : Type}

theorem bind_eq_ok_iff {x : Except Fault α} {f : α → Except Fault β} {b : β} :
    x.bind f = .ok b ↔ ∃ a, x = .ok a ∧ f a = .ok b := by
  cases x <;> simp [Except.bind]

theorem map_eq_ok_iff {x : Except Fault α} {f : α → β} {b : β} :
    x.map f = .ok b ↔ ∃ a, x = .ok a ∧ f a = b := by
  cases x <;> simp [Except.map]

theorem Reads.map {read : Reader α} {Form : List Char → α → Prop} (h : Reads read Form)
    (f : α → β) :
    Reads (fun cs => (read cs).map fun r => (f r.1, r.2)) fun w y => ∃ x, Form w x ∧ f x = y := by
  intro cs y rest
  rw [map_eq_ok_iff]
  constructor
  · intro hread
    obtain ⟨⟨x, tail⟩, hx, hy⟩ := hread
    cases hy
    obtain ⟨w, hw, rfl⟩ := (h cs x _).1 hx
    exact ⟨w, ⟨x, hw, rfl⟩, rfl⟩
  · intro hform
    obtain ⟨w, ⟨x, hw, rfl⟩, htext⟩ := hform
    exact ⟨(x, rest), (h cs x rest).2 ⟨w, hw, htext⟩, rfl⟩

end

/-! ### White space -/

def IsSpaces (g : List Char) : Prop := ∀ c ∈ g, isSpace c = true

/-- Text of some form with white space in front of it. -/
def Indented {α : Type} (Form : List Char → α → Prop) (w : List Char) (x : α) : Prop :=
  ∃ g v, IsSpaces g ∧ Form v x ∧ w = g ++ v

section
variable {g cs rest : List Char} {c : Char}

theorem skipSpace_append (h : IsSpaces g) (cs : List Char) : skipSpace (g ++ cs) = skipSpace cs :=
  List.dropWhile_append_of_pos h

theorem skipSpace_cons (h : isSpace c = false) (cs : List Char) : skipSpace (c :: cs) = c :: cs :=
  List.dropWhile_cons_of_neg (by simp [h])

theorem exists_skipSpace (cs : List Char) :
    ∃ g, IsSpaces g ∧ cs = g ++ skipSpace cs :=
  ⟨cs.takeWhile isSpace, fun _ hc => List.mem_takeWhile_imp hc,
    List.takeWhile_append_dropWhile.symm⟩

theorem skipSpace_eq_nil_iff : skipSpace cs = [] ↔ IsSpaces cs :=
  List.dropWhile_eq_nil_iff

theorem skipSpace_eq_cons_iff :
    skipSpace cs = c :: rest ↔ isSpace c = false ∧ ∃ g, IsSpaces g ∧ g ++ c :: rest = cs := by
  constructor
  · intro h
    obtain ⟨g, hg, hcs⟩ := exists_skipSpace cs
    have hhead : isSpace ((skipSpace cs).head (by simp [h])) = false :=
      List.head_dropWhile_not ..
    simp only [h, List.head_cons] at hhead
    exact ⟨hhead, g, hg, by rw [hcs, h]⟩
  · rintro ⟨hc, g, hg, rfl⟩
    rw [skipSpace_append hg, skipSpace_cons hc]

theorem skipSpace_eq_mark_iff (hc : isSpace c = false) :
    skipSpace cs = c :: rest ↔ ∃ g, IsSpaces g ∧ g ++ c :: rest = cs := by
  rw [skipSpace_eq_cons_iff]
  exact and_iff_right hc

theorem skipSpace_skipSpace (cs : List Char) : skipSpace (skipSpace cs) = skipSpace cs := by
  obtain ⟨g, hg, hcs⟩ := exists_skipSpace cs
  rw [← skipSpace_append hg (skipSpace cs), ← hcs]

/-- Text that does not begin with white space is found by skipping what is in front of it. -/
theorem indented_iff {α : Type} {Form : List Char → α → Prop}
    (hform : ∀ w x, Form w x → ∃ c v, w = c :: v ∧ isSpace c = false) {x : α} :
    (∃ w, Indented Form w x ∧ w ++ rest = cs) ↔
      match skipSpace cs with
      | [] => False
      | c :: tail => ∃ v, Form (c :: v) x ∧ v ++ rest = tail := by
  constructor
  · rintro ⟨w, ⟨g, u, hg, hu, rfl⟩, rfl⟩
    -- the form begins with a character that is not skipped
    obtain ⟨c, v, rfl, hc⟩ := hform u x hu
    rw [List.append_assoc, skipSpace_append hg, List.cons_append, skipSpace_cons hc]
    exact ⟨v, hu, rfl⟩
  · intro h
    split at h
    · cases h
    · next c tail hs =>
      obtain ⟨v, hv, rfl⟩ := h
      obtain ⟨-, g, hg, rfl⟩ := skipSpace_eq_cons_iff.1 hs
      exact ⟨g ++ c :: v, ⟨g, c :: v, hg, hv, rfl⟩, by simp⟩

end

/-! ### Words and marks -/

theorem expect_eq_ok_iff {word cs rest : List Char} :
    expect word cs = .ok rest ↔ word ++ rest = cs := by
  fun_induction expect word cs with
  | case1 cs => simp [eq_comm]
  | case2 => simp
  | case3 w ws cs ih => simp [ih]
  | case4 w ws c cs hc => simp [Ne.symm hc]

theorem reads_word {α : Type} (word : List Char) (a : α) :
    Reads (fun cs => (expect word cs).map fun rest => (a, rest)) fun w x => w = word ∧ x = a := by
  intro cs x rest
  rw [map_eq_ok_iff]
  constructor
  · intro h
    obtain ⟨tail, htail, hx⟩ := h
    cases hx
    exact ⟨word, ⟨rfl, rfl⟩, expect_eq_ok_iff.1 htail⟩
  · intro h
    obtain ⟨w, ⟨rfl, rfl⟩, htext⟩ := h
    exact ⟨rest, expect_eq_ok_iff.2 htext, rfl⟩

theorem expectMark_eq_ok_iff {mark : Char} (hm : isSpace mark = false) {cs rest : List Char} :
    expectMark mark cs = .ok rest ↔ ∃ g, IsSpaces g ∧ g ++ mark :: rest = cs := by
  have hskip : expectMark mark cs = .ok rest ↔ skipSpace cs = mark :: rest := by
    unfold expectMark
    split
    · next h => simp [h]
    · next c tail h =>
      rw [h, List.cons.injEq]
      split
      · next hc => simp [hc]
      · next hc => simp [hc]
  rw [hskip, skipSpace_eq_mark_iff hm]

/-! ### Hexadecimal digits -/

/-- A hexadecimal digit, in either case, and its value. -/
def HexDigit (c : Char) (d : Nat) : Prop := d < 16 ∧ (c = d.digitChar ∨ c = d.digitChar.toUpper)

theorem hexDigit?_eq_some_iff {c : Char} {d : Nat} : Text.hexDigit? c = some d ↔ HexDigit c d := by
  constructor
  · intro h
    have hcode : d < 16 ∧ (c.toNat = d.digitChar.toNat ∨ c.toNat = d.digitChar.toUpper.toNat) := by
      -- small and capital letters follow each other in the code, as digits do
      have hletter : ∀ k < 6, (k + 10).digitChar.toNat = 'a'.toNat + k ∧
          (k + 10).digitChar.toUpper.toNat = 'A'.toNat + k := by decide
      have hdigit : ∀ k < 10, k.digitChar.toNat = '0'.toNat + k := by decide
      unfold Text.hexDigit? at h
      split at h
      · next hc =>
        obtain rfl : c.toNat - 'a'.toNat + 10 = d := by simpa using h
        have hf : 'f'.toNat = 'a'.toNat + 5 := by decide
        have := (hletter (c.toNat - 'a'.toNat) (by omega)).1
        omega
      · split at h
        · next hc =>
          obtain rfl : c.toNat - 'A'.toNat + 10 = d := by simpa using h
          have hf : 'F'.toNat = 'A'.toNat + 5 := by decide
          have := (hletter (c.toNat - 'A'.toNat) (by omega)).2
          omega
        · obtain ⟨hd, hc⟩ := Text.digit?_eq_some_iff.1 h
          have := hdigit d hd
          omega
    simpa only [HexDigit, Char.toNat_inj] using hcode
  · -- there are only sixteen digits, each with one character or two
    have hall : ∀ d < 16, Text.hexDigit? d.digitChar = some d ∧
        Text.hexDigit? d.digitChar.toUpper = some d := by decide
    rintro ⟨hd, rfl | rfl⟩
    · exact (hall d hd).1
    · exact (hall d hd).2

def HexText (w : List Char) (n : Nat) : Prop :=
  w.length = 4 ∧ ∃ digits, List.Forall₂ HexDigit w digits ∧ n = Nat.ofDigits 16 digits.reverse

theorem reads_hex : Reads readHex HexText := by
  intro cs n rest
  constructor
  · intro h
    unfold readHex at h
    split at h
    · cases h
    split at h
    · next a b c d tail _ =>
      split at h
      · next ha hb hc hd =>
        simp only [Except.ok.injEq, Prod.mk.injEq] at h
        obtain ⟨rfl, rfl⟩ := h
        rw [hexDigit?_eq_some_iff] at ha hb hc hd
        refine ⟨[a, b, c, d], ⟨rfl, _, .cons ha (.cons hb (.cons hc (.cons hd .nil))), ?_⟩, rfl⟩
        simp [Nat.ofDigits_cons]
        omega
      · cases h
    · cases h
  · rintro ⟨w, ⟨hw, digits, hdigits, rfl⟩, rfl⟩
    obtain ⟨a, b, c, d, rfl⟩ := List.length_eq_four.1 hw
    cases hdigits with | cons ha hdigits =>
    cases hdigits with | cons hb hdigits =>
    cases hdigits with | cons hc hdigits =>
    cases hdigits with | cons hd hdigits =>
    cases hdigits
    rw [← hexDigit?_eq_some_iff] at ha hb hc hd
    -- each of the four characters has a byte at least
    have hlong : ¬ (String.ofList (a :: b :: c :: d :: rest |>.take 4)).utf8ByteSize < 4 := by
      have := a.utf8Size_pos
      have := b.utf8Size_pos
      have := c.utf8Size_pos
      have := d.utf8Size_pos
      simp
      omega
    show readHex (a :: b :: c :: d :: rest) = _
    simp only [readHex, if_neg hlong, ha, hb, hc, hd]
    simp [Nat.ofDigits_cons]
    omega

theorem HexText.lt {w : List Char} {n : Nat} (h : HexText w n) : n < 0x10000 := by
  obtain ⟨hw, digits, hdigits, rfl⟩ := h
  have hsmall : ∀ d ∈ digits, d < 16 := by
    clear hw
    induction hdigits with
    | nil => simp
    | cons hd _ ih => exact List.forall_mem_cons.2 ⟨hd.1, ih⟩
  -- four digits below 16
  have hlt := Nat.ofDigits_lt_base_pow_length (b := 16) (by decide)
    fun d hd => hsmall d (List.mem_reverse.1 hd)
  rw [List.length_reverse, ← hdigits.length_eq, hw] at hlt
  exact hlt

/-! ### Characters -/

/-- The UTF-16 units of a character. -/
def utf16 (c : Char) : List Nat :=
  if c.toNat < 0x10000 then [c.toNat]
  else [0xD800 + (c.toNat - 0x10000) / 0x400, 0xDC00 + (c.toNat - 0x10000) % 0x400]

/-- The character of two units. -/
def ofPair (high low : Nat) : Char :=
  Char.ofNat (0x10000 + (high - 0xD800) * 0x400 + (low - 0xDC00))

theorem toNat_ofNat {n : Nat} (h : n.isValidChar) : (Char.ofNat n).toNat = n := by
  rw [Char.ofNat, dif_pos h]
  rfl

theorem utf16_ofNat {n : Nat} (hn : n < 0x10000) (hh : isHighSurrogate n = false)
    (hl : isLowSurrogate n = false) : utf16 (Char.ofNat n) = [n] := by
  -- below U+10000, only the surrogates are no characters
  have hvalid : n.isValidChar := by
    simp [isHighSurrogate] at hh
    simp [isLowSurrogate] at hl
    simp [Nat.isValidChar]
    omega
  rw [utf16, toNat_ofNat hvalid, if_pos hn]

theorem utf16_ofPair {high low : Nat} (hh : isHighSurrogate high = true)
    (hl : isLowSurrogate low = true) : utf16 (ofPair high low) = [high, low] := by
  simp [isHighSurrogate] at hh
  simp [isLowSurrogate] at hl
  have hvalid : (0x10000 + (high - 0xD800) * 0x400 + (low - 0xDC00)).isValidChar := by
    simp [Nat.isValidChar]
    omega
  rw [utf16, ofPair, toNat_ofNat hvalid, if_neg (by omega), List.cons.injEq, List.cons.injEq]
  exact ⟨by omega, by omega, rfl⟩

theorem exists_utf16_eq_cons (c : Char) : ∃ n ns, utf16 c = n :: ns := by
  unfold utf16
  split <;> exact ⟨_, _, rfl⟩

/-- One unit is the character itself, and no surrogate; of two, both are surrogates. -/
theorem utf16_cases (c : Char) :
    (utf16 c = [c.toNat] ∧ isHighSurrogate c.toNat = false ∧ isLowSurrogate c.toNat = false) ∨
      ∃ high low, utf16 c = [high, low] ∧ isHighSurrogate high = true ∧ isLowSurrogate low = true ∧
        ofPair high low = c := by
  have hvalid : c.toNat.isValidChar := c.valid
  simp [Nat.isValidChar] at hvalid
  rcases Nat.lt_or_ge c.toNat 0x10000 with hlt | hge
  · left
    refine ⟨if_pos hlt, ?_, ?_⟩
    · simp [isHighSurrogate]
      omega
    · simp [isLowSurrogate]
      omega
  · right
    refine ⟨_, _, if_neg (Nat.not_lt.2 hge), ?_, ?_, ?_⟩
    · simp [isHighSurrogate]
      omega
    · simp [isLowSurrogate]
      omega
    · -- what is taken off for the two units is put back for the character
      have hcode : 0x10000 + (0xD800 + (c.toNat - 0x10000) / 0x400 - 0xD800) * 0x400 +
          (0xDC00 + (c.toNat - 0x10000) % 0x400 - 0xDC00) = c.toNat := by omega
      rw [ofPair, hcode, Char.ofNat_toNat]

/-- A UTF-16 unit as an escape. -/
def UnitText (w : List Char) (n : Nat) : Prop := ∃ v, w = '\\' :: 'u' :: v ∧ HexText v n

/-- The characters that a letter behind a backslash names. -/
def letters : List (Char × Char) :=
  [('"', '"'), ('\\', '\\'), ('/', '/'), ('b', '\x08'), ('f', '\x0c'), ('n', '\n'), ('r', '\r'),
    ('t', '\t')]

/-- `Spells w c` says that the text `w` stands for the character `c` in a string. -/
inductive Spells : List Char → Char → Prop
  | plain {c} : c ≠ '"' → c ≠ '\\' → 0x20 ≤ c.toNat → Spells [c] c
  | letter {a c} : (a, c) ∈ letters → Spells ['\\', a] c
  | units {ws c} : List.Forall₂ UnitText ws (utf16 c) → Spells ws.flatten c

theorem escaped?_eq_some_iff {a c : Char} : escaped? a = some c ↔ (a, c) ∈ letters := by
  constructor
  · intro h
    -- both sides list the letters, so they are compared one by one
    unfold escaped? at h
    split at h <;> cases h <;> decide
  · intro h
    simp only [letters, List.mem_cons, Prod.mk.injEq, List.not_mem_nil, or_false] at h
    rcases h with ⟨rfl, rfl⟩ | ⟨rfl, rfl⟩ | ⟨rfl, rfl⟩ | ⟨rfl, rfl⟩ | ⟨rfl, rfl⟩ | ⟨rfl, rfl⟩ |
      ⟨rfl, rfl⟩ | ⟨rfl, rfl⟩ <;> rfl

theorem Spells.plain_or_escape {w : List Char} {c : Char} (h : Spells w c) :
    (w = [c] ∧ c ≠ '"' ∧ c ≠ '\\' ∧ 0x20 ≤ c.toNat) ∨ ∃ v, w = '\\' :: v := by
  cases h with
  | plain hquote hescape hcontrol => exact .inl ⟨rfl, hquote, hescape, hcontrol⟩
  | letter => exact .inr ⟨_, rfl⟩
  | units hws =>
    right
    obtain ⟨n, ns, hn⟩ := exists_utf16_eq_cons c
    rw [hn, List.forall₂_cons_right_iff] at hws
    obtain ⟨_, _, ⟨v, rfl, -⟩, -, rfl⟩ := hws
    exact ⟨_, rfl⟩

/-- An escape is a letter of the list, or the units behind the letter `u`. -/
theorem spells_backslash_iff {w : List Char} {c : Char} :
    Spells ('\\' :: w) c ↔ (∃ a, w = [a] ∧ (a, c) ∈ letters) ∨
      ∃ v, w = 'u' :: v ∧ ∃ ws, List.Forall₂ UnitText ws (utf16 c) ∧
        ws.flatten = '\\' :: 'u' :: v := by
  constructor
  · intro h
    generalize hw : '\\' :: w = u at h
    cases h with
    | plain hquote hescape hcontrol =>
      -- a backslash does not stand for itself
      rw [List.cons.injEq] at hw
      exact absurd hw.1.symm hescape
    | letter ha =>
      obtain rfl : w = [_] := (List.cons.inj hw).2
      exact .inl ⟨_, rfl, ha⟩
    | units hws =>
      right
      obtain ⟨n, ns, hn⟩ := exists_utf16_eq_cons c
      have hfirst := hws
      rw [hn, List.forall₂_cons_right_iff] at hfirst
      obtain ⟨_, ws, ⟨v, rfl, hv⟩, hns, rfl⟩ := hfirst
      obtain rfl : w = _ := (List.cons.inj hw).2
      exact ⟨_, rfl, _, hws, rfl⟩
  · rintro (⟨a, rfl, ha⟩ | ⟨v, rfl, ws, hws, hflat⟩)
    · exact .letter ha
    · exact hflat ▸ .units hws

theorem reads_secondUnit (high : Nat) :
    Reads (readSecondUnit high) fun w c =>
      ∃ low, UnitText w low ∧ isLowSurrogate low = true ∧ c = ofPair high low := by
  intro cs c rest
  constructor
  · intro h
    unfold readSecondUnit at h
    split at h
    · cases h
    · next mid hmid =>
      rw [expect_eq_ok_iff] at hmid
      split at h
      · cases h
      · next low tail hread =>
        obtain ⟨v, hv, rfl⟩ := (reads_hex _ _ _).1 hread
        split at h
        · next hlow =>
          simp only [Except.ok.injEq, Prod.mk.injEq] at h
          obtain ⟨rfl, rfl⟩ := h
          exact ⟨'\\' :: 'u' :: v, ⟨low, ⟨v, rfl, hv⟩, hlow, by rw [ofPair]⟩, hmid⟩
        · cases h
  · rintro ⟨_, ⟨low, ⟨v, rfl, hv⟩, hlow, hc⟩, rfl⟩
    have hmid : expect ['\\', 'u'] ('\\' :: 'u' :: v ++ rest) = .ok (v ++ rest) :=
      expect_eq_ok_iff.2 rfl
    have hread : readHex (v ++ rest) = .ok (low, rest) := (reads_hex _ _ _).2 ⟨v, hv, rfl⟩
    simp only [readSecondUnit, hmid, hread, if_pos hlow, hc, ofPair]

/-- Behind a backslash and `u` are the units of one character. -/
theorem reads_units :
    Reads readUnits fun w c =>
      ∃ ws, List.Forall₂ UnitText ws (utf16 c) ∧ ws.flatten = '\\' :: 'u' :: w := by
  intro cs c rest
  constructor
  · intro h
    unfold readUnits at h
    split at h
    · cases h
    · next unit tail hread =>
      obtain ⟨v, hv, rfl⟩ := (reads_hex _ _ _).1 hread
      split at h
      · cases h
      · next hlow =>
        rw [Bool.not_eq_true] at hlow
        split at h
        · next hhigh =>
          obtain ⟨w, ⟨low, hw, hl, hc⟩, rfl⟩ := (reads_secondUnit unit _ _ _).1 h
          refine ⟨v ++ w, ⟨['\\' :: 'u' :: v, w], ?_, by simp⟩, by simp⟩
          rw [hc, utf16_ofPair hhigh hl]
          exact .cons ⟨v, rfl, hv⟩ (.cons hw .nil)
        · next hhigh =>
          rw [Bool.not_eq_true] at hhigh
          cases h
          refine ⟨v, ⟨['\\' :: 'u' :: v], ?_, by simp⟩, rfl⟩
          rw [utf16_ofNat hv.lt hhigh hlow]
          exact .cons ⟨v, rfl, hv⟩ .nil
  · rintro ⟨w, ⟨ws, hws, hflat⟩, rfl⟩
    rcases utf16_cases c with ⟨hunits, hhigh, hlow⟩ | ⟨high, low, hunits, hhigh, hlow, hc⟩
    · rw [hunits] at hws
      cases hws with | cons hv hnil =>
      cases hnil
      obtain ⟨v, rfl, hv⟩ := hv
      obtain rfl : v = w := by simpa using hflat
      have hread : readHex (v ++ rest) = .ok (c.toNat, rest) := (reads_hex _ _ _).2 ⟨v, hv, rfl⟩
      simp [readUnits, hread, hlow, hhigh]
    · rw [hunits] at hws
      cases hws with | cons hv hsecond =>
      cases hsecond with | @cons u _ _ _ hu hnil =>
      cases hnil
      obtain ⟨v, rfl, hv⟩ := hv
      obtain rfl : v ++ u = w := by simpa using hflat
      have hread : readHex (v ++ u ++ rest) = .ok (high, u ++ rest) :=
        (reads_hex _ _ _).2 ⟨v, hv, by simp⟩
      have hsecond : readSecondUnit high (u ++ rest) = .ok (c, rest) :=
        (reads_secondUnit high _ _ _).2 ⟨u, ⟨low, hu, hlow, hc.symm⟩, rfl⟩
      -- a high surrogate is no low one, so it is not refused as the first unit
      have hnot : isLowSurrogate high = false := by
        simp [isHighSurrogate] at hhigh
        simp [isLowSurrogate]
        omega
      simp only [readUnits, hread, hnot, hhigh, if_true, hsecond]
      rfl

theorem reads_escape : Reads readEscape fun w c => Spells ('\\' :: w) c := by
  intro cs c rest
  simp only [spells_backslash_iff]
  cases cs with
  | nil => simp [readEscape]
  | cons a tail =>
    rw [readEscape]
    split
    · next ha =>
      subst ha
      rw [reads_units]
      constructor
      · rintro ⟨w, hw, rfl⟩
        exact ⟨'u' :: w, .inr ⟨w, rfl, hw⟩, rfl⟩
      · rintro ⟨_, ⟨a, rfl, ha⟩ | ⟨v, rfl, hv⟩, htext⟩
        · obtain rfl : a = 'u' := (List.cons.inj htext).1
          -- the letter `u` names no character
          exact absurd ha (by simp [letters])
        · exact ⟨v, hv, (List.cons.inj htext).2⟩
    · next ha =>
      constructor
      · intro h
        split at h
        · next b hb =>
          cases h
          exact ⟨[a], .inl ⟨a, rfl, escaped?_eq_some_iff.1 hb⟩, rfl⟩
        · cases h
      · rintro ⟨_, ⟨b, rfl, hb⟩ | ⟨v, rfl, hv⟩, htext⟩
        · obtain ⟨rfl, rfl⟩ := List.cons.inj htext
          rw [escaped?_eq_some_iff.2 hb]
          rfl
        · exact absurd (List.cons.inj htext).1.symm ha

/-! ### Strings -/

/-- A text that stands for some characters, one after the other. -/
inductive SpellsAll : List Char → List Char → Prop
  | nil : SpellsAll [] []
  | cons {v w c cs} : Spells v c → SpellsAll w cs → SpellsAll (v ++ w) (c :: cs)

/-- A string in its quotation marks. -/
def StringText (w : List Char) (s : String) : Prop :=
  ∃ v, SpellsAll v s.toList ∧ w = '"' :: (v ++ ['"'])

theorem readChars_of_escape {got cs rest : List Char} {a : Char}
    (h : readEscape cs = .ok (a, rest)) :
    readChars got ('\\' :: cs) = readChars (a :: got) rest := by
  rw [readChars, if_neg (by decide), if_pos rfl]
  split
  · next hr =>
    rw [h] at hr
    cases hr
    rfl
  · next hr =>
    rw [h] at hr
    cases hr

theorem exists_spellsAll_of_readChars {got cs rest : List Char} {s : String}
    (h : readChars got cs = .ok (s, rest)) :
    ∃ v chars, SpellsAll v chars ∧ s = String.ofList (got.reverse ++ chars) ∧
      v ++ '"' :: rest = cs := by
  fun_induction readChars got cs with
  | case1 => cases h
  | case2 got cs =>
    cases h
    exact ⟨[], [], .nil, by simp, rfl⟩
  | case3 got tail a cs hread hquote ih =>
    obtain ⟨u, hu, rfl⟩ := (reads_escape _ _ _).1 hread
    obtain ⟨v, chars, hv, rfl, rfl⟩ := ih h
    exact ⟨'\\' :: u ++ v, a :: chars, .cons hu hv, by simp, by simp⟩
  | case4 => cases h
  | case5 => cases h
  | case6 got c cs hquote hescape hcontrol ih =>
    obtain ⟨v, chars, hv, rfl, rfl⟩ := ih h
    exact ⟨[c] ++ v, c :: chars, .cons (.plain hquote hescape (Nat.not_lt.1 hcontrol)) hv, by simp,
      by simp⟩

theorem readChars_of_spellsAll {v chars : List Char} (h : SpellsAll v chars) (got rest : List Char) :
    readChars got (v ++ '"' :: rest) = .ok (String.ofList (got.reverse ++ chars), rest) := by
  induction h generalizing got with
  | nil =>
    rw [List.nil_append, readChars, if_pos rfl, List.append_nil]
  | @cons u w c cs hu hw ih =>
    -- the characters are gathered in reverse
    have hgot : got.reverse ++ c :: cs = (c :: got).reverse ++ cs := by simp
    rw [hgot, ← ih, List.append_assoc]
    rcases hu.plain_or_escape with ⟨rfl, hquote, hescape, hcontrol⟩ | ⟨u, rfl⟩
    · rw [List.singleton_append, readChars, if_neg hquote, if_neg hescape,
        if_neg (Nat.not_lt.2 hcontrol)]
    · exact readChars_of_escape ((reads_escape _ _ _).2 ⟨u, hu, rfl⟩)

/-- Behind the opening quotation mark, every spelling of a string is read. -/
theorem reads_string : Reads readString fun w s => StringText ('"' :: w) s := by
  intro cs s rest
  constructor
  · intro h
    obtain ⟨v, chars, hv, rfl, rfl⟩ := exists_spellsAll_of_readChars h
    exact ⟨v ++ ['"'], ⟨v, by simpa using hv, rfl⟩, by simp⟩
  · rintro ⟨w, ⟨v, hv, hw⟩, rfl⟩
    obtain rfl : w = v ++ ['"'] := (List.cons.inj hw).2
    have hread := readChars_of_spellsAll hv [] rest
    simpa [readString] using hread

end ArithLexer.Json
