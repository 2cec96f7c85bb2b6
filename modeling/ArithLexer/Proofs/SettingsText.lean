import ArithLexer.Proofs.JsonText
import ArithLexer.Settings.File
import Mathlib.Data.List.Nodup

/-!
# The text of settings files

What a settings file can look like, whoever reads it. A value is `null`, a string, or a name from a list
in one of two spellings (`TextValue`, `ChoiceValue`). A file is an object with at most one entry for each
member (`ObjectText`), or a list of the values of all members in their order (`ArrayText`), with white
space wherever JSON allows it (`FileText`).

The lemmas prepare for reading from left to right: the first character of a value says of which form it
is, and `Remaining` is what is left of the items of an object or a list when some of them are read.
-/

namespace ArithLexer.SettingsFile

open Json

/-! ### What is chosen -/

/-- What a member chooses from. -/
def Member.Choice : Member → Type
  | .logFormat => Log.Layout
  | .output => TokenFormat
  | .logLevel | .lexerLogLevel | .logFile => String

def chosen (c : Choices) : (m : Member) → Option m.Choice
  | .logLevel => c.logLevel
  | .lexerLogLevel => c.lexerLogLevel
  | .logFormat => c.logFormat
  | .logFile => c.logFile
  | .output => c.output

def put (c : Choices) : (m : Member) → Option m.Choice → Choices
  | .logLevel, x => { c with logLevel := x }
  | .lexerLogLevel, x => { c with lexerLogLevel := x }
  | .logFormat, x => { c with logFormat := x }
  | .logFile, x => { c with logFile := x }
  | .output, x => { c with output := x }

@[simp] theorem chosen_put_self (c : Choices) (m : Member) (x : Option m.Choice) :
    chosen (put c m x) m = x := by
  cases m <;> rfl

theorem chosen_put_of_ne (c : Choices) {m n : Member} (h : n ≠ m) (x : Option m.Choice) :
    chosen (put c m x) n = chosen c n := by
  cases m <;> cases n <;> first | rfl | exact absurd rfl h

theorem eq_of_chosen {c d : Choices} (h : ∀ m, chosen c m = chosen d m) : c = d := by
  cases c
  cases d
  rw [Choices.mk.injEq]
  exact ⟨h .logLevel, h .lexerLogLevel, h .logFormat, h .logFile, h .output⟩

/-- Choices that differ for some members only. -/
def AgreeOutside (ms : List Member) (c d : Choices) : Prop := ∀ m ∉ ms, chosen c m = chosen d m

theorem agreeOutside_nil_iff {c d : Choices} : AgreeOutside [] c d ↔ c = d := by
  constructor
  · intro h
    exact eq_of_chosen fun m => h m List.not_mem_nil
  · rintro rfl m _
    rfl

theorem agreeOutside_empty_iff {c : Choices} {ms : List Member} :
    AgreeOutside ms c {} ↔ ∀ m ∉ ms, chosen c m = none := by
  have hempty : ∀ m, chosen {} m = none := by
    intro m
    cases m <;> rfl
  simp only [AgreeOutside, hempty]

theorem agreeOutside_put_iff {c d : Choices} {m : Member} {ms : List Member} (hm : m ∉ ms)
    {x : Option m.Choice} :
    AgreeOutside ms c (put d m x) ↔ x = chosen c m ∧ AgreeOutside (m :: ms) c d := by
  constructor
  · intro h
    refine ⟨by rw [h m hm, chosen_put_self], ?_⟩
    intro n hn
    rw [List.mem_cons, not_or] at hn
    rw [h n hn.2, chosen_put_of_ne d hn.1]
  · rintro ⟨rfl, h⟩ n hn
    by_cases hne : n = m
    · subst hne
      rw [chosen_put_self]
    · rw [chosen_put_of_ne d hne]
      exact h n (by simp [hne, hn])

/-! ### The form of a file -/

/-- Text of some form, up to white space around it. -/
def Spaced (Form : List Char → Prop) (w : List Char) : Prop :=
  ∃ g v h, IsSpaces g ∧ Form v ∧ IsSpaces h ∧ w = g ++ (v ++ h)

/-- The value of a level or a file: `null`, or a string. -/
inductive TextValue : List Char → Option String → Prop
  | null : TextValue "null".toList none
  | string {w s} : StringText w s → TextValue w (some s)

/-- The value where there are choices: `null`, the name of a choice, or an object with the name as its
only key and `null` as its value. -/
inductive ChoiceValue {α : Type} (choices : List (String × α)) : List Char → Option α → Prop
  | null : ChoiceValue choices "null".toList none
  | name {w name x} : (name, x) ∈ choices → StringText w name → ChoiceValue choices w (some x)
  | object {k v name x} : (name, x) ∈ choices → Spaced (StringText · name) k →
      Spaced (· = "null".toList) v → ChoiceValue choices ('{' :: (k ++ ':' :: (v ++ ['}']))) (some x)

def Member.ValueText : (m : Member) → List Char → Option m.Choice → Prop
  | .logFormat => ChoiceValue layouts
  | .output => ChoiceValue formats
  | .logLevel | .lexerLogLevel | .logFile => TextValue

def ElementText (c : Choices) (m : Member) (w : List Char) : Prop :=
  Spaced (m.ValueText · (chosen c m)) w

/-- The key and the value of a member in an object. -/
def EntryText (c : Choices) (m : Member) (w : List Char) : Prop :=
  ∃ k v, Spaced (StringText · m.key) k ∧ ElementText c m v ∧ w = k ++ ':' :: v

/-- Items with commas between them; where there are none, white space. -/
def Listed (items : List (List Char)) (w : List Char) : Prop :=
  if items = [] then IsSpaces w else w = [','].intercalate items

/-- An object with an entry for each of some members; for the others nothing is chosen. -/
def ObjectText (c : Choices) (w : List Char) : Prop :=
  ∃ ms entries v, ms.Nodup ∧ List.Forall₂ (EntryText c) ms entries ∧
    (∀ m ∉ ms, chosen c m = none) ∧ Listed entries v ∧ w = '{' :: (v ++ ['}'])

def ArrayText (c : Choices) (w : List Char) : Prop :=
  ∃ elements v, List.Forall₂ (ElementText c) Member.all elements ∧ Listed elements v ∧
    w = '[' :: (v ++ [']'])

/-- The text of a settings file that makes some choices. -/
def FileText (c : Choices) : List Char → Prop :=
  Spaced fun w => ObjectText c w ∨ ArrayText c w

/-! ### First characters -/

theorem null_eq : "null".toList = 'n' :: "ull".toList := by decide

/-- The first character says of which form the value is. -/
theorem textValue_cons_iff {c : Char} {w : List Char} {x : Option String} :
    TextValue (c :: w) x ↔ (c = 'n' ∧ w = "ull".toList ∧ x = none) ∨
      (c = '"' ∧ ∃ s, StringText ('"' :: w) s ∧ x = some s) := by
  constructor
  · intro h
    -- the two forms begin with different characters
    generalize hw : c :: w = u at h
    cases h with
    | null =>
      rw [null_eq] at hw
      obtain ⟨rfl, rfl⟩ := List.cons.inj hw
      exact .inl ⟨rfl, rfl, rfl⟩
    | string hs =>
      obtain ⟨v, hv, rfl⟩ := hs
      obtain ⟨rfl, rfl⟩ := List.cons.inj hw
      exact .inr ⟨rfl, _, ⟨v, hv, rfl⟩, rfl⟩
  · intro h
    rcases h with ⟨rfl, rfl, rfl⟩ | ⟨rfl, s, hs, rfl⟩
    · exact null_eq ▸ .null
    · exact .string hs

theorem TextValue.exists_cons (w : List Char) (x : Option String) (h : TextValue w x) :
    ∃ c v, w = c :: v ∧ isSpace c = false := by
  cases h with
  | null => exact ⟨_, _, null_eq, rfl⟩
  | string hs =>
    obtain ⟨v, -, rfl⟩ := hs
    exact ⟨_, _, rfl, rfl⟩

section
variable {α : Type} {choices : List (String × α)}

/-- An object with the name of a choice, behind its opening brace. -/
def ChoiceEntry (choices : List (String × α)) (w : List Char) (x : α) : Prop :=
  ∃ name k v, (name, x) ∈ choices ∧ Spaced (StringText · name) k ∧
    Spaced (· = "null".toList) v ∧ w = k ++ ':' :: (v ++ ['}'])

/-- The first character says of which form the value is. -/
theorem choiceValue_cons_iff {c : Char} {w : List Char} {x : Option α} :
    ChoiceValue choices (c :: w) x ↔ (c = 'n' ∧ w = "ull".toList ∧ x = none) ∨
      (c = '"' ∧ ∃ name y, (name, y) ∈ choices ∧ StringText ('"' :: w) name ∧ x = some y) ∨
      (c = '{' ∧ ∃ y, ChoiceEntry choices w y ∧ some y = x) := by
  constructor
  · intro h
    generalize hw : c :: w = u at h
    cases h with
    | null =>
      rw [null_eq] at hw
      obtain ⟨rfl, rfl⟩ := List.cons.inj hw
      exact .inl ⟨rfl, rfl, rfl⟩
    | name hx hs =>
      obtain ⟨v, hv, rfl⟩ := hs
      obtain ⟨rfl, rfl⟩ := List.cons.inj hw
      exact .inr (.inl ⟨rfl, _, _, hx, ⟨v, hv, rfl⟩, rfl⟩)
    | object hx hk hv =>
      obtain ⟨rfl, rfl⟩ := List.cons.inj hw
      exact .inr (.inr ⟨rfl, _, ⟨_, _, _, hx, hk, hv, rfl⟩, rfl⟩)
  · intro h
    rcases h with ⟨rfl, rfl, rfl⟩ | ⟨rfl, name, y, hy, hs, rfl⟩ |
      ⟨rfl, y, ⟨_, _, _, hy, hk, hv, rfl⟩, rfl⟩
    · exact null_eq ▸ .null
    · exact .name hy hs
    · exact .object hy hk hv

theorem ChoiceValue.exists_cons (w : List Char) (x : Option α) (h : ChoiceValue choices w x) :
    ∃ c v, w = c :: v ∧ isSpace c = false := by
  cases h with
  | null => exact ⟨_, _, null_eq, rfl⟩
  | name _ hs =>
    obtain ⟨v, -, rfl⟩ := hs
    exact ⟨_, _, rfl, rfl⟩
  | object => exact ⟨_, _, rfl, rfl⟩

end

/-- No value begins like the end of a list. -/
theorem Member.ValueText.exists_cons {m : Member} {w : List Char} {x : Option m.Choice}
    (h : m.ValueText w x) : ∃ c v, w = c :: v ∧ isSpace c = false ∧ c ≠ ']' := by
  cases m with
  | logLevel | lexerLogLevel | logFile =>
    obtain ⟨c, v, rfl, hc⟩ := TextValue.exists_cons _ _ h
    refine ⟨c, v, rfl, hc, ?_⟩
    rcases textValue_cons_iff.1 h with ⟨rfl, -⟩ | ⟨rfl, -⟩ <;> decide
  | logFormat | output =>
    obtain ⟨c, v, rfl, hc⟩ := ChoiceValue.exists_cons _ _ h
    refine ⟨c, v, rfl, hc, ?_⟩
    rcases choiceValue_cons_iff.1 h with ⟨rfl, -⟩ | ⟨rfl, -⟩ | ⟨rfl, -⟩ <;> decide

theorem ObjectText.exists_cons {c : Choices} {w : List Char} (h : ObjectText c w) :
    ∃ v, w = '{' :: v := by
  obtain ⟨_, _, _, -, -, -, -, hw⟩ := h
  exact ⟨_, hw⟩

theorem ArrayText.exists_cons {c : Choices} {w : List Char} (h : ArrayText c w) :
    ∃ v, w = '[' :: v := by
  obtain ⟨_, _, -, -, hw⟩ := h
  exact ⟨_, hw⟩

/-! ### Items and commas -/

/-- What may stand in front of an item: white space, and a comma unless the item is the first. -/
def Lead : Bool → List Char → Prop
  | true, g => IsSpaces g
  | false, g => ∃ a b, IsSpaces a ∧ IsSpaces b ∧ g = a ++ ',' :: b

/-- What is left of a list of items: all of it, or what is behind an item. -/
def Remaining : Bool → List (List Char) → List Char → Prop
  | true, items, w => Listed items w
  | false, items, w => ∃ g, IsSpaces g ∧ w = g ++ items.flatMap (',' :: ·)

theorem intercalate_cons (w : List Char) (ws : List (List Char)) :
    [','].intercalate (w :: ws) = w ++ ws.flatMap (',' :: ·) := by
  induction ws generalizing w with
  | nil => simp
  | cons v vs ih =>
    rw [List.intercalate_cons_cons, ih]
    simp

section
variable {isFirst : Bool} {items : List (List Char)} {w : List Char}

theorem remaining_nil_iff : Remaining isFirst [] w ↔ IsSpaces w := by
  cases isFirst with
  | true =>
    show Listed [] w ↔ IsSpaces w
    rw [Listed, if_pos rfl]
  | false => simp [Remaining]

/-- White space behind an item belongs to what is left then. -/
theorem remaining_cons_iff (Form : List Char → Prop) :
    (∃ item, Spaced Form item ∧ Remaining isFirst (item :: items) w) ↔
      ∃ g v u, Lead isFirst g ∧ Form v ∧ Remaining false items u ∧ w = g ++ (v ++ u) := by
  have hcons : ∀ item, item :: items ≠ [] := fun item => List.cons_ne_nil item items
  cases isFirst with
  | true =>
    simp only [Remaining, Listed, if_neg (hcons _), intercalate_cons]
    constructor
    · intro h
      -- the white space `h` goes over from the item to what is left
      obtain ⟨_, ⟨g, v, h, hg, hv, hh, rfl⟩, rfl⟩ := h
      exact ⟨g, v, _, hg, hv, ⟨h, hh, rfl⟩, by simp⟩
    · intro h
      obtain ⟨g, v, _, hg, hv, ⟨h, hh, rfl⟩, rfl⟩ := h
      exact ⟨g ++ (v ++ h), ⟨g, v, h, hg, hv, hh, rfl⟩, by simp⟩
  | false =>
    constructor
    · intro h
      -- the comma stands between the white space of both items
      obtain ⟨_, ⟨g, v, h, hg, hv, hh, rfl⟩, a, ha, rfl⟩ := h
      exact ⟨a ++ ',' :: g, v, _, ⟨a, g, ha, hg, rfl⟩, hv, ⟨h, hh, rfl⟩, by simp⟩
    · intro h
      obtain ⟨_, v, _, ⟨a, g, ha, hg, rfl⟩, hv, ⟨h, hh, rfl⟩, rfl⟩ := h
      exact ⟨g ++ (v ++ h), ⟨g, v, h, hg, hv, hh, rfl⟩, a, ha, by simp⟩

end

/-! ### Entries -/

/-- The key of a member and what it chooses, without white space at either end. -/
def EntryCore (m : Member) (x : Option m.Choice) (w : List Char) : Prop :=
  ∃ k h v, StringText k m.key ∧ IsSpaces h ∧ Indented m.ValueText v x ∧ w = k ++ (h ++ ':' :: v)

theorem entryText_iff {c : Choices} {m : Member} {w : List Char} :
    EntryText c m w ↔ Spaced (EntryCore m (chosen c m)) w := by
  constructor
  · -- the outer white space goes around the entry, and the inner around the colon
    rintro ⟨_, _, ⟨g, k, a, hg, hk, ha, rfl⟩, ⟨b, v, h, hb, hv, hh, rfl⟩, rfl⟩
    exact ⟨g, k ++ (a ++ ':' :: (b ++ v)), h, hg, ⟨k, a, _, hk, ha, ⟨b, v, hb, hv, rfl⟩, rfl⟩, hh,
      by simp⟩
  · rintro ⟨g, _, h, hg, ⟨k, a, _, hk, ha, ⟨b, v, hb, hv, rfl⟩, rfl⟩, hh, rfl⟩
    exact ⟨g ++ (k ++ a), b ++ (v ++ h), ⟨g, k, a, hg, hk, ha, rfl⟩, ⟨b, v, h, hb, hv, hh, rfl⟩,
      by simp⟩

end ArithLexer.SettingsFile
