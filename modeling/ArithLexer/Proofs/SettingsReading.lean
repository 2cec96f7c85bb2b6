import ArithLexer.Proofs.SettingsText

/-!
# Reading settings files

Each reader of a settings file has one lemma that says which texts it reads and what it finds in them.
Those of the loops, over the members of an object and the values of a list, are by induction on the
members that are left (`readMembers_iff`, `readElements_iff`).

The main statement, `decode_eq_ok_iff`, says that reading accepts exactly the texts that `FileText`
describes, and finds the choices that they make: a key or a string may be spelled in every way that JSON
has, members may come in any order and may be absent, and everything else is a fault.
-/

namespace ArithLexer.SettingsFile

open Json

/-! ### Values -/

theorem reads_text (wanted : String) : Reads (readText wanted) (Indented TextValue) := by
  intro cs x rest
  rw [indented_iff TextValue.exists_cons, readText]
  cases skipSpace cs with
  | nil => simp
  | cons c tail =>
    simp only [textValue_cons_iff]
    split
    · next hnull =>
      refine (reads_word _ none tail x rest).trans ?_
      simp [hnull]
    · next hnull =>
      split
      · next hquote =>
        refine (reads_string.map some tail x rest).trans ?_
        simp [hquote, eq_comm]
      · next hquote => simp [hnull, hquote]

theorem choose_eq_ok_iff {α : Type} {choices : List (String × α)}
    (h : (choices.map Prod.fst).Nodup) {name : String} {x : α} :
    choose choices name = .ok x ↔ (name, x) ∈ choices := by
  unfold choose
  constructor
  · intro hx
    split at hx
    · next hfind =>
      cases hx
      have hname := List.find?_some hfind
      simp only [decide_eq_true_eq] at hname
      exact hname ▸ List.mem_of_find?_eq_some hfind
    · cases hx
  · intro hx
    split
    · next n y hfind =>
      have hname := List.find?_some hfind
      simp only [decide_eq_true_eq] at hname
      -- no two choices have the same name, so the first one found is the one
      have := List.inj_on_of_nodup_map h (List.mem_of_find?_eq_some hfind) hx hname
      cases this
      rfl
    · next hfind => simpa using List.find?_eq_none.1 hfind _ hx

theorem readNull_eq_ok_iff {cs rest : List Char} :
    readNull cs = .ok rest ↔ ∃ g, IsSpaces g ∧ g ++ ("null".toList ++ rest) = cs := by
  have hskip : readNull cs = .ok rest ↔ skipSpace cs = 'n' :: ("ull".toList ++ rest) := by
    unfold readNull
    split
    · next hs => simp [hs]
    · next c tail hs =>
      rw [hs, List.cons.injEq]
      split
      · next hc =>
        rw [expect_eq_ok_iff, eq_comm]
        simp [hc]
      · next hc => simp [hc]
  rw [hskip, skipSpace_eq_mark_iff rfl, null_eq]
  rfl

section
variable {α : Type} {choices : List (String × α)}

theorem reads_choiceObject (h : (choices.map Prod.fst).Nodup) :
    Reads (readChoiceObject choices) (ChoiceEntry choices) := by
  have hquote : isSpace '"' = false := rfl
  have hcolon : isSpace ':' = false := rfl
  have hbrace : isSpace '}' = false := rfl
  intro cs x rest
  simp only [readChoiceObject, bind, bind_eq_ok_iff, expectMark_eq_ok_iff hquote,
    expectMark_eq_ok_iff hcolon, expectMark_eq_ok_iff hbrace, choose_eq_ok_iff h,
    readNull_eq_ok_iff]
  constructor
  · intro hread
    -- the key, its colon, `null` and the closing brace, each behind white space
    obtain ⟨_, ⟨g, hg, rfl⟩, ⟨name, _⟩, hname, y, hy, _, ⟨a, ha, rfl⟩, _, ⟨b, hb, rfl⟩, _,
      ⟨d, hd, rfl⟩, hx⟩ := hread
    cases hx
    obtain ⟨w, hw, rfl⟩ := (reads_string _ _ _).1 hname
    refine ⟨_, ⟨name, g ++ ('"' :: w ++ a), b ++ ("null".toList ++ d), hy,
      ⟨g, _, a, hg, hw, ha, rfl⟩, ⟨b, _, d, hb, rfl, hd, rfl⟩, rfl⟩, ?_⟩
    simp
  · intro hform
    obtain ⟨_, ⟨name, _, _, hy, ⟨g, _, a, hg, hw, ha, rfl⟩, ⟨b, _, d, hb, rfl, hd, rfl⟩, rfl⟩,
      rfl⟩ := hform
    obtain ⟨u, hu, rfl⟩ := hw
    have hname :
        readString (u ++ ['"'] ++ (a ++ ':' :: (b ++ ("null".toList ++ (d ++ '}' :: rest))))) =
          .ok (name, _) :=
      (reads_string _ _ _).2 ⟨_, ⟨u, hu, rfl⟩, rfl⟩
    exact ⟨_, ⟨g, hg, by simp⟩, _, hname, x, hy, _, ⟨a, ha, rfl⟩, _, ⟨b, hb, rfl⟩, _,
      ⟨d, hd, rfl⟩, rfl⟩

theorem reads_choice (h : (choices.map Prod.fst).Nodup) :
    Reads (readChoice choices) (Indented (ChoiceValue choices)) := by
  intro cs x rest
  rw [indented_iff ChoiceValue.exists_cons, readChoice]
  cases skipSpace cs with
  | nil => simp
  | cons c tail =>
    simp only [choiceValue_cons_iff]
    split
    · next hnull =>
      refine (reads_word _ none tail x rest).trans ?_
      simp [hnull]
    · next hnull =>
      split
      · next hquote =>
        simp only [bind, bind_eq_ok_iff, choose_eq_ok_iff h]
        constructor
        · intro hread
          obtain ⟨⟨name, _⟩, hname, y, hy, hx⟩ := hread
          cases hx
          obtain ⟨w, hw, rfl⟩ := (reads_string _ _ _).1 hname
          exact ⟨w, .inr (.inl ⟨hquote, name, y, hy, hw, rfl⟩), rfl⟩
        · intro hform
          obtain ⟨w, hw, rfl⟩ := hform
          simp only [hquote, Char.reduceEq, false_and, true_and, false_or, or_false] at hw
          obtain ⟨name, y, hy, hw, rfl⟩ := hw
          exact ⟨(name, rest), (reads_string _ _ _).2 ⟨w, hw, rfl⟩, y, hy, rfl⟩
      · next hquote =>
        split
        · next hbrace =>
          refine ((reads_choiceObject h).map some tail x rest).trans ?_
          simp [hbrace]
        · next hbrace => simp [hnull, hquote, hbrace]

end

theorem nodup_layouts : (layouts.map Prod.fst).Nodup := by decide

theorem nodup_formats : (formats.map Prod.fst).Nodup := by decide

theorem reads_value (m : Member) (s : Choices) :
    Reads (readValue m s) fun w t => ∃ x, Indented m.ValueText w x ∧ put s m x = t :=
  match m with
  | .logLevel => (reads_text "a string").map (put s .logLevel)
  | .lexerLogLevel => (reads_text "a string").map (put s .lexerLogLevel)
  | .logFormat => (reads_choice nodup_layouts).map (put s .logFormat)
  | .logFile => (reads_text "path string").map (put s .logFile)
  | .output => (reads_choice nodup_formats).map (put s .output)

theorem readValue_skipSpace (m : Member) (s : Choices) (cs : List Char) :
    readValue m s (skipSpace cs) = readValue m s cs := by
  cases m <;> simp only [readValue, readText, readChoice, skipSpace_skipSpace]

/-- Where a value can be read there is one, and no closing bracket. -/
theorem exists_skipSpace_of_readValue {m : Member} {s t : Choices} {cs rest : List Char}
    (h : readValue m s cs = .ok (t, rest)) : ∃ c tail, skipSpace cs = c :: tail ∧ c ≠ ']' := by
  obtain ⟨_, ⟨x, ⟨g, w, hg, hw, rfl⟩, -⟩, rfl⟩ := (reads_value m s _ _ _).1 h
  obtain ⟨c, v, rfl, hc, hne⟩ := hw.exists_cons
  refine ⟨c, v ++ rest, ?_, hne⟩
  rw [List.append_assoc, skipSpace_append hg, List.cons_append, skipSpace_cons hc]

/-! ### Objects -/

theorem ofKey?_eq_some_iff {key : String} {m : Member} : Member.ofKey? key = some m ↔ m.key = key := by
  constructor
  · intro h
    simpa using List.find?_some h
  · intro h
    subst h
    cases m <;> rfl

theorem reads_key (missing : List Member) :
    Reads (readKey missing) fun w m => StringText ('"' :: w) m.1.key := by
  intro cs m rest
  simp only [readKey, bind, bind_eq_ok_iff]
  constructor
  · intro h
    obtain ⟨⟨key, tail⟩, hkey, hm⟩ := h
    obtain ⟨w, hw, rfl⟩ := (reads_string _ _ _).1 hkey
    -- the key has to be that of a member, and the member still has to be missing
    split at hm
    · cases hm
    · next n hn =>
      split at hm
      · cases hm
        exact ⟨w, (ofKey?_eq_some_iff.1 hn).symm ▸ hw, rfl⟩
      · cases hm
  · intro h
    obtain ⟨w, hw, rfl⟩ := h
    obtain ⟨m, hm⟩ := m
    refine ⟨(m.key, rest), (reads_string _ _ _).2 ⟨w, hw, rfl⟩, ?_⟩
    simp only [ofKey?_eq_some_iff.2 rfl, dif_pos hm]
    rfl

theorem readMore_eq_false_iff {isFirst : Bool} {cs rest : List Char} :
    readMore isFirst cs = .ok (false, rest) ↔ ∃ g, IsSpaces g ∧ g ++ '}' :: rest = cs := by
  have hskip : readMore isFirst cs = .ok (false, rest) ↔ skipSpace cs = '}' :: rest := by
    unfold readMore
    split
    · next hs => simp [hs]
    · next c tail hs =>
      rw [hs, List.cons.injEq]
      split
      · next hc => simp [hc]
      · next hc =>
        -- what is found is a key or a fault
        constructor
        · intro h
          split at h
          · split at h <;> cases h
          · split at h
            · obtain ⟨_, -, hx⟩ := map_eq_ok_iff.1 h
              cases hx
            · cases h
        · intro h
          exact absurd h.1 hc
  rw [hskip, skipSpace_eq_mark_iff rfl]

theorem readMore_eq_true_iff {isFirst : Bool} {cs rest : List Char} :
    readMore isFirst cs = .ok (true, rest) ↔ ∃ g, Lead isFirst g ∧ g ++ '"' :: rest = cs := by
  have hquote : isSpace '"' = false := rfl
  have hcomma : isSpace ',' = false := rfl
  cases isFirst with
  | true =>
    have hskip : readMore true cs = .ok (true, rest) ↔ skipSpace cs = '"' :: rest := by
      unfold readMore
      split
      · next hs => simp [hs]
      · next c tail hs =>
        rw [hs, List.cons.injEq]
        split
        · next hc => simp [hc]
        · next hc =>
          rw [if_pos rfl]
          split
          · next hq => simp [hq]
          · next hq => simp [hq]
    rw [hskip, skipSpace_eq_mark_iff rfl]
    rfl
  | false =>
    -- a comma, and behind it the quotation mark of a key
    have hskip : readMore false cs = .ok (true, rest) ↔
        ∃ tail, skipSpace cs = ',' :: tail ∧ expectMark '"' tail = .ok rest := by
      unfold readMore
      split
      · next hs => simp [hs]
      · next c tail hs =>
        simp only [hs, List.cons.injEq]
        split
        · next hc => simp [hc]
        · next hc =>
          split
          · next hq => cases hq
          · split
            · next hq => simp [hq, map_eq_ok_iff]
            · next hq => simp [hq]
    simp only [hskip, skipSpace_eq_mark_iff hcomma, expectMark_eq_ok_iff hquote]
    constructor
    · intro h
      obtain ⟨_, ⟨a, ha, rfl⟩, b, hb, rfl⟩ := h
      exact ⟨a ++ ',' :: b, ⟨a, b, ha, hb, rfl⟩, by simp⟩
    · intro h
      obtain ⟨_, ⟨a, b, ha, hb, rfl⟩, rfl⟩ := h
      exact ⟨_, ⟨a, ha, by simp⟩, b, hb, rfl⟩

variable {missing : List Member} {s c : Choices} {cs rest : List Char}

/-- Either the object ends, or a member is read that is still missing, and then the others. -/
theorem readMembers_eq_ok_iff {isFirst : Bool} :
    readMembers missing isFirst s cs = .ok (c, rest) ↔
      (s = c ∧ ∃ g, IsSpaces g ∧ g ++ '}' :: rest = cs) ∨
      ∃ m ∈ missing, ∃ x g w tail, Lead isFirst g ∧ EntryCore m x w ∧ g ++ (w ++ tail) = cs ∧
        readMembers (missing.erase m) false (put s m x) tail = .ok (c, rest) := by
  have hcolon : isSpace ':' = false := rfl
  constructor
  · intro h
    rw [readMembers] at h
    split at h
    · cases h
    · next hmore =>
      cases h
      exact .inl ⟨rfl, readMore_eq_false_iff.1 hmore⟩
    · next hmore =>
      -- a member follows: its key, the colon and its value, each of which can fail
      obtain ⟨g, hg, rfl⟩ := readMore_eq_true_iff.1 hmore
      split at h
      · cases h
      · next m hm _ hkey =>
        obtain ⟨k, hk, rfl⟩ := (reads_key missing _ _ _).1 hkey
        split at h
        · cases h
        · next hmark =>
          obtain ⟨a, ha, rfl⟩ := (expectMark_eq_ok_iff hcolon).1 hmark
          split at h
          · cases h
          · next hvalue =>
            obtain ⟨v, ⟨x, hv, rfl⟩, rfl⟩ := (reads_value m s _ _ _).1 hvalue
            exact .inr ⟨m, hm, x, g, _, _, hg, ⟨_, a, v, hk, ha, hv, rfl⟩, by simp, h⟩
  · intro h
    rcases h with ⟨rfl, hclose⟩ |
      ⟨m, hm, x, g, _, tail, hg, ⟨_, a, v, ⟨k, hk, rfl⟩, ha, hv, rfl⟩, rfl, h⟩
    · rw [readMembers]
      simp only [readMore_eq_false_iff.2 hclose]
    · have hmore : readMore isFirst (g ++ ('"' :: (k ++ ['"']) ++ (a ++ ':' :: v) ++ tail)) =
          .ok (true, k ++ ['"'] ++ (a ++ ':' :: (v ++ tail))) :=
        readMore_eq_true_iff.2 ⟨g, hg, by simp⟩
      have hkey : readKey missing (k ++ ['"'] ++ (a ++ ':' :: (v ++ tail))) =
          .ok (⟨m, hm⟩, a ++ ':' :: (v ++ tail)) :=
        (reads_key missing _ _ _).2 ⟨_, ⟨k, hk, rfl⟩, rfl⟩
      have hmark : expectMark ':' (a ++ ':' :: (v ++ tail)) = .ok (v ++ tail) :=
        (expectMark_eq_ok_iff hcolon).2 ⟨a, ha, rfl⟩
      have hvalue : readValue m s (v ++ tail) = .ok (put s m x, tail) :=
        (reads_value m s _ _ _).2 ⟨v, ⟨x, hv, rfl⟩, rfl⟩
      rw [readMembers]
      simp only [hmore, hkey, hmark, hvalue, h]

/-- Where members are left, entries for some of them are read, each for one that is still missing. -/
theorem readMembers_iff {missing : List Member} {isFirst : Bool} {s c : Choices}
    {cs rest : List Char} (hmissing : missing.Nodup) :
    readMembers missing isFirst s cs = .ok (c, rest) ↔
      ∃ ms entries v, ms.Nodup ∧ ms ⊆ missing ∧ List.Forall₂ (EntryText c) ms entries ∧
        AgreeOutside ms c s ∧ Remaining isFirst entries v ∧ v ++ '}' :: rest = cs := by
  rw [readMembers_eq_ok_iff]
  constructor
  · intro h
    rcases h with ⟨rfl, g, hg, rfl⟩ | ⟨m, hm, x, g, w, tail, hg, hw, rfl, h⟩
    · exact ⟨[], [], g, List.nodup_nil, List.nil_subset _, .nil, agreeOutside_nil_iff.2 rfl,
        remaining_nil_iff.2 hg, rfl⟩
    · obtain ⟨ms, entries, u, hms, hsub, hentries, hagree, hu, rfl⟩ :=
        (readMembers_iff (hmissing.erase m)).1 h
      -- the member is not read again, as it is no longer missing
      have hnot : m ∉ ms := fun hmem => hmissing.not_mem_erase (hsub hmem)
      obtain ⟨rfl, hothers⟩ := (agreeOutside_put_iff hnot).1 hagree
      obtain ⟨entry, hentry, hv⟩ := (remaining_cons_iff _).2 ⟨g, w, u, hg, hw, hu, rfl⟩
      have hall : m :: ms ⊆ missing :=
        List.cons_subset.2 ⟨hm, fun n hn => List.mem_of_mem_erase (hsub hn)⟩
      exact ⟨m :: ms, entry :: entries, _, List.nodup_cons.2 ⟨hnot, hms⟩, hall,
        .cons (entryText_iff.2 hentry) hentries, hothers, hv, by simp⟩
  · intro h
    obtain ⟨ms, entries, v, hms, hsub, hentries, hagree, hv, rfl⟩ := h
    cases hentries with
    | nil => exact .inl ⟨(agreeOutside_nil_iff.1 hagree).symm, v, remaining_nil_iff.1 hv, rfl⟩
    | @cons m entry ms entries hentry hentries =>
      obtain ⟨g, w, u, hg, hw, hu, rfl⟩ := (remaining_cons_iff _).1 ⟨entry, entryText_iff.1 hentry, hv⟩
      obtain ⟨hnot, hms⟩ := List.nodup_cons.1 hms
      obtain ⟨hm, hsub⟩ := List.cons_subset.1 hsub
      -- none of the others is the member that has been read
      have hleft : ms ⊆ missing.erase m := by
        intro n hn
        have hne : n ≠ m := fun h => hnot (h ▸ hn)
        exact hmissing.mem_erase_iff.2 ⟨hne, hsub hn⟩
      have hothers : readMembers (missing.erase m) false (put s m (chosen c m)) (u ++ '}' :: rest) =
          .ok (c, rest) :=
        (readMembers_iff (hmissing.erase m)).2 ⟨ms, entries, u, hms, hleft, hentries,
          (agreeOutside_put_iff hnot).2 ⟨rfl, hagree⟩, hu, rfl⟩
      exact .inr ⟨m, hm, chosen c m, g, w, _, hg, hw, by simp, hothers⟩
termination_by missing.length
decreasing_by
  all_goals
    rw [List.length_erase_of_mem hm]
    exact Nat.sub_lt (List.length_pos_of_mem hm) Nat.one_pos

/-- Behind the opening brace an object is read. -/
theorem reads_object :
    Reads (readMembers Member.all true {}) fun w c => ObjectText c ('{' :: w) := by
  have hnodup : Member.all.Nodup := by decide
  have hall : ∀ m, m ∈ Member.all := by
    intro m
    cases m <;> decide
  intro cs c rest
  rw [readMembers_iff hnodup]
  constructor
  · intro h
    obtain ⟨ms, entries, v, hms, -, hentries, hagree, hv, rfl⟩ := h
    exact ⟨v ++ ['}'], ⟨ms, entries, v, hms, hentries, agreeOutside_empty_iff.1 hagree, hv, rfl⟩,
      by simp⟩
  · intro h
    obtain ⟨w, ⟨ms, entries, v, hms, hentries, hopen, hv, hw⟩, rfl⟩ := h
    obtain rfl := (List.cons.inj hw).2
    exact ⟨ms, entries, v, hms, fun m _ => hall m, hentries, agreeOutside_empty_iff.2 hopen, hv,
      by simp⟩

/-! ### Lists -/

theorem readValue_eq_ok_iff {m : Member} {t : Choices} :
    readValue m s cs = .ok (t, rest) ↔
      ∃ x g w, IsSpaces g ∧ m.ValueText w x ∧ g ++ (w ++ rest) = cs ∧ t = put s m x := by
  rw [reads_value]
  constructor
  · intro h
    obtain ⟨_, ⟨x, ⟨g, w, hg, hw, rfl⟩, rfl⟩, rfl⟩ := h
    exact ⟨x, g, w, hg, hw, by simp, rfl⟩
  · intro h
    obtain ⟨x, g, w, hg, hw, rfl, rfl⟩ := h
    exact ⟨g ++ w, ⟨x, ⟨g, w, hg, hw, rfl⟩, rfl⟩, by simp⟩

theorem readElements_first_iff {m : Member} {ms : List Member} :
    readElements 0 s (m :: ms) cs = .ok (c, rest) ↔
      ∃ t tail, readValue m s cs = .ok (t, tail) ∧ readElements 1 t ms tail = .ok (c, rest) := by
  rw [readElements]
  constructor
  · intro h
    split at h
    · cases h
    · next hs =>
      rw [if_pos rfl, ← hs, readValue_skipSpace] at h
      split at h
      · cases h
      · simp only [bind, bind_eq_ok_iff] at h
        obtain ⟨⟨t, tail⟩, hv, h⟩ := h
        exact ⟨t, tail, hv, h⟩
  · intro h
    obtain ⟨t, tail, hv, h⟩ := h
    -- a list that ends at once has no values, though a member is left
    obtain ⟨a, u, hs, ha⟩ := exists_skipSpace_of_readValue hv
    rw [hs]
    simp only [if_neg ha, if_pos]
    rw [← hs, readValue_skipSpace, hv]
    exact h

theorem readElements_later_iff {count : Nat} {m : Member} {ms : List Member} :
    readElements (count + 1) s (m :: ms) cs = .ok (c, rest) ↔
      ∃ behind t tail, skipSpace cs = ',' :: behind ∧ readValue m s behind = .ok (t, tail) ∧
        readElements (count + 2) t ms tail = .ok (c, rest) := by
  rw [readElements]
  constructor
  · intro h
    split at h
    · cases h
    · next hs =>
      split at h
      · cases h
      · rw [if_neg (Nat.succ_ne_zero count)] at h
        split at h
        · next hcomma =>
          split at h
          · cases h
          · next hbehind =>
            rw [← hbehind, readValue_skipSpace] at h
            split at h
            · cases h
            · simp only [bind, bind_eq_ok_iff] at h
              obtain ⟨⟨t, tail⟩, hv, h⟩ := h
              exact ⟨_, t, tail, hcomma ▸ hs, hv, h⟩
        · cases h
  · intro h
    obtain ⟨behind, t, tail, hs, hv, h⟩ := h
    -- a closing bracket behind a comma is a fault of its own, but it begins no value
    obtain ⟨a, u, hbehind, ha⟩ := exists_skipSpace_of_readValue hv
    have hcomma : ',' ≠ ']' := by decide
    rw [hs]
    simp only [if_neg hcomma, if_neg (Nat.succ_ne_zero count), if_pos, hbehind, if_neg ha]
    rw [← hbehind, readValue_skipSpace, hv]
    exact h

theorem readElements_cons_iff {count : Nat} {m : Member} {ms : List Member} :
    readElements count s (m :: ms) cs = .ok (c, rest) ↔
      ∃ x g w tail, Lead (count = 0) g ∧ m.ValueText w x ∧ g ++ (w ++ tail) = cs ∧
        readElements (count + 1) (put s m x) ms tail = .ok (c, rest) := by
  cases count with
  | zero =>
    rw [readElements_first_iff]
    simp only [readValue_eq_ok_iff]
    constructor
    · intro h
      obtain ⟨_, tail, ⟨x, g, w, hg, hw, htext, rfl⟩, h⟩ := h
      exact ⟨x, g, w, tail, hg, hw, htext, h⟩
    · intro h
      obtain ⟨x, g, w, tail, hg, hw, htext, h⟩ := h
      exact ⟨_, tail, ⟨x, g, w, hg, hw, htext, rfl⟩, h⟩
  | succ count =>
    rw [readElements_later_iff]
    have hcomma : isSpace ',' = false := rfl
    simp only [readValue_eq_ok_iff, skipSpace_eq_mark_iff hcomma]
    constructor
    · intro h
      obtain ⟨_, _, tail, ⟨a, ha, rfl⟩, ⟨x, b, w, hb, hw, rfl, rfl⟩, h⟩ := h
      exact ⟨x, a ++ ',' :: b, w, tail, ⟨a, b, ha, hb, rfl⟩, hw, by simp, h⟩
    · intro h
      obtain ⟨x, _, w, tail, ⟨a, b, ha, hb, rfl⟩, hw, rfl, h⟩ := h
      exact ⟨_, _, tail, ⟨a, ha, by simp⟩, ⟨x, b, w, hb, hw, rfl, rfl⟩, h⟩

/-- Where values are left, exactly those of the members that are left are read. -/
theorem readElements_iff {count : Nat} {ms : List Member} {s c : Choices} {cs rest : List Char}
    (hms : ms.Nodup) :
    readElements count s ms cs = .ok (c, rest) ↔
      ∃ elements v, List.Forall₂ (ElementText c) ms elements ∧ AgreeOutside ms c s ∧
        Remaining (count = 0) elements v ∧ v ++ ']' :: rest = cs := by
  have hbracket : isSpace ']' = false := rfl
  induction ms generalizing count s cs with
  | nil =>
    rw [readElements, map_eq_ok_iff]
    simp only [expectMark_eq_ok_iff hbracket, List.forall₂_nil_left_iff]
    constructor
    · intro h
      obtain ⟨_, ⟨g, hg, rfl⟩, hx⟩ := h
      cases hx
      exact ⟨[], g, rfl, agreeOutside_nil_iff.2 rfl, remaining_nil_iff.2 hg, rfl⟩
    · intro h
      obtain ⟨_, v, rfl, hagree, hv, rfl⟩ := h
      exact ⟨rest, ⟨v, remaining_nil_iff.1 hv, rfl⟩, by rw [agreeOutside_nil_iff.1 hagree]⟩
  | cons m ms ih =>
    obtain ⟨hnot, hms⟩ := List.nodup_cons.1 hms
    rw [readElements_cons_iff]
    simp only [ih hms, agreeOutside_put_iff hnot]
    constructor
    · intro h
      obtain ⟨x, g, w, _, hg, hw, rfl, elements, u, helements, ⟨rfl, hagree⟩, hu, rfl⟩ := h
      obtain ⟨element, helement, hv⟩ :=
        (remaining_cons_iff (m.ValueText · (chosen c m))).2 ⟨g, w, u, hg, hw, hu, rfl⟩
      exact ⟨element :: elements, _, .cons helement helements, hagree, hv, by simp⟩
    · intro h
      obtain ⟨_, v, hall, hagree, hv, rfl⟩ := h
      cases hall with | @cons _ element _ elements helement helements =>
      obtain ⟨g, w, u, hg, hw, hu, rfl⟩ := (remaining_cons_iff _).1 ⟨element, helement, hv⟩
      exact ⟨chosen c m, g, w, _, hg, hw, by simp, elements, u, helements, ⟨rfl, hagree⟩, hu, rfl⟩

/-- Behind the opening bracket a list is read. -/
theorem reads_array :
    Reads (readElements 0 {} Member.all) fun w c => ArrayText c ('[' :: w) := by
  have hnodup : Member.all.Nodup := by decide
  -- a list has a value for each member, so nothing is left of the defaults
  have hnone : ∀ c, AgreeOutside Member.all c {} := by
    intro c m hm
    cases m <;> exact absurd (by decide) hm
  intro cs c rest
  rw [readElements_iff hnodup]
  constructor
  · intro h
    obtain ⟨elements, v, helements, -, hv, rfl⟩ := h
    exact ⟨v ++ [']'], ⟨elements, v, helements, hv, rfl⟩, by simp⟩
  · intro h
    obtain ⟨w, ⟨elements, v, helements, hv, hw⟩, rfl⟩ := h
    obtain rfl := (List.cons.inj hw).2
    exact ⟨elements, v, helements, hnone c, hv, by simp⟩

/-! ### Files -/

/-- Up to the end of its value a settings file is read. -/
theorem reads_file : Reads read (Indented fun w c => ObjectText c w ∨ ArrayText c w) := by
  have hform : ∀ w c, ObjectText c w ∨ ArrayText c w → ∃ a v, w = a :: v ∧ isSpace a = false := by
    intro w c h
    rcases h with h | h
    · obtain ⟨v, rfl⟩ := h.exists_cons
      exact ⟨_, v, rfl, rfl⟩
    · obtain ⟨v, rfl⟩ := h.exists_cons
      exact ⟨_, v, rfl, rfl⟩
  intro cs c rest
  rw [indented_iff hform, read]
  cases skipSpace cs with
  | nil => simp
  | cons a tail =>
    have hobject : ∀ v, ObjectText c (a :: v) → a = '{' := by
      intro v h
      obtain ⟨u, hu⟩ := h.exists_cons
      exact (List.cons.inj hu).1
    have harray : ∀ v, ArrayText c (a :: v) → a = '[' := by
      intro v h
      obtain ⟨u, hu⟩ := h.exists_cons
      exact (List.cons.inj hu).1
    show (if a = '[' then readElements 0 {} Member.all tail
      else if a = '{' then readMembers Member.all true {} tail
      else .error (unwanted "struct FileConfig" (a :: tail))) = .ok (c, rest) ↔
        ∃ v, (ObjectText c (a :: v) ∨ ArrayText c (a :: v)) ∧ v ++ rest = tail
    split
    · next hbracket =>
      refine (reads_array tail c rest).trans (exists_congr fun v => and_congr_left fun _ => ?_)
      have hnot : ¬ ObjectText c (a :: v) := fun h => absurd (hobject v h) (by rw [hbracket]; decide)
      rw [← hbracket, or_iff_right hnot]
    · next hbracket =>
      split
      · next hbrace =>
        refine (reads_object tail c rest).trans (exists_congr fun v => and_congr_left fun _ => ?_)
        rw [← hbrace, or_iff_left (mt (harray v) hbracket)]
      · next hbrace =>
        constructor
        · intro h
          cases h
        · intro h
          obtain ⟨v, h | h, -⟩ := h
          · exact absurd (hobject v h) hbrace
          · exact absurd (harray v h) hbracket

/-- Reading accepts exactly the texts of settings files, and finds the choices they make. On every other
text there is a fault. -/
theorem decode_eq_ok_iff (text : String) :
    (∀ c, decode text = .ok c ↔ FileText c text.toList) ∧
      ((∃ fault, decode text = .error fault) ↔ ∀ c, ¬ FileText c text.toList) := by
  have hok : ∀ c, decode text = .ok c ↔ FileText c text.toList := by
    intro c
    unfold decode
    constructor
    · intro h
      split at h
      · cases h
      · next hread =>
        obtain ⟨_, ⟨g, w, hg, hw, rfl⟩, htext⟩ := (reads_file _ _ _).1 hread
        split at h
        · next hspace =>
          cases h
          exact ⟨g, w, _, hg, hw, skipSpace_eq_nil_iff.1 hspace, by rw [← htext, List.append_assoc]⟩
        · cases h
    · intro h
      obtain ⟨g, w, b, hg, hw, hb, htext⟩ := h
      have hread : read text.toList = .ok (c, b) :=
        (reads_file _ _ _).2 ⟨g ++ w, ⟨g, w, hg, hw, rfl⟩, by rw [htext, List.append_assoc]⟩
      simp only [hread, if_pos (skipSpace_eq_nil_iff.2 hb)]
  refine ⟨hok, ?_⟩
  -- decoding gives choices or a fault, and never both
  simp only [← hok]
  cases decode text with
  | ok c => simp
  | error fault => simp

/-- Keys and names may be spelled with escapes, and a character by two units. -/
example :
    decode "\x7b\"log_\\u0066ile\":\"\\uD83D\\uDE00\",\"output\":\x7b\"js\\u006fn\":null\x7d\x7d" =
      .ok { logFile := some "😀", output := some .json } := by
  cbv

end ArithLexer.SettingsFile
