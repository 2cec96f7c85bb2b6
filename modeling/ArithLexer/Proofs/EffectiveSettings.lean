import ArithLexer.Host.Directory
import ArithLexer.Run
import Mathlib.Data.List.ReduceOption

/-!
# The settings in effect

A run is set up in two passes: the choices of the settings file are put in place of the defaults, and
then those of the flags in place of what there is. `taking` is what one pass does, and `Effective` is
what both come to, without the order in which it came about.

Names of levels are compared in lower case. Some characters above ASCII come down into ASCII, but no
name of a level can be made with them (`Text.lowercase_eq_iff`), so the names are those of
`Level.named?`, which lets nothing but the letters of ASCII have a case.

The main statement, `run_settings`, is about whole runs, on any host.
-/

namespace ArithLexer

/-! ### Words in lower case -/

namespace Text

theorem lower_of_ascii {c : Char} (h : c.toNat < 0x80) : lower c = [c.toLower] := by
  have hall : ∀ n : Fin 0x80, lower (Char.ofNat n) = [(Char.ofNat n).toLower] := by decide +kernel
  simpa using hall ⟨c.toNat, h⟩

theorem toLower_of_not_ascii {c : Char} (h : 0x80 ≤ c.toNat) : c.toLower = c := by
  have hnot : ¬ (c.val ≥ 'A'.val ∧ c.val ≤ 'Z'.val) := by
    rintro ⟨-, hle⟩
    have hle : c.toNat ≤ 90 := hle
    omega
  exact dif_neg hnot

/-- The capitals above ASCII stay above it, but for the sign for kelvin. -/
theorem capitals_shift : ∀ r ∈ capitals,
    r.last < 0x80 ∨ 0x80 ≤ r.first + r.shift ∨ (r.first = 0x212A ∧ r.last = 0x212A) := by
  decide +kernel

/-- What comes down into ASCII from above is a k, or has a dot with it. -/
theorem lower_of_not_ascii {c : Char} (h : 0x80 ≤ c.toNat) :
    (∃ a ∈ lower c, a.toNat = 0 ∨ 0x80 ≤ a.toNat) ∨ lower c = ['k'] := by
  by_cases hkelvin : c = '\u212A'
  · subst hkelvin
    exact .inr (by decide +kernel)
  rw [lower]
  -- the dotted capital, whose lower case has a dot of its own
  split
  · exact .inl ⟨'\u0307', by simp, .inr (by decide)⟩
  · cases hr : capitals.find? (·.contains c) with
    | none => exact .inl ⟨c, List.mem_singleton_self c, .inr h⟩
    | some r =>
      have hc : r.first ≤ c.toNat ∧ c.toNat ≤ r.last := by
        have hcontains := List.find?_some hr
        simp only [CaseRange.contains, Bool.and_eq_true, decide_eq_true_eq] at hcontains
        exact hcontains.1
      rcases capitals_shift r (List.mem_of_find?_eq_some hr) with hlast | hshift | ⟨hfirst, hlast⟩
      · omega
      · refine .inl ⟨r.lower c, List.mem_singleton_self _, ?_⟩
        by_cases hvalid : (c.toNat + r.shift).toNat.isValidChar
        · right
          rw [CaseRange.lower, Char.ofNat, dif_pos hvalid]
          show 0x80 ≤ (c.toNat + r.shift).toNat
          omega
        · -- the table has no such capital, but that need not be known here
          left
          rw [CaseRange.lower, Char.ofNat, dif_neg hvalid]
          rfl
      · have hc : c.toNat = 0x212A := by omega
        refine absurd ?_ hkelvin
        rw [← Char.ofNat_toNat c, hc]

/-- A word of small letters of ASCII without a k is the lower case of what it is the lower case of if
only the letters of ASCII have a case. -/
theorem flatMap_lower_eq_iff {cs word : List Char}
    (hword : ∀ a ∈ word, a.isLower = true ∧ a ≠ 'k') :
    cs.flatMap lower = word ↔ cs.map Char.toLower = word := by
  induction cs generalizing word with
  | nil => rfl
  | cons c cs ih =>
    rw [List.flatMap_cons, List.map_cons]
    rcases Nat.lt_or_ge c.toNat 0x80 with hc | hc
    · -- of an ASCII character both sides make the same, so the rest decides
      rw [lower_of_ascii hc, List.singleton_append]
      cases word with
      | nil => simp
      | cons a word =>
        rw [List.cons.injEq, List.cons.injEq, ih fun b hb => hword b (List.mem_cons_of_mem a hb)]
    · -- such a character leaves a trace on either side that the word does not have
      have hsmall : ∀ a ∈ word, a.toNat ≠ 0 ∧ a.toNat < 0x80 := by
        intro a ha
        have hlower : 97 ≤ a.toNat ∧ a.toNat ≤ 122 := by
          have hletter := Bool.and_eq_true_iff.1 (hword a ha).1
          exact ⟨of_decide_eq_true hletter.1, of_decide_eq_true hletter.2⟩
        omega
      constructor
      · rintro rfl
        rcases lower_of_not_ascii hc with ⟨a, ha, hbad⟩ | hk
        · have := hsmall a (List.mem_append_left _ ha)
          omega
        · exact absurd rfl (hword 'k' (by simp [hk])).2
      · rintro rfl
        have := (hsmall _ List.mem_cons_self).2
        rw [toLower_of_not_ascii hc] at this
        omega

theorem lowercase_eq_iff {text word : String} (hword : ∀ a ∈ word.toList, a.isLower = true ∧ a ≠ 'k') :
    lowercase text = word ↔ text.toLower = word := by
  have hlower : text.toLower.toList = text.toList.map Char.toLower := String.toList_map
  rw [← String.toList_inj, ← String.toList_inj, lowercase, String.toList_ofList, hlower]
  exact flatMap_lower_eq_iff hword

end Text

/-! ### The names of levels -/

namespace Log.Level

def names : List (String × Level) :=
  [("silent", error), ("error", error), ("warn", warn), ("info", info), ("debug", debug),
    ("trace", trace)]

/-- The level that a text names where only the letters of ASCII have a case. -/
def named? (text : String) : Option Level := names.lookup text.toLower

theorem lookup_congr {α : Type} {entries : List (String × α)} {a b : String}
    (h : ∀ e ∈ entries, a = e.1 ↔ b = e.1) : entries.lookup a = entries.lookup b := by
  induction entries with
  | nil => rfl
  | cons e entries ih =>
    have he : (a == e.1) = (b == e.1) := by simpa using h e List.mem_cons_self
    rw [List.lookup_cons, List.lookup_cons, he, ih fun d hd => h d (List.mem_cons_of_mem e hd)]

theorem ofName?_eq_lookup (text : String) : ofName? text = names.lookup (Text.lowercase text) := by
  rw [ofName?]
  split
  -- a text that is none of the six names
  case h_7 => exact (List.lookup_eq_none_iff.2 (by simp_all [names])).symm
  all_goals next h => rw [h]; rfl

theorem ofName?_eq_named? (text : String) : ofName? text = named? text := by
  -- no name has a `k` in it, the one letter that comes of a capital above ASCII
  have hsmall : (names.all fun e => e.1.toList.all fun a => a.isLower && a != 'k') = true := by decide
  rw [ofName?_eq_lookup, named?]
  refine lookup_congr fun e he => Text.lowercase_eq_iff fun a ha => ?_
  have hletters := List.all_eq_true.1 hsmall e he
  simpa using List.all_eq_true.1 hletters a ha

end Log.Level

theorem parseLevel_eq (text : String) : parseLevel text =
    match Log.Level.named? text with
    | some level => .ok level
    | none => .error (.unknownLevel text) := by
  cases hn : Log.Level.named? text <;> simp [parseLevel, Log.Level.ofName?_eq_named?, hn]

/-! ### Levels that are chosen -/

/-- The first of some texts that names no level. -/
def unknownName? (texts : List String) : Option String :=
  texts.find? fun text => (Log.Level.named? text).isNone

theorem unknownName?_append (texts more : List String) :
    unknownName? (texts ++ more) = (unknownName? texts).or (unknownName? more) :=
  List.find?_append

/-- `Names chosen level` says that the level is the one that is chosen by its name, if one is. -/
def Names (chosen : Option String) (level : Option Log.Level) : Prop :=
  Option.Rel (fun text level => Log.Level.named? text = some level) chosen level

theorem Names.or {a b : Option String} {x y : Option Log.Level} (h : Names a x) (h' : Names b y) :
    Names (a.or b) (x.or y) := by
  cases h with
  | some h => exact .some h
  | none => exact h'

/-- `Takes chosen otherwise level` says that `level` is the level that is chosen by its name, and
`otherwise` if none is. -/
def Takes (chosen : Option String) (otherwise level : Log.Level) : Prop :=
  match chosen with
  | some text => Log.Level.named? text = some level
  | none => level = otherwise

theorem Names.takes {chosen : Option String} {level : Option Log.Level} (h : Names chosen level)
    (otherwise : Log.Level) : Takes chosen otherwise (level.getD otherwise) := by
  cases h with
  | some h => exact h
  | none => rfl

/-- A level that is chosen, once its name has been checked. -/
def checked (chosen : Option String) : Except SettingsError (Option Log.Level) :=
  match chosen with
  | some text => some <$> parseLevel text
  | none => pure none

theorem checked_cases (chosen : Option String) :
    (∃ text, unknownName? chosen.toList = some text ∧
        checked chosen = .error (.unknownLevel text)) ∨
      ∃ level, unknownName? chosen.toList = none ∧ Names chosen level ∧
        checked chosen = .ok level := by
  cases chosen with
  | none => exact .inr ⟨none, rfl, .none, rfl⟩
  | some text =>
    cases hn : Log.Level.named? text with
    | none =>
      refine .inl ⟨text, by simp [unknownName?, hn], ?_⟩
      simp [checked, parseLevel_eq, hn]
    | some level =>
      refine .inr ⟨some level, by simp [unknownName?, hn], .some hn, ?_⟩
      simp [checked, parseLevel_eq, hn]

/-! ### The two passes -/

/-- The names of levels among some choices, in the order in which they are checked. -/
def Choices.levelNames (c : Choices) : List String := c.logLevel.toList ++ c.lexerLogLevel.toList

namespace Settings

/-- The settings with choices, whose levels have been checked, in place of what they had. -/
def taking (s : Settings) (c : Choices) (overall lexer : Option Log.Level) : Settings where
  levels := ⟨overall.getD s.levels.overall, lexer.or s.levels.lexer⟩
  logFormat := c.logFormat.getD s.logFormat
  logFile := c.logFile.or s.logFile
  output := c.output.getD s.output

theorem adopt_eq (s : Settings) (c : Choices) : s.adopt c = do
    let overall ← checked c.logLevel
    let lexer ← checked c.lexerLogLevel
    return s.taking c overall lexer := by
  rw [adopt]
  cases c.logLevel <;> cases c.lexerLogLevel <;> simp [checked, taking]

theorem adopt_cases (s : Settings) (c : Choices) :
    (∃ text, unknownName? c.levelNames = some text ∧ s.adopt c = .error (.unknownLevel text)) ∨
      ∃ overall lexer, unknownName? c.levelNames = none ∧ Names c.logLevel overall ∧
        Names c.lexerLogLevel lexer ∧ s.adopt c = .ok (s.taking c overall lexer) := by
  rw [adopt_eq, Choices.levelNames, unknownName?_append]
  -- the level of the whole program is checked first
  rcases checked_cases c.logLevel with ⟨text, hu, ho⟩ | ⟨overall, hu, hn, ho⟩
  · exact .inl ⟨text, by rw [hu, Option.some_or], by rw [ho]; rfl⟩
  · rw [hu, Option.none_or, ho]
    rcases checked_cases c.lexerLogLevel with ⟨text, hu', hl⟩ | ⟨lexer, hu', hn', hl⟩
    · exact .inl ⟨text, hu', by rw [hl]; rfl⟩
    · exact .inr ⟨overall, lexer, hu', hn, hn', by rw [hl]; rfl⟩

/-- The settings that are in effect when a settings file and flags make their choices: each is what the
flags say, or else what the file says, or else the default. A lexer without a level of its own has the
level of the whole program. -/
structure Effective (file flags : Choices) (s : Settings) : Prop where
  overall : Takes (flags.logLevel.or file.logLevel) .error s.levels.overall
  lexer : Takes (flags.lexerLogLevel.or file.lexerLogLevel) s.levels.overall
    (s.levels.forTarget Log.lexerTarget)
  logFormat : s.logFormat = (flags.logFormat.or file.logFormat).getD .compact
  logFile : s.logFile = flags.logFile.or file.logFile
  output : s.output = (flags.output.or file.output).getD .debug

theorem ofChoices_cases (file flags : Choices) :
    (∃ text, unknownName? (file.levelNames ++ flags.levelNames) = some text ∧
        ofChoices file flags = .error (.unknownLevel text)) ∨
      ∃ s, unknownName? (file.levelNames ++ flags.levelNames) = none ∧
        ofChoices file flags = .ok s ∧ Effective file flags s := by
  rw [ofChoices, unknownName?_append]
  -- the file is taken first, so its names are checked before those of the flags
  rcases adopt_cases {} file with ⟨text, hu, ha⟩ | ⟨overall, lexer, hu, ho, hl, ha⟩
  · exact .inl ⟨text, by rw [hu, Option.some_or], by rw [ha]; rfl⟩
  · rw [hu, Option.none_or, ha]
    rcases adopt_cases (taking {} file overall lexer) flags with
      ⟨text, hu', ha'⟩ | ⟨overall', lexer', hu', ho', hl', ha'⟩
    · exact .inl ⟨text, hu', ha'⟩
    · refine .inr ⟨_, hu', ha', ?_, ?_, ?_, ?_, ?_⟩
      · have htakes := (ho'.or ho).takes .error
        rwa [Option.getD_or] at htakes
      · -- a lexer without a level of its own has that of the program behind both passes
        have htakes := (hl'.or hl).takes (overall'.getD (overall.getD .error))
        simpa [taking, Log.Levels.forTarget] using htakes
      · simp [taking, Option.getD_or]
      · simp [taking]
      · simp [taking, Option.getD_or]

end Settings

/-! ### Runs -/

/-- What is left of a run once its settings file has been looked for. -/
def carryOutWith {m : Type → Type} [Monad m] (host : Host m) (i : CommandLine.Invocation)
    (found : Except SettingsError Choices) : m Report :=
  match found.bind fun file => Settings.ofChoices file i.choices with
  | .error cause => pure { result := .error (.settings cause) }
  | .ok s => lexUnder host s i.file

theorem carryOut_eq {m : Type → Type} [Monad m] (host : Host m) (i : CommandLine.Invocation) :
    carryOut host i = findSettings host i.config >>= carryOutWith host i :=
  rfl

/-- A run looks for its settings file and is left with `carryOutWith`. Whatever settings file it finds, it
goes on with the settings in effect. If one of the names of levels, those of the file first, is of no
level, the run ends with the first such name and the exit code 2, and does nothing else. -/
theorem run_settings {m : Type → Type} [Monad m] [LawfulMonad m] (host : Host m)
    {arguments : List String} {i : CommandLine.Invocation}
    (ha : CommandLine.parse arguments = .ok (.lex i)) :
    (run host arguments = findSettings host i.config >>= fun found =>
      Outcome.ran <$> carryOutWith host i found) ∧
    ∀ file,
      match unknownName? (file.levelNames ++ i.choices.levelNames) with
      | some text => ∃ outcome,
          Outcome.ran <$> carryOutWith host i (.ok file) = pure outcome ∧
          outcome = .ran { result := .error (.settings (.unknownLevel text)) } ∧
          outcome.exitCode = 2
      | none => ∃ s, carryOutWith host i (.ok file) = lexUnder host s i.file ∧
          Settings.Effective file i.choices s := by
  refine ⟨?_, fun file => ?_⟩
  · rw [run, ha]
    simp only [carryOut_eq, map_eq_pure_bind, bind_assoc]
  · rcases Settings.ofChoices_cases file i.choices with ⟨text, hu, ho⟩ | ⟨s, hu, ho, heffective⟩
    · rw [hu]
      refine ⟨_, ?_, rfl, rfl⟩
      simp [carryOutWith, Except.bind, ho]
    · rw [hu]
      refine ⟨s, ?_, heffective⟩
      simp [carryOutWith, Except.bind, ho]

/-- The file's name is the one that is reported, though the flag would have replaced it; and without
it, the level of the lexer is that of the flag. -/
theorem run_settings_under_flag :
    let i : CommandLine.Invocation := ⟨none, { logLevel := some "Warn" }, none⟩
    let behind found := Outcome.ran <$> carryOutWith Directory.host i found
    run Directory.host ["lex", "--log-level", "Warn"] =
        findSettings Directory.host none >>= behind ∧
      behind (.ok { logLevel := some "loud", output := some .json }) =
        pure (.ran { result := .error (.settings (.unknownLevel "loud")) }) ∧
      ∃ s, carryOutWith Directory.host i (.ok { logLevel := some "TRACE", output := some .json }) =
          lexUnder Directory.host s none ∧
        s.levels.forTarget Log.lexerTarget = .warn ∧ s.output = .json := by
  intro i behind
  have ha : CommandLine.parse ["lex", "--log-level", "Warn"] = .ok (.lex i) := by decide +kernel
  obtain ⟨hrun, hbehind⟩ := run_settings Directory.host ha
  have hloud := hbehind { logLevel := some "loud", output := some .json }
  have htrace := hbehind { logLevel := some "TRACE", output := some .json }
  rw [show unknownName? _ = some "loud" by decide +kernel] at hloud
  rw [show unknownName? _ = none by decide +kernel] at htrace
  obtain ⟨outcome, hpure, rfl, -⟩ := hloud
  obtain ⟨s, hs, heffective⟩ := htrace
  have hoverall : Log.Level.named? "Warn" = some s.levels.overall := heffective.overall
  rw [show Log.Level.named? "Warn" = some .warn by decide +kernel] at hoverall
  have hlexer : s.levels.forTarget Log.lexerTarget = s.levels.overall := heffective.lexer
  refine ⟨hrun, hpure, s, hs, ?_, heffective.output⟩
  rw [hlexer]
  exact (Option.some.inj hoverall).symm

end ArithLexer
