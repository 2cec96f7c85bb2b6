import ArithLexer.Log.Filter

/-!
# Filters by the beginning of a target

Among the entries of a filter that apply to a target, the longest decides. `Filter.LongestDecides` is this
rule for any way to find the limits of a filter, and `Filter.longestDecides_limit` says that they are
found by it.

A user chooses a level for the target of the lexer, and `Levels.forTarget` compares its whole name. As an
entry of a filter, the same choice is about every target that begins with this name
(`Levels.forBeginning`). The main statement, `Levels.filter_agrees_iff`, says for which targets this makes
a difference.
-/

namespace ArithLexer.Log

/-! ### The longest entry -/

namespace Filter

theorem longer_cases (a b : String × Level) :
    (longer a b = a ∨ longer a b = b) ∧ a.1.length ≤ (longer a b).1.length ∧
      b.1.length ≤ (longer a b).1.length := by
  rw [longer]
  split
  · next h => exact ⟨.inr rfl, Nat.le_of_lt h, Nat.le_refl _⟩
  · next h => exact ⟨.inl rfl, Nat.le_refl _, Nat.le_of_not_lt h⟩

/-- Going through some entries leads to one of them, and to none that is shorter than another. -/
theorem foldl_longer (e : String × Level) (es : List (String × Level)) :
    es.foldl longer e ∈ e :: es ∧
      ∀ a ∈ e :: es, a.1.length ≤ (es.foldl longer e).1.length := by
  induction es generalizing e with
  | nil => simp
  | cons b es ih =>
    obtain ⟨hone, he, hb⟩ := longer_cases e b
    obtain ⟨hmem, hmax⟩ := ih (longer e b)
    have hlonger := hmax _ List.mem_cons_self
    refine ⟨?_, ?_⟩
    · rcases List.mem_cons.1 hmem with h | h
      · rw [List.foldl_cons, h]
        rcases hone with h | h <;> simp [h]
      · exact List.mem_cons_of_mem e (List.mem_cons_of_mem b h)
    · intro a ha
      rcases List.mem_cons.1 ha with rfl | ha
      · exact Nat.le_trans he hlonger
      · rcases List.mem_cons.1 ha with rfl | ha
        · exact Nat.le_trans hb hlonger
        · exact hmax a (List.mem_cons_of_mem _ ha)

theorem limit_cases (f : Filter) (target : String) :
    ((∀ e ∈ f.entries, appliesTo target e = false) ∧ f.limit target = f.otherwise) ∨
      ∃ e ∈ f.entries, appliesTo target e = true ∧ f.limit target = e.2 ∧
        ∀ a ∈ f.entries, appliesTo target a = true → a.1.length ≤ e.1.length := by
  rw [limit]
  split
  · next h =>
    refine .inl ⟨fun e he => ?_, rfl⟩
    simpa using List.filter_eq_nil_iff.1 h e he
  · next e es h =>
    obtain ⟨hmem, hmax⟩ := foldl_longer e es
    rw [← h] at hmem hmax
    obtain ⟨hentry, happlies⟩ := List.mem_filter.1 hmem
    exact .inr ⟨_, hentry, happlies, rfl, fun a ha hap => hmax a (List.mem_filter.2 ⟨ha, hap⟩)⟩

/-- `LongestDecides limit` says that `limit` finds the limits of filters by their longest entries: an entry
that applies decides if all others that apply are shorter, and where none applies there is the limit for
everything else. -/
structure LongestDecides (limit : Filter → String → Level) : Prop where
  entry {f : Filter} {target : String} {e : String × Level} : e ∈ f.entries →
    appliesTo target e = true →
    (∀ a ∈ f.entries, appliesTo target a = true → a ≠ e → a.1.length < e.1.length) →
    limit f target = e.2
  otherwise {f : Filter} {target : String} : (∀ e ∈ f.entries, appliesTo target e = false) →
    limit f target = f.otherwise

theorem longestDecides_limit : LongestDecides limit where
  entry := by
    intro f target e he happlies hlongest
    rcases limit_cases f target with ⟨hnone, -⟩ | ⟨a, ha, hap, hlimit, hmax⟩
    · exact absurd (hnone e he) (by simp [happlies])
    · -- an entry that is as long as all others is the longest one
      by_cases hae : a = e
      · rw [hlimit, hae]
      · exact absurd (hmax e he happlies) (Nat.not_le.2 (hlongest a ha hap hae))
  otherwise := by
    intro f target hnone
    rcases limit_cases f target with ⟨-, hlimit⟩ | ⟨a, ha, hap, -⟩
    · exact hlimit
    · exact absurd (hnone a ha) (by simp [hap])

end Filter

/-! ### The levels of a user -/

theorem Level.admits_eq_iff {a b : Level} : (∀ level, a.admits level = b.admits level) ↔ a = b := by
  constructor
  · intro h
    have hab : a.detail ≤ b.detail := by
      -- each limit lets itself through, so the other one does, too
      have ha := h a
      simpa [admits] using ha
    have hba : b.detail ≤ a.detail := by
      have hb := h b
      simpa [admits] using hb
    cases a <;> cases b <;> simp_all [detail]
  · rintro rfl level
    rfl

namespace Levels

/-- The level for a target, by the beginning of its name. -/
def forBeginning (l : Levels) (target : String) : Level :=
  if lexerTarget.toList <+: target.toList then l.lexer.getD l.overall else l.overall

/-- Whether a target has a longer name that begins as the target of the lexer does. -/
def ExtendsLexer (target : String) : Prop :=
  lexerTarget.toList <+: target.toList ∧ target ≠ lexerTarget

variable (l : Levels) {target : String}

theorem not_both (h : lexerTarget.toList <+: target.toList) :
    ¬ commandTarget.toList <+: target.toList := by
  intro hcommand
  have hlength : commandTarget.toList.length ≤ lexerTarget.toList.length := by decide
  exact absurd (List.prefix_of_prefix_length_le hcommand h hlength) (by decide)

/-- The entries that apply are those of the parts with whose names the target begins. -/
theorem applies_cases {e : String × Level} (he : e ∈ l.filter.entries)
    (happlies : Filter.appliesTo target e = true) :
    (e = (lexerTarget, l.lexer.getD l.overall) ∧ lexerTarget.toList <+: target.toList) ∨
      (e = (commandTarget, l.overall) ∧ commandTarget.toList <+: target.toList) := by
  have hlevel : l.forTarget lexerTarget = l.lexer.getD l.overall := if_pos rfl
  rw [Filter.appliesTo, List.isPrefixOf_iff_prefix] at happlies
  simp only [filter, hlevel, List.mem_cons, List.not_mem_nil, or_false] at he
  rcases he with rfl | rfl
  · exact .inl ⟨rfl, happlies⟩
  · exact .inr ⟨rfl, happlies⟩

/-- The limits of a filter for some levels, in whatever way its longest entries are found. -/
theorem limit_filter {limit : Filter → String → Level} (h : Filter.LongestDecides limit) :
    limit l.filter target = l.forBeginning target := by
  rw [forBeginning]
  -- at most one of the two entries applies, and that is then the longest one
  by_cases hlexer : lexerTarget.toList <+: target.toList
  · rw [if_pos hlexer]
    have hmem : (lexerTarget, l.lexer.getD l.overall) ∈ l.filter.entries := List.mem_cons_self
    refine h.entry hmem (List.isPrefixOf_iff_prefix.2 hlexer) fun a ha happlies hne => ?_
    rcases l.applies_cases ha happlies with ⟨rfl, -⟩ | ⟨-, hcommand⟩
    · exact absurd rfl hne
    · exact absurd hcommand (not_both hlexer)
  · rw [if_neg hlexer]
    by_cases hcommand : commandTarget.toList <+: target.toList
    · have hmem : (commandTarget, l.overall) ∈ l.filter.entries :=
        List.mem_cons_of_mem _ List.mem_cons_self
      refine h.entry hmem (List.isPrefixOf_iff_prefix.2 hcommand) fun a ha happlies hne => ?_
      rcases l.applies_cases ha happlies with ⟨-, hl⟩ | ⟨rfl, -⟩
      · exact absurd hl hlexer
      · exact absurd rfl hne
    · refine h.otherwise fun e he => Bool.eq_false_iff.2 fun happlies => ?_
      rcases l.applies_cases he happlies with ⟨-, hl⟩ | ⟨-, hc⟩
      · exact hlexer hl
      · exact hcommand hc

theorem forBeginning_eq (h : ¬ ExtendsLexer target) : l.forBeginning target = l.forTarget target := by
  rw [forBeginning, forTarget]
  by_cases hname : target = lexerTarget
  · rw [if_pos hname, if_pos (hname ▸ List.prefix_rfl)]
  · rw [if_neg hname, if_neg fun hlexer => h ⟨hlexer, hname⟩]

/-- A target that goes on behind the name of the lexer's is held to the level of the lexer, though it is
another one. -/
theorem forBeginning_eq_iff (h : ExtendsLexer target) :
    l.forBeginning target = l.forTarget target ↔ l.lexer = none ∨ l.lexer = some l.overall := by
  rw [forBeginning, if_pos h.1, forTarget, if_neg h.2]
  cases l.lexer with
  | none => simp
  | some level => simp

/-- The filter holds each event to the level for its target. -/
theorem limit_target (e : Event) : l.filter.limit e.target = l.forTarget e.target := by
  rw [l.limit_filter Filter.longestDecides_limit]
  refine l.forBeginning_eq ?_
  rintro ⟨hlexer, hne⟩
  -- events only have the targets of the two parts
  have htarget : e.target = lexerTarget ∨ e.target = commandTarget := by
    cases e <;> simp [Event.target]
  rcases htarget with h | h
  · exact hne h
  · exact not_both hlexer (h ▸ List.prefix_rfl)

/-- What a filter for some levels lets through, if its limits are found by the longest entries, as those of
`Filter.limit` are: for a target that begins with the name of the lexer's, what the level of the lexer
admits, which is the overall one if it has none; for any other target, what the overall level admits. This
is what the level for the target admits, unless the target goes on behind the name of the lexer's; and then
it is so exactly if the lexer has no level of its own, or the same one. -/
theorem filter_agrees_iff :
    Filter.LongestDecides Filter.limit ∧
    ∀ limit, Filter.LongestDecides limit → ∀ (l : Levels) (target : String),
      let enables := (limit l.filter target).admits
      (∀ level, enables level = true ↔
        level.detail ≤ (if lexerTarget.toList <+: target.toList then l.lexer.getD l.overall
          else l.overall).detail) ∧
      (¬ ExtendsLexer target → ∀ level, enables level = (l.forTarget target).admits level) ∧
      (ExtendsLexer target →
        ((∀ level, enables level = (l.forTarget target).admits level) ↔
          l.lexer = none ∨ l.lexer = some l.overall)) := by
  refine ⟨Filter.longestDecides_limit, fun limit h l target => ?_⟩
  intro enables
  have henables : enables = (l.forBeginning target).admits :=
    congrArg Level.admits (l.limit_filter h)
  rw [henables]
  refine ⟨fun level => decide_eq_true_iff, fun hnot level => ?_, fun hextends => ?_⟩
  · rw [l.forBeginning_eq hnot]
  · rw [Level.admits_eq_iff, l.forBeginning_eq_iff hextends]

/-- A longer name is held to the level of the lexer, too, which is not the level for this target; a shorter
one is not. -/
theorem filter_agrees_iff_beginning :
    let l : Levels := ⟨.warn, some .trace⟩
    (l.filter.enables "calx::lexerx" .trace = true ∧ (l.forTarget "calx::lexerx").admits .trace = false ∧
      ¬ ∀ level, l.filter.enables "calx::lexerx" level = (l.forTarget "calx::lexerx").admits level) ∧
    (∀ level, l.filter.enables "calx::lexer" level = (l.forTarget "calx::lexer").admits level) ∧
    ∀ level, l.filter.enables "calx::lexe" level = true ↔ level.detail ≤ Level.warn.detail := by
  intro l
  have h := filter_agrees_iff.2 Filter.limit filter_agrees_iff.1 l
  have hlonger : ExtendsLexer "calx::lexerx" := ⟨by decide, by decide⟩
  have hsame : ¬ ExtendsLexer "calx::lexer" := fun hextends => hextends.2 rfl
  refine ⟨⟨((h "calx::lexerx").1 .trace).2 (by decide), by decide, fun hall => ?_⟩,
    (h "calx::lexer").2.1 hsame, (h "calx::lexe").1⟩
  exact absurd (((h "calx::lexerx").2.2 hlonger).1 hall) (by decide)

end Levels

end ArithLexer.Log
