import ArithLexer.Proofs.Tokenize

/-!
# The shortest refused prefix

Whether a text is refused is decided by its shortest refused prefix, `p` and one character `c` more.
Nothing that comes behind `c` changes the reason or the place of the error: it only goes on with the
line that the error shows. The main statement is `tokenize_error_at_break`.
-/

namespace ArithLexer

open Text (isBlank lineStart lineBehind)

/-- `BreaksAt p c` says that `p` has tokens, and that it has none with `c` behind it. -/
structure BreaksAt (p : String) (c : Char) : Prop where
  accepted : ∃ tokens, tokenize p = .ok tokens
  refused : ∃ failure, tokenize (p.push c) = .error failure

/-- The error of the character `c` behind `p` if the text goes on with `s`. The line it shows is cut
at line feeds, and loses one carriage return at its end. -/
def breakError (p : String) (c : Char) (s : String) : LexError where
  reason := if isDigit c then .numberOverflow else .unacceptable c
  position := ⟨1 + p.toList.count '\n', 1 + (lineStart p.toList).length⟩
  line := String.ofList
    (Text.dropFinal '\r' (lineStart p.toList ++ c :: s.toList.takeWhile (· ≠ '\n')))

/-! ### Refused texts -/

theorem tokenize_ok_iff {text : String} :
    (∃ tokens, tokenize text = .ok tokens) ↔ firstRefused text.toList = none := by
  cases h : firstRefused text.toList with
  | none => simp [tokenize_of_none h]
  | some x =>
    obtain ⟨p, reason⟩ := x
    simp [tokenize_of_some h]

theorem tokenize_error_iff {text : String} :
    (∃ failure, tokenize text = .error failure) ↔
      ∃ p reason, firstRefused text.toList = some (p, reason) := by
  cases h : firstRefused text.toList with
  | none => simp [tokenize_of_none h]
  | some x =>
    obtain ⟨p, reason⟩ := x
    simp [tokenize_of_some h]

theorem breaksAt_iff {p : String} {c : Char} :
    BreaksAt p c ↔ firstRefused p.toList = none ∧ ∃ reason, refusal? p.toList c = some reason := by
  constructor
  · rintro ⟨ha, hr⟩
    rw [tokenize_ok_iff] at ha
    -- as `p` is not refused, only its last character can be
    rw [tokenize_error_iff, String.toList_push, firstRefused_concat ha] at hr
    obtain ⟨q, reason, hq⟩ := hr
    obtain ⟨reason, hreason, -⟩ := Option.map_eq_some_iff.1 hq
    exact ⟨ha, reason, hreason⟩
  · rintro ⟨ha, reason, hreason⟩
    refine ⟨tokenize_ok_iff.2 ha, tokenize_error_iff.2 ⟨p.toList, reason, ?_⟩⟩
    rw [String.toList_push, firstRefused_concat ha, hreason]
    rfl

/-- What comes behind the character plays no role. -/
theorem BreaksAt.firstRefused_eq {p : String} {c : Char} (h : BreaksAt p c) (s : String) :
    ∃ reason, refusal? p.toList c = some reason ∧
      firstRefused (p.push c ++ s).toList = some (p.toList, reason) := by
  obtain ⟨ha, reason, hreason⟩ := breaksAt_iff.1 h
  refine ⟨reason, hreason, firstRefused_eq_some_iff.2 ⟨ha, c, s.toList, ?_, hreason⟩⟩
  rw [String.toList_append, String.toList_push, List.append_assoc, List.singleton_append]

/-- A text breaks at no more than one place. -/
theorem BreaksAt.unique {p q s t : String} {c d : Char} (hp : BreaksAt p c) (hq : BreaksAt q d)
    (h : p.push c ++ s = q.push d ++ t) : p = q ∧ c = d ∧ s = t := by
  obtain ⟨_, -, hfp⟩ := hp.firstRefused_eq s
  obtain ⟨_, -, hfq⟩ := hq.firstRefused_eq t
  -- both are the first refused prefix of the text
  rw [h, hfq, Option.some_inj, Prod.mk.injEq] at hfp
  obtain rfl : q = p := String.toList_injective hfp.1
  have hl := congrArg String.toList h
  simp only [String.toList_append, String.toList_push, List.append_assoc,
    List.append_cancel_left_eq, List.singleton_append, List.cons.injEq] at hl
  exact ⟨rfl, hl.1, String.toList_injective hl.2⟩

theorem exists_breaksAt {text : String} (h : ∃ failure, tokenize text = .error failure) :
    ∃ p c s, text = String.push p c ++ s ∧ BreaksAt p c := by
  obtain ⟨p, reason, hf⟩ := tokenize_error_iff.1 h
  obtain ⟨ha, c, s, hs, hc⟩ := firstRefused_eq_some_iff.1 hf
  refine ⟨String.ofList p, c, String.ofList s, String.toList_injective ?_, breaksAt_iff.2 ?_⟩
  · simp [hs]
  · rw [String.toList_ofList]
    exact ⟨ha, reason, hc⟩

/-! ### The error -/

/-- The character alone tells the reason. -/
theorem reason_of_refusal {p : List Char} {c : Char} {reason : Rejection}
    (h : refusal? p c = some reason) :
    reason = if isDigit c then .numberOverflow else .unacceptable c := by
  -- a digit is only refused for its number, and any other character for itself
  by_cases hd : isDigit c = true
  · rw [refusal?_digit hd] at h
    split at h
    · rw [if_pos hd]
      exact (Option.some_inj.1 h).symm
    · cases h
  · rw [refusal?] at h
    split at h
    · cases h
    · rw [if_neg hd]
      exact (Option.some_inj.1 h).symm

theorem ne_feed_of_refusal {p : List Char} {c : Char} {reason : Rejection}
    (h : refusal? p c = some reason) : c ≠ '\n' := by
  rintro rfl
  rw [refusal?_blank (by decide)] at h
  cases h

theorem textError_eq_breakError {p : String} {c : Char} {reason : Rejection}
    (h : refusal? p.toList c = some reason) (s : String) :
    textError 0 p.toList (p.push c ++ s).toList reason = breakError p c s := by
  have hdrop : (p.push c ++ s).toList.drop p.toList.length = c :: s.toList := by
    rw [String.toList_append, String.toList_push, List.append_assoc, List.drop_left,
      List.singleton_append]
  -- the refused character is on the line that the error shows
  have hline : (c :: s.toList).takeWhile (· ≠ '\n') = c :: s.toList.takeWhile (· ≠ '\n') := by
    rw [List.takeWhile_cons, if_pos (by simpa using ne_feed_of_refusal h)]
  rw [textError, lineBehind, hdrop, hline, reason_of_refusal h, Nat.zero_add, breakError]

/-- A text is refused exactly if it has a shortest refused prefix, which is then unique; and however
the text goes on behind that prefix, it is refused with the error of its last character. -/
theorem tokenize_error_at_break (text : String) :
    ((∃ failure, tokenize text = .error failure) ↔
      ∃! x : String × Char × String, text = x.1.push x.2.1 ++ x.2.2 ∧ BreaksAt x.1 x.2.1) ∧
    ∀ p c, BreaksAt p c → ∀ s, tokenize (p.push c ++ s) = .error (.rejected (breakError p c s)) := by
  have hfails : ∀ p c, BreaksAt p c → ∀ s,
      tokenize (p.push c ++ s) = .error (.rejected (breakError p c s)) := by
    intro p c h s
    obtain ⟨reason, hreason, hf⟩ := h.firstRefused_eq s
    rw [tokenize_of_some hf, textError_eq_breakError hreason]
  refine ⟨⟨?_, ?_⟩, hfails⟩
  -- the first refused character is the one at which the text breaks
  · intro h
    obtain ⟨p, c, s, rfl, hb⟩ := exists_breaksAt h
    refine ⟨(p, c, s), ⟨rfl, hb⟩, ?_⟩
    rintro ⟨q, d, t⟩ ⟨he, hq⟩
    obtain ⟨rfl, rfl, rfl⟩ := hq.unique hb he.symm
    rfl
  · rintro ⟨⟨p, c, s⟩, ⟨rfl, hb⟩, -⟩
    exact ⟨_, hfails p c hb s⟩

/-- What follows a letter on its line only goes on with the text that the error shows. -/
theorem tokenize_error_at_letter : BreaksAt "1\r\n+2" 'a' ∧
    tokenize "1\r\n+2ab\r\n3" = .error (.rejected ⟨.unacceptable 'a', ⟨2, 3⟩, "+2ab"⟩) := by
  have ha : firstRefused "1\r\n+2".toList = none := by decide
  have hc : refusal? "1\r\n+2".toList 'a' = some (.unacceptable 'a') := by decide
  have hb : BreaksAt "1\r\n+2" 'a' := breaksAt_iff.2 ⟨ha, _, hc⟩
  exact ⟨hb, (tokenize_error_at_break "1\r\n+2a").2 _ _ hb "b\r\n3"⟩

end ArithLexer
