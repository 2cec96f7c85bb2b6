import ArithLexer.Proofs.Items
import ArithLexer.Proofs.Pending

/-!
# The results of a scripted source

`reference` says what the requests for tokens give, from the first up to the end or a failure, in
terms of the lines of the source alone: where they are cut into runs, and which of their characters
is the first to be refused. The main statement, `ofSource_ends_reference`, is that a lexer
over any script of answers gives just that.

The proof follows the lexer turn by turn. `resultsOf` is the reference line by line, and
`lineResults` the reference for the rest of a line; both are kept by every turn
(`gives_of_pending`).
-/

namespace ArithLexer

/-! ### The reference -/

/-- The lines that a source delivers before its first end or failure. -/
def leadingLines : List Answer → List String
  | .line text :: rest => text :: leadingLines rest
  | _ => []

/-- What comes behind the leading lines, when `n` lines have been delivered before: the end, or the
failure to read one more line. -/
def ending (n : Nat) : List Answer → Result
  | .line _ :: rest => ending (n + 1) rest
  | .failure cause :: _ => .error (.unreadable (n + 1) cause)
  | _ => .ok none

/-- A refused character among some lines. -/
structure Offence where
  linesBefore : List String
  line : String
  /-- What precedes the character on its line. -/
  before : List Char
  reason : Rejection

/-- The error that names the character by its line and column. -/
def Offence.error (o : Offence) : LexError :=
  ⟨o.reason, ⟨o.linesBefore.length + 1, o.before.length + 1⟩, o.line⟩

/-- The tokens that are complete before the character, in order. -/
def Offence.tokens (o : Offence) : List Token :=
  o.linesBefore.flatMap (fun line => tokensOf line.toList) ++ tokensBefore o.before

/-- The first refused character of some lines that come behind the lines `done`. -/
def firstOffence (done : List String) : List String → Option Offence
  | [] => none
  | line :: rest =>
    match firstRefused line.toList with
    | some (p, reason) => some ⟨done, line, p, reason⟩
    | none => firstOffence (done ++ [line]) rest

/-- What the requests for tokens from a source with these answers give: the tokens, and the first
result that is not a token. Where no character is refused these are the tokens of all runs, and then
the end or a failure to read; otherwise the tokens that are complete before the first refused
character, and then its error. -/
def reference (answers : List Answer) : List Token × Result :=
  let lines := leadingLines answers
  match firstOffence [] lines with
  | none => (lines.flatMap fun line => tokensOf line.toList, ending 0 answers)
  | some o => (o.tokens, .error (.rejected o.error))

theorem ending_ne_given (n : Nat) (answers : List Answer) (token : Token) :
    ending n answers ≠ given token := by
  fun_induction ending n answers with
  | case1 n text rest ih => exact ih
  | case2 n cause rest => simp [given]
  | case3 n answers _ _ => simp [given]

theorem ending_of_unreadable {n line : Nat} {answers : List Answer} {cause : IoError}
    (h : ending n answers = .error (.unreadable line cause)) :
    ∃ (before : List String) (behind : List Answer),
      answers = before.map .line ++ .failure cause :: behind ∧ line = n + before.length + 1 := by
  revert h
  -- the number of the line is a variable of the recursion, so the equation goes into the motive
  fun_induction ending n answers with
  | case1 n text rest ih =>
    intro h
    obtain ⟨before, behind, hb, hl⟩ := ih h
    refine ⟨text :: before, behind, by rw [hb]; rfl, ?_⟩
    rw [hl, List.length_cons]
    omega
  | case2 n cause' rest =>
    rintro ⟨⟩
    exact ⟨[], rest, rfl, rfl⟩
  | case3 n answers _ _ =>
    intro h
    cases h

theorem reference_ne_given (answers : List Answer) (token : Token) :
    (reference answers).2 ≠ given token := by
  rw [reference]
  split
  · exact ending_ne_given 0 answers token
  · simp [given]

theorem reference_of_unreadable {line : Nat} {answers : List Answer} {cause : IoError}
    (h : (reference answers).2 = .error (.unreadable line cause)) :
    ∃ (before : List String) (behind : List Answer),
      answers = before.map .line ++ .failure cause :: behind ∧ line = before.length + 1 := by
  rw [reference] at h
  split at h
  · obtain ⟨before, behind, hb, hl⟩ := ending_of_unreadable h
    exact ⟨before, behind, hb, by omega⟩
  · cases h

/-! ### The reference line by line -/

/-- The results on the rest `cs` of line `n`, which begins at column `column` with no token pending,
and then `next`. -/
def lineResults (n column : Nat) (line : String) (cs : List Char) (next : List Result) :
    List Result :=
  (reading cs).1.map given ++
    match (reading cs).2 with
    | none => next
    | some (p, reason) => [.error (.rejected ⟨reason, ⟨n, column + p.length⟩, line⟩)]

/-- The results from a source with these answers that has delivered `n` lines before. -/
def resultsOf (n : Nat) : List Answer → List Result
  | .line text :: rest => lineResults (n + 1) 1 text text.toList (resultsOf (n + 1) rest)
  | .failure cause :: _ => [.error (.unreadable (n + 1) cause)]
  | _ => [.ok none]

section
variable {n column : Nat} {line : String} {next : List Result}

@[simp] theorem lineResults_nil : lineResults n column line [] next = next := rfl

theorem lineResults_blank_cons {c : Char} (h : Text.isBlank c = true) (w : List Char) :
    lineResults n column line (c :: w) next = lineResults n (column + 1) line w next := by
  rw [lineResults, reading_blank_cons h, lineResults]
  cases (reading w).2 with
  | none => rfl
  | some x => simp [Nat.add_assoc, Nat.add_comm 1]

theorem lineResults_lexeme_append {x w : List Char} {t : Token} (hx : Lexeme x t) (h : Apart x w)
    (hw : ∀ c ∈ w.head?, refusal? [] c = none) :
    lineResults n column line (x ++ w) next =
      given t :: lineResults n (column + x.length) line w next := by
  rw [lineResults, reading_lexeme_append hx h hw, lineResults]
  cases (reading w).2 with
  | none => rfl
  | some y => simp [Nat.add_assoc]

theorem lineResults_append_refused {p : List Char} {c : Char} {reason : Rejection}
    (hp : firstRefused p = none) (ht : tokensBefore p = []) (hc : refusal? p c = some reason)
    (w : List Char) :
    lineResults n column line (p ++ c :: w) next =
      [.error (.rejected ⟨reason, ⟨n, column + p.length⟩, line⟩)] := by
  rw [lineResults, reading_append_refused hp hc, ht]
  rfl

end

/-- The reference says of all lines what `resultsOf` says of one after the other. -/
theorem append_resultsOf (done : List String) (answers : List Answer) :
    (done.flatMap fun line => tokensOf line.toList).map given ++ resultsOf done.length answers =
      match firstOffence done (leadingLines answers) with
      | none => ((done ++ leadingLines answers).flatMap fun line => tokensOf line.toList).map given
          ++ [ending done.length answers]
      | some o => o.tokens.map given ++ [.error (.rejected o.error)] := by
  -- over the lines that are left; those that are done grow by one at each step
  fun_induction leadingLines answers generalizing done with
  | case1 text rest ih =>
    rw [resultsOf, lineResults, reading, firstOffence]
    cases hf : firstRefused text.toList with
    | none =>
      -- nothing is refused on this line, so it joins the lines that are done
      have h := ih (done ++ [text])
      simp only [List.flatMap_append, List.map_append, List.length_append, List.append_assoc,
        List.flatMap_singleton, List.length_singleton, List.singleton_append] at h ⊢
      rw [h]
      rfl
    | some x => simp [Offence.tokens, Offence.error, Nat.add_comm 1]
  | case2 answers hne =>
    -- the lines are over: what is left begins with a failure or an end, or is nothing
    rcases answers with _ | ⟨text | _ | _, rest⟩
    · simp [firstOffence, resultsOf, ending]
    · exact absurd rfl (hne text rest)
    · simp [firstOffence, resultsOf, ending]
    · simp [firstOffence, resultsOf, ending]

theorem reference_eq_resultsOf (answers : List Answer) :
    (reference answers).1.map given ++ [(reference answers).2] = resultsOf 0 answers := by
  have h := append_resultsOf [] answers
  rw [List.flatMap_nil, List.map_nil, List.nil_append] at h
  rw [List.length_nil] at h
  rw [h, reference]
  cases firstOffence [] (leadingLines answers) <;> rfl

/-! ### The answers of a script -/

namespace Script

variable {s t : Script}

theorem answers_of_next_line {text : String} (h : LineSource.next s = (.ok (some text), t)) :
    s.answers = .line text :: t.answers := by
  obtain ⟨_ | ⟨_ | _ | _, rest⟩⟩ := s <;> cases h
  rfl

theorem resultsOf_of_next_end (h : LineSource.next s = (.ok none, t)) (n : Nat) :
    resultsOf n s.answers = [.ok none] := by
  obtain ⟨_ | ⟨_ | _ | _, rest⟩⟩ := s <;> cases h <;> rfl

theorem answers_of_next_error {cause : IoError} (h : LineSource.next s = (.error cause, t)) :
    s.answers = .failure cause :: t.answers := by
  obtain ⟨_ | ⟨_ | _ | _, rest⟩⟩ := s <;> cases h
  rfl

end Script

theorem Cursor.resultsOf_fetch (c : Cursor Script) (told : List Log.Event) :
    resultsOf c.position.line c.source.answers =
      match (c.fetch told).result, (c.fetch told).after with
      | .ok true, d =>
        lineResults d.position.line 1 d.line d.line.toList
          (resultsOf d.position.line d.source.answers)
      | .ok false, _ => [.ok none]
      | .error failure, _ => [.error failure] := by
  refine fetch_induction (P := fun c r d => resultsOf c.position.line c.source.answers =
    match r, d with
    | .ok true, d => lineResults d.position.line 1 d.line d.line.toList
        (resultsOf d.position.line d.source.answers)
    | .ok false, _ => [.ok none]
    | .error failure, _ => [.error failure]) ?_ ?_ ?_ ?_ c told
  · intro c line source r d hn he ih
    rw [Script.answers_of_next_line hn, resultsOf, he, lineResults_nil]
    exact ih
  · intro c line source hn he
    rw [Script.answers_of_next_line hn]
    rfl
  · intro c source hn
    exact Script.resultsOf_of_next_end hn _
  · intro c cause source hn
    rw [Script.answers_of_next_error hn]
    rfl

namespace Lexer

/-! ### Turn by turn -/

/-- A lexer that holds `u` gives the results of `u` and the rest of its line, and then those of the
answers still to come. -/
theorem gives_of_pending (x : Lexer Script) {u : List Char} {column : Nat}
    (hu : x.state.Pending u) (he : x.cursor.exhausted = false)
    (hc : x.cursor.position.column = column + u.length) :
    x.Gives (lineResults x.cursor.position.line column x.cursor.line (u ++ x.cursor.ahead)
      (resultsOf x.cursor.position.line x.cursor.source.answers)) := by
  -- the recursion is on the lexer, which every turn makes smaller. The invariant is that `u` is what
  -- the state holds: then `u` and what is ahead are read as the line from `column` on would be
  cases ha : x.cursor.ahead with
  | cons c w =>
    have hp : x.cursor.peek = some c := by rw [Cursor.peek, ha, List.head?_cons]
    cases hu.steps c with
    | pass hnil hstep hb =>
      subst hnil
      have ht := turn_take ha hstep
      -- a blank is passed over, which moves the column and nothing else
      rw [List.nil_append, lineResults_blank_cons hb]
      refine Gives.of_took ht (gives_of_pending _ (u := []) .start he ?_)
      rw [Coordinate.nextColumn, hc]
      rfl
    | take hstep hs =>
      have ht := turn_take ha hstep
      -- the character goes over to what is held, and the text from `column` on stays the same
      rw [List.append_cons]
      refine Gives.of_took ht (gives_of_pending _ hs he ?_)
      rw [Coordinate.nextColumn, hc, List.length_append, List.length_singleton, Nat.add_assoc]
    | emit hstep hx hap hr =>
      -- the character is left, so the next token begins at it
      rw [← hp] at hstep
      have ht := turn_emit hstep
      rw [lineResults_lexeme_append hx (hap w) (by simpa using hr), ← hc, ← ha]
      exact Gives.of_answered ht (gives_of_pending _ (u := []) .start he rfl)
    | reject hstep hr =>
      rw [← hp] at hstep
      have ht := turn_reject hstep
      -- nothing comes behind a refused character, and what is held is lost with it
      rw [lineResults_append_refused hu.firstRefused_eq_none hu.tokensBefore_eq_nil hr, ← hc]
      exact (gives_nil _).of_answered ht
  | nil =>
    -- at the end of the line a token that is held is complete; without one, a line is fetched
    rcases hu.step_none with ⟨hs, rfl⟩ | ⟨t, hstep, hx⟩
    · rw [List.append_nil, lineResults_nil, x.cursor.resultsOf_fetch []]
      rw [← Cursor.nextLine_of_not_exhausted he]
      rcases hn : x.cursor.nextLine with ⟨failure | _ | _, d, events⟩
      · exact (gives_nil _).of_answered (turn_fail ha hs hn)
      · exact (gives_nil _).of_answered (turn_finish ha hs hn)
      · have ht := turn_refill ha hs hn
        obtain ⟨hd, -, hcol, hex⟩ := Cursor.fetched_nextLine hn
        -- the column begins anew, with nothing held
        have hg := gives_of_pending ⟨d, .start⟩ (u := []) .start (hex.trans he) hcol
        rw [List.nil_append, hd] at hg
        exact hg.of_refilled ht
    · have hp : x.state.step x.cursor.peek = .emit t := by
        rwa [Cursor.peek, ha, List.head?_nil]
      have ht := turn_emit hp
      rw [lineResults_lexeme_append hx (Apart.nil_right u) (by simp), ← hc, ← ha]
      exact Gives.of_answered ht (gives_of_pending _ (u := []) .start he rfl)
termination_by x
decreasing_by
  -- each call is behind one turn, which is `ht` in every case
  all_goals
    first
    | exact less_of_took ht
    | exact less_of_refilled ht
    | exact less_of_answered ht rfl

theorem gives_resultsOf (answers : List Answer) :
    (ofSource (Script.mk answers)).Gives (resultsOf 0 answers) := by
  have h := gives_of_pending (ofSource (Script.mk answers)) (u := []) .start rfl rfl
  simpa [ofSource, Cursor.ofSource, Coordinate.beforeInput] using h

/-- A lexer over any source of lines, ends and failures gives what the reference says. -/
theorem ofSource_ends_reference (answers : List Answer) :
    (ofSource (Script.mk answers)).Ends (reference answers).1 (reference answers).2 := by
  refine ⟨?_, reference_ne_given answers⟩
  rw [reference_eq_resultsOf]
  exact gives_resultsOf answers

end Lexer
end ArithLexer
