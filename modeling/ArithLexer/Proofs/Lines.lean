import ArithLexer.Text.Lines
import Mathlib.Data.List.DropRight

/-!
# Lines of a text

A list is cut into pieces one stop at a time (`pieces_append_stop`, `pieces_of_not_mem`), so what
holds of all texts is proved line by line (`pieces_induction`). `lineStart` is the part of a text
that stands on its last line.
-/

namespace ArithLexer.Text

section
variable {α : Type} [DecidableEq α] {stop : α} {l : List α}

/-- The first stop ends the first piece. -/
theorem pieces_append_stop (h : stop ∉ l) (rest : List α) :
    pieces stop (l ++ stop :: rest) = (l ++ [stop]) :: pieces stop rest := by
  induction l with
  | nil => simp [pieces]
  | cons a l ih =>
    obtain ⟨ha, hl⟩ : stop ≠ a ∧ stop ∉ l := by simpa using h
    rw [List.cons_append, pieces, if_neg (Ne.symm ha), ih hl]
    rfl

theorem pieces_of_not_mem (h : stop ∉ l) (hne : l ≠ []) : pieces stop l = [l] := by
  induction l with
  | nil => exact absurd rfl hne
  | cons a l ih =>
    obtain ⟨ha, hl⟩ : stop ≠ a ∧ stop ∉ l := by simpa using h
    rw [pieces, if_neg (Ne.symm ha)]
    by_cases hn : l = []
    · subst hn
      rfl
    · rw [ih hl hn]

/-- What holds of the empty list and of a last piece without a stop, and goes on to hold with one
more piece in front, holds of every list. -/
theorem pieces_induction (stop : α) {P : List α → Prop} (nil : P [])
    (last : ∀ l, stop ∉ l → l ≠ [] → P l)
    (piece : ∀ l rest, stop ∉ l → P rest → P (l ++ stop :: rest)) (as : List α) : P as := by
  -- the list is shorter behind its first stop
  by_cases hs : stop ∈ as
  · obtain ⟨l, rest, rfl, hl⟩ := List.eq_append_cons_of_mem hs
    exact piece l rest hl (pieces_induction stop nil last piece rest)
  · by_cases hn : as = []
    · exact hn ▸ nil
    · exact last as hs hn
termination_by as.length
decreasing_by
  subst_vars
  simp only [List.length_append, List.length_cons]
  omega

theorem dropFinal_concat (a : α) (as : List α) : dropFinal a (as ++ [a]) = as := by
  simp [dropFinal]

theorem dropFinal_of_getLast?_ne {a : α} {as : List α} (h : as.getLast? ≠ some a) :
    dropFinal a as = as := by
  rw [dropFinal, if_neg h]

theorem dropFinal_of_not_mem {a : α} {as : List α} (h : a ∉ as) : dropFinal a as = as :=
  dropFinal_of_getLast?_ne fun hl => h (List.mem_of_getLast? hl)

theorem dropFinal_cases (a : α) (as : List α) :
    dropFinal a as = as ∨ ∃ bs, as = bs ++ [a] ∧ dropFinal a as = bs := by
  by_cases h : as.getLast? = some a
  · obtain ⟨bs, rfl⟩ := List.getLast?_eq_some_iff.1 h
    exact .inr ⟨bs, rfl, dropFinal_concat a bs⟩
  · exact .inl (dropFinal_of_getLast?_ne h)

theorem mem_of_mem_dropFinal {a b : α} {as : List α} (h : b ∈ dropFinal a as) : b ∈ as := by
  rcases dropFinal_cases a as with he | ⟨bs, rfl, he⟩
  · exact he ▸ h
  · exact List.mem_append_left _ (he ▸ h)

theorem not_mem_dropLast_of_mem_pieces {as p : List α} (h : p ∈ pieces stop as) :
    stop ∉ p.dropLast := by
  -- piece by piece, as a stop can only end one
  induction as using pieces_induction stop with
  | nil => simp [pieces] at h
  | last l hl hne =>
    rw [pieces_of_not_mem hl hne, List.mem_singleton] at h
    exact h ▸ fun hm => hl (List.dropLast_subset _ hm)
  | piece l rest hl ih =>
    rw [pieces_append_stop hl] at h
    rcases List.mem_cons.1 h with rfl | h
    · rwa [List.dropLast_concat]
    · exact ih h

end

/-- A line feed at the end is removed before a carriage return is looked for. -/
theorem stripTerminator_concat_feed (l : List Char) :
    stripTerminator (l ++ ['\n']) = dropFinal '\r' l := by
  rw [stripTerminator, dropFinal_concat]

theorem stripTerminator_of_not_mem {l : List Char} (h : '\n' ∉ l) :
    stripTerminator l = dropFinal '\r' l := by
  rw [stripTerminator, dropFinal_of_not_mem h]

/-- Where a line feed can only be the last character, it goes with the terminator. -/
theorem feed_not_mem_stripTerminator {cs : List Char} (h : '\n' ∉ cs.dropLast) :
    '\n' ∉ stripTerminator cs := by
  intro hm
  have hm := mem_of_mem_dropFinal hm
  rw [dropFinal] at hm
  split at hm
  · exact h hm
  · next hlast =>
    -- the last character is no line feed, and the others are none either
    obtain ⟨init, c, rfl⟩ := List.eq_nil_or_concat' cs |>.resolve_left (List.ne_nil_of_mem hm)
    rw [List.dropLast_concat] at h
    rcases List.mem_append.1 hm with hm | hm
    · exact h hm
    · exact hlast (by rw [List.getLast?_concat, List.mem_singleton.1 hm])

/-- No line of a text has a line feed. -/
theorem feed_not_mem_lines {text line : String} (h : line ∈ lines text) : '\n' ∉ line.toList := by
  obtain ⟨p, hp, rfl⟩ := List.mem_map.1 h
  rw [String.toList_ofList]
  exact feed_not_mem_stripTerminator (not_mem_dropLast_of_mem_pieces hp)

/-- The part of a text that stands on its last line. -/
def lineStart (p : List Char) : List Char := p.rtakeWhile (· ≠ '\n')

theorem lineStart_of_not_mem {p : List Char} (h : '\n' ∉ p) : lineStart p = p := by
  refine List.rtakeWhile_eq_self_iff.2 fun c hc => ?_
  simpa using ne_of_mem_of_not_mem hc h

theorem lineStart_append_feed (l p : List Char) : lineStart (l ++ '\n' :: p) = lineStart p := by
  -- from the end, where the last line is taken from
  induction p using List.reverseRecOn with
  | nil =>
    rw [lineStart, List.rtakeWhile_concat_neg _ _ _ (by simp)]
    rfl
  | append_singleton p c ih =>
    rw [← List.cons_append, ← List.append_assoc]
    simp only [lineStart, List.rtakeWhile_concat] at ih ⊢
    rw [ih]

/-- The line of the text `cs` that goes on behind its part `p`, without its terminator. -/
def lineBehind (p cs : List Char) : String :=
  String.ofList
    (dropFinal '\r' (lineStart p ++ (cs.drop p.length).takeWhile (· ≠ '\n')))

end ArithLexer.Text
