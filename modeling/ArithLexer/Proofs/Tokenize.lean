import ArithLexer.Proofs.Items
import ArithLexer.Proofs.Lines
import ArithLexer.Proofs.Reading
import ArithLexer.Proofs.Simulation

/-!
# The tokens of a text

A text is read line by line, without its line ends. `tokenize_eq` says what comes of it in terms of
the text as a whole: the tokens of its runs, or its first refused character, whose line and column are
counted in the text. Line feeds and the carriage returns before them are blanks, so they end a run as
the end of a line does, and leaving them out changes nothing (`resultsOf_pieces`).
-/

namespace ArithLexer

open Text (pieces stripTerminator lineStart lineBehind)

/-! ### From the results to the tokens -/

theorem mapM_itemsOf (tokens : List Token) (last : Result) :
    (itemsOf tokens last).mapM id = last.map fun _ => tokens := by
  induction tokens with
  | nil => cases last <;> rfl
  | cons token tokens ih =>
    rw [itemsOf_cons, List.mapM_cons, ih]
    cases last <;> rfl

theorem answering_memoryLines :
    Answering fun (s : Script) (m : MemoryLines) => s.answers = m.lines.map .line := by
  rintro ⟨answers⟩ ⟨lines⟩ (rfl : answers = _)
  cases lines with
  | nil => exact ⟨rfl, rfl⟩
  | cons line lines => exact ⟨rfl, rfl⟩

theorem ends_of_results {text : String} {tokens : List Token} {last : Result}
    (hl : ∀ token, last ≠ given token)
    (h : resultsOf 0 ((Text.lines text).map .line) = tokens.map given ++ [last]) :
    (Lexer.ofSource (MemoryLines.ofText text)).Ends tokens last := by
  refine ⟨?_, hl⟩
  have hf := Lexer.follows_ofSource (R := fun (s : Script) (m : MemoryLines) =>
    s.answers = m.lines.map .line) (s := ⟨(Text.lines text).map .line⟩)
    (t := MemoryLines.ofText text) rfl False
  -- the lines in memory are read as the script of them is
  rw [Lexer.Gives, hf.results answering_memoryLines, ← h, Lexer.gives_resultsOf,
    Result.map_below_zero]

/-! ### Line ends are blanks -/

/-- Nothing is lost with a carriage return at the end. -/
theorem reading_dropFinal_return (l : List Char) : reading (Text.dropFinal '\r' l) = reading l := by
  rcases Text.dropFinal_cases '\r' l with h | ⟨u, rfl, h⟩
  · rw [h]
  · rw [h, reading_concat_blank (by decide)]

/-- The error of the character refused behind `p` in the text `cs`, which follows `n` lines. -/
def textError (n : Nat) (p cs : List Char) (reason : Rejection) : LexError :=
  ⟨reason, ⟨n + 1 + p.count '\n', 1 + (lineStart p).length⟩, lineBehind p cs⟩

/-- What comes behind the tokens of a text that follows `n` lines. -/
def textEnd (n : Nat) (cs : List Char) : Result :=
  match firstRefused cs with
  | none => .ok none
  | some (p, reason) => .error (.rejected (textError n p cs reason))

theorem textEnd_of_none {cs : List Char} (h : firstRefused cs = none) (n : Nat) :
    textEnd n cs = .ok none := by
  rw [textEnd, h]

theorem textEnd_of_some {cs p : List Char} {reason : Rejection}
    (h : firstRefused cs = some (p, reason)) (n : Nat) :
    textEnd n cs = .error (.rejected (textError n p cs reason)) := by
  rw [textEnd, h]

/-- On a line that ends at a line feed or at the end of the text, the refused character is where it
is in the text. -/
theorem textError_line (n : Nat) (reason : Rejection) {p l s rest : List Char} {c : Char}
    (hl : '\n' ∉ l) (hp : l = p ++ c :: s) (hrest : rest.head? = some '\n' ∨ rest = []) :
    textError n p (l ++ rest) reason =
      ⟨reason, ⟨n + 1, 1 + p.length⟩, String.ofList (Text.dropFinal '\r' l)⟩ := by
  -- nothing before the character is a line feed either, so its line is the first
  have hpn : '\n' ∉ p := fun h => hl (hp ▸ List.mem_append_left _ h)
  have hdrop : (l ++ rest).drop p.length = c :: s ++ rest := by
    rw [hp, List.append_assoc, List.drop_left]
  have hline : (c :: s ++ rest).takeWhile (· ≠ '\n') = c :: s := by
    rw [List.takeWhile_append_of_pos]
    · rcases hrest with h | rfl
      · obtain ⟨rest, rfl⟩ := List.head?_eq_some_iff.1 h
        simp
      · simp
    · intro a ha
      simpa using ne_of_mem_of_not_mem (hp ▸ List.mem_append_right p ha) hl
  rw [textError, lineBehind, hdrop, hline, Text.lineStart_of_not_mem hpn, ← hp,
    List.count_eq_zero.2 hpn]

theorem textError_append_feed (n : Nat) (l q rest : List Char) (reason : Rejection) :
    textError n (l ++ '\n' :: q) (l ++ '\n' :: rest) reason =
      textError (n + (1 + l.count '\n')) q rest reason := by
  -- the line feeds in front are counted, and the last line begins behind them on both sides
  have hc : n + 1 + (l ++ '\n' :: q).count '\n' = n + (1 + l.count '\n') + 1 + q.count '\n' := by
    rw [List.count_append, List.count_cons_self]
    omega
  have hd : (l ++ '\n' :: rest).drop (l ++ '\n' :: q).length = rest.drop q.length := by
    simp [List.drop_append, List.drop_eq_nil_of_le]
  rw [textError, textError, hc, Text.lineStart_append_feed, lineBehind, lineBehind, hd,
    Text.lineStart_append_feed]

theorem textError_feed (n : Nat) {l : List Char} (hl : '\n' ∉ l) (q rest : List Char)
    (reason : Rejection) :
    textError n (l ++ '\n' :: q) (l ++ '\n' :: rest) reason = textError (n + 1) q rest reason := by
  rw [textError_append_feed, List.count_eq_zero.2 hl]

/-- The results on the lines of a text are those of the text. -/
theorem resultsOf_pieces (n : Nat) (cs : List Char) :
    resultsOf n ((pieces '\n' cs).map fun p => .line (String.ofList (stripTerminator p))) =
      (reading cs).1.map given ++ [textEnd n cs] := by
  -- line by line; the number of lines before them is general, as it grows
  induction cs using Text.pieces_induction '\n' generalizing n with
  | nil => rfl
  | last l hl hne =>
    -- without a line feed the text is a line, but for a carriage return at its end
    rw [Text.pieces_of_not_mem hl hne, List.map_singleton, resultsOf, String.toList_ofList,
      Text.stripTerminator_of_not_mem hl, lineResults, reading_dropFinal_return, reading_snd]
    cases h : firstRefused l with
    | none => rw [textEnd_of_none h]; rfl
    | some x =>
      obtain ⟨p, reason⟩ := x
      obtain ⟨-, c, s, hp, -⟩ := firstRefused_eq_some_iff.1 h
      have he := textError_line n reason hl hp (.inr rfl)
      rw [List.append_nil] at he
      rw [textEnd_of_some h, he]
  | piece l rest hl ih =>
    rw [Text.pieces_append_stop hl, List.map_cons, resultsOf, String.toList_ofList,
      Text.stripTerminator_concat_feed, lineResults, reading_dropFinal_return, reading_snd, ih]
    cases h : firstRefused l with
    | some x =>
      obtain ⟨p, reason⟩ := x
      obtain ⟨-, c, s, hp, -⟩ := firstRefused_eq_some_iff.1 h
      have he : textError n p (l ++ '\n' :: rest) reason = _ :=
        textError_line n reason hl hp (.inl rfl)
      rw [reading_append_of_some _ h, textEnd_of_some (firstRefused_append_of_some _ h), he]
    | none =>
      -- the line feed is a blank that keeps the line apart from the rest
      have hr := reading_append_blank_cons h (c := '\n') (by decide) rest
      have hf := congrArg Prod.snd hr
      rw [reading_snd, reading_snd] at hf
      rw [hr, reading_of_none h, List.map_append, List.append_assoc]
      cases hq : firstRefused rest with
      | none => rw [textEnd_of_none hq, textEnd_of_none (by rw [hf, hq]; rfl)]
      | some x =>
        rw [textEnd_of_some hq, textEnd_of_some (by rw [hf, hq]; rfl), textError_feed n hl x.1 rest]

/-- A lexer over a text gives the tokens of the text, and then the end or the error of its first
refused character. -/
theorem ends_ofText (text : String) :
    (Lexer.ofSource (MemoryLines.ofText text)).Ends (reading text.toList).1
      (textEnd 0 text.toList) := by
  apply ends_of_results
  · intro token
    rw [textEnd, given]
    split <;> simp
  · rw [← resultsOf_pieces, Text.lines, List.map_map]
    rfl

theorem tokenize_eq (text : String) :
    tokenize text = (textEnd 0 text.toList).map fun _ => (reading text.toList).1 := by
  rw [tokenize, Tokens.drain_of_ends (ends_ofText text), mapM_itemsOf]

theorem tokenize_of_none {text : String} (h : firstRefused text.toList = none) :
    tokenize text = .ok (tokensOf text.toList) := by
  rw [tokenize_eq, textEnd_of_none h, reading_of_none h]
  rfl

theorem tokenize_of_some {text : String} {p : List Char} {reason : Rejection}
    (h : firstRefused text.toList = some (p, reason)) :
    tokenize text = .error (.rejected (textError 0 p text.toList reason)) := by
  rw [tokenize_eq, textEnd_of_some h]
  rfl

end ArithLexer
