import ArithLexer.Proofs.Tokenize

/-!
# One text after another

A line feed between two texts is a clean cut: the items are those of the first text and then those of
the second, whose error is as many lines further down as the first text has lines. If the first text
ends in an error, what comes behind the line feed is not read. The main statement,
`textItems_append_feed`, is about all pairs of texts, so about a first text that ends in a carriage
return, within a token or in empty lines, too.

No token is cut or joined there as a line feed is a blank (`reading_append_blank_cons`), and the error
of either text is the same in both (`textError_append_feed`, `textError_of_prefix`).
-/

namespace ArithLexer

open Text (lineStart lineBehind)

/-- The items of a text: its tokens in order, and then its error, if it has one. -/
def textItems (text : String) : List (Except LexFailure Token) :=
  (Tokens.mk (Lexer.ofSource (MemoryLines.ofText text)) false).drain.1

/-- An item that comes `k` lines further down. -/
def itemBelow (k : Nat) (item : Except LexFailure Token) : Except LexFailure Token :=
  item.mapError (LexFailure.below k)

theorem textItems_eq (text : String) :
    textItems text = itemsOf (reading text.toList).1 (textEnd 0 text.toList) :=
  Tokens.drain_of_ends (ends_ofText text)

/-! ### Items side by side -/

theorem itemsOf_append (tokens tokens' : List Token) (last : Result) :
    itemsOf (tokens ++ tokens') last = itemsOf tokens (.ok none) ++ itemsOf tokens' last := by
  simp [itemsOf]

theorem map_itemBelow_itemsOf (k : Nat) (tokens : List Token) (last : Result) :
    (itemsOf tokens last).map (itemBelow k) = itemsOf tokens (last.below k) := by
  induction tokens with
  | nil => cases last <;> rfl
  | cons token tokens ih =>
    rw [itemsOf_cons, List.map_cons, ih, itemsOf_cons]
    rfl

theorem all_isOk_itemsOf (tokens : List Token) (last : Result) :
    (itemsOf tokens last).all Except.isOk = last.isOk := by
  induction tokens with
  | nil => cases last <;> rfl
  | cons token tokens ih =>
    rw [itemsOf_cons, List.all_cons, ih]
    rfl

theorem isOk_textEnd (cs : List Char) : (textEnd 0 cs).isOk = (firstRefused cs).isNone := by
  rw [textEnd]
  cases firstRefused cs <;> rfl

/-! ### The error on either side -/

/-- The error of a text that comes further down. -/
theorem below_textEnd (k : Nat) (cs : List Char) : (textEnd 0 cs).below k = textEnd (0 + k) cs := by
  rw [textEnd, textEnd]
  cases firstRefused cs with
  | none => rfl
  | some x =>
    -- only the line of the error is changed, and the two sums for it are the same
    have hline : 0 + 1 + x.1.count '\n' + k = 0 + k + 1 + x.1.count '\n' := by omega
    show Except.error (LexFailure.rejected ⟨_, ⟨0 + 1 + x.1.count '\n' + k, _⟩, _⟩) = _
    rw [hline]
    rfl

/-- What comes behind a line feed does not belong to the line of an error in front of it. -/
theorem textError_of_prefix (n : Nat) {p s : List Char} (reason : Rejection) (rest : List Char) :
    textError n p (p ++ s ++ '\n' :: rest) reason = textError n p (p ++ s) reason := by
  -- the line of the error is taken up to the first line feed, which is in `s` or right behind it
  have hline : (s ++ '\n' :: rest).takeWhile (· ≠ '\n') = s.takeWhile (· ≠ '\n') := by
    induction s with
    | nil => simp
    | cons c s ih => simp only [List.cons_append, List.takeWhile_cons, ih]
  rw [textError, textError, lineBehind, lineBehind, List.append_assoc, List.drop_left, List.drop_left,
    hline]

theorem textEnd_append_of_some {cs : List Char} {x : List Char × Rejection}
    (h : firstRefused cs = some x) (n : Nat) (rest : List Char) :
    textEnd n (cs ++ '\n' :: rest) = textEnd n cs := by
  obtain ⟨p, reason⟩ := x
  obtain ⟨-, c, s, rfl, -⟩ := firstRefused_eq_some_iff.1 h
  rw [textEnd_of_some h, textEnd_of_some (firstRefused_append_of_some _ h), textError_of_prefix]

/-- If nothing is refused in the first text, the error is that of the second, further down. -/
theorem textEnd_append_of_none {cs : List Char} (h : firstRefused cs = none) (n : Nat)
    (rest : List Char) :
    textEnd n (cs ++ '\n' :: rest) = textEnd (n + (1 + cs.count '\n')) rest := by
  have hf := congrArg Prod.snd (reading_append_blank_cons h (c := '\n') (by decide) rest)
  rw [reading_snd, reading_snd] at hf
  cases hq : firstRefused rest with
  | none => rw [textEnd_of_none hq, textEnd_of_none (by rw [hf, hq]; rfl)]
  | some x =>
    rw [textEnd_of_some hq, textEnd_of_some (by rw [hf, hq]; rfl), textError_append_feed]

/-! ### The cut -/

/-- A line feed between two texts is a clean cut. If there is no error among the items of the first
text, the items of the second follow, and its error is further down by the lines of the first text and
otherwise the same; if there is one, nothing follows. -/
theorem textItems_append_feed (a b : String) :
    textItems (a ++ "\n" ++ b) =
      if (textItems a).all Except.isOk then
        textItems a ++ (textItems b).map (itemBelow (1 + a.toList.count '\n'))
      else textItems a := by
  have hcs : (a ++ "\n" ++ b).toList = a.toList ++ '\n' :: b.toList := by
    simp
  -- whether there is an error among the items only depends on the first refused character
  rw [textItems_eq, textItems_eq a, textItems_eq b, hcs, all_isOk_itemsOf, isOk_textEnd]
  cases h : firstRefused a.toList with
  | none =>
    have hr := reading_append_blank_cons h (c := '\n') (by decide) b.toList
    show _ = itemsOf (reading a.toList).1 (textEnd 0 a.toList) ++ List.map _ _
    rw [hr, reading_of_none h, textEnd_of_none h, textEnd_append_of_none h, map_itemBelow_itemsOf,
      below_textEnd, itemsOf_append]
  | some x =>
    show _ = itemsOf (reading a.toList).1 (textEnd 0 a.toList)
    rw [reading_append_of_some _ h, textEnd_append_of_some h]

/-- The carriage returns belong to the ends of the lines, and both lines of the first text count. -/
example : textItems ("1\r\n\r" ++ "\n" ++ "2@") =
    [.ok (.number 1), .error (.rejected ⟨.unacceptable '@', ⟨3, 2⟩, "2@"⟩)] := by
  rw [textItems_eq]
  decide +kernel

end ArithLexer
