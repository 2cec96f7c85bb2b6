import ArithLexer.Proofs.LineNumbers
import ArithLexer.Proofs.Writing

/-!
# The caret under a refused character

A refused character is shown in its line, behind the number of the line, and below it stands a caret. On
the screen a tab goes on to the next of the columns that are `w` apart, and every other character takes
one column, so `screenColumn` follows a line from its start. Two lines come to the same column if they
have their tabs at the same places (`screenColumn_congr`), whatever `w` is.

That a failure is shown on three lines relies on the line of the source having no line feed in it. A
source of bytes never delivers one, and neither does a text in memory (`WithoutFeeds`). The main
statement is `caret_under_refused`.
-/

namespace ArithLexer

open LineSource (told)
open Lexer (counting)
open Text (isBlank pieces stripTerminator dropFinal)

/-! ### Lines without line feeds -/

/-- A source whose lines have no line feeds in them. -/
def WithoutFeeds {S : Type} [LineSource S] (s : S) : Prop :=
  ∀ n text, LineSource.answer s n = .ok (some text) → '\n' ∉ text.toList

theorem withoutFeeds_ofText (text : String) : WithoutFeeds (MemoryLines.ofText text) := by
  intro n line h
  rw [MemoryLines.ofText, MemoryLines.answer_eq, Except.ok.injEq] at h
  exact Text.feed_not_mem_lines (List.mem_of_getElem? h)

theorem ByteStream.feed_not_mem_collect {r s : ByteStream} {got line : List UInt8}
    (h : r.collect got = (.ok line, s)) (hgot : lineFeed ∉ got) : lineFeed ∉ line.dropLast := by
  fun_induction collect r got with
  | case1 r got b bs hb available feed rest hd =>
    -- the only portion that is taken with a line feed, and it is cut behind it
    cases h
    rw [List.dropLast_concat, List.mem_append, not_or]
    exact ⟨hgot, not_mem_takeWhile_ne lineFeed available⟩
  | case2 r got b bs hb available hd ih =>
    refine ih h ?_
    rw [List.mem_append, not_or]
    refine ⟨hgot, fun hm => ?_⟩
    have hall := List.dropWhile_eq_nil_iff.1 hd _ hm
    simp at hall
  | case3 r got hb hs =>
    cases h
    exact fun hm => hgot (List.dropLast_subset _ hm)
  | case4 r got hb cause supply hs hk ih => exact ih h hgot
  | case5 => cases h
  | case6 r got hb content supply hs ht =>
    cases h
    exact fun hm => hgot (List.dropLast_subset _ hm)
  | case7 r got hb content supply hs ht ih => exact ih h hgot

/-- Where a line feed can only be the last byte, it can only be the last character. -/
theorem feed_not_mem_dropLast {text : String} (h : lineFeed ∉ (utf8Bytes text).dropLast) :
    '\n' ∉ text.toList.dropLast := by
  rcases List.eq_nil_or_concat' text.toList with hnil | ⟨init, c, hc⟩
  · simp [hnil]
  · rw [utf8Bytes_eq, hc, List.flatMap_append, List.flatMap_singleton] at h
    have hne : String.utf8EncodeChar c ≠ [] := by
      rw [← List.length_pos_iff, String.length_utf8EncodeChar]
      exact c.utf8Size_pos
    -- all bytes of the characters before the last one are in front of the last byte
    rw [List.dropLast_append_of_ne_nil hne, List.mem_append, not_or, ← utf8Bytes_ofList] at h
    rw [hc, List.dropLast_concat]
    exact mt lineFeed_mem_utf8Bytes_ofList.2 h.1

/-- The lines that are read from bytes are without line feeds, whatever portions they come in. -/
theorem withoutFeeds_byteStream (r : ByteStream) : WithoutFeeds r := by
  intro n line h
  rw [LineSource.answer] at h
  generalize LineSource.after r n = r at h
  change r.next.1 = _ at h
  rw [ByteStream.next] at h
  split at h
  · cases h
  · cases h
  · next b bs s hc =>
    change (ByteStream.decodeLine (b :: bs)).map some = _ at h
    rw [ByteStream.decodeLine] at h
    split at h
    · next text htext =>
      cases h
      -- the bytes of the line have a line feed at most at their end, and so has the text
      have hbytes := ByteStream.feed_not_mem_collect hc List.not_mem_nil
      rw [← utf8Bytes_of_fromUTF8? htext] at hbytes
      rw [String.toList_ofList]
      exact Text.feed_not_mem_stripTerminator (feed_not_mem_dropLast hbytes)
    · cases h

/-! ### Columns of the screen -/

/-- The column behind some characters of a line, where tabs go on to the next multiple of `w`. -/
def screenColumn (w : Nat) (cs : List Char) : Nat :=
  cs.foldl (fun column c => if c = '\t' then (column / w + 1) * w else column + 1) 0

theorem screenColumn_congr {cs ds : List Char} (h : cs.map (· == '\t') = ds.map (· == '\t')) (w : Nat) :
    screenColumn w cs = screenColumn w ds := by
  -- the fold only asks of each character if it is a tab
  have hfold : ∀ cs : List Char, screenColumn w cs = (cs.map (· == '\t')).foldl
      (fun column tab => if tab then (column / w + 1) * w else column + 1) 0 := fun cs => by
    simp only [screenColumn, List.foldl_map, beq_iff_eq]
  rw [hfold, hfold, h]

namespace LexError

/-- What stands in front of the line. -/
def gutter (e : LexError) : List Char := ' ' :: (e.position.line.repr.toList ++ [' ', '|', ' '])

/-- What stands in front of the caret: the gutter with its number left out, and the margin. -/
def indent (e : LexError) : List Char :=
  ' ' :: (List.replicate e.position.line.repr.length ' ' ++ [' ', '|', ' ']) ++ e.margin.toList

theorem feed_not_mem_message (e : LexError) : '\n' ∉ e.message.toList := by
  have hreason : '\n' ∉ e.reason.message.toList := by
    cases e.reason with
    | unacceptable c =>
      -- a line feed that is refused is shown escaped
      refine feed_not_mem_append (by decide) ?_
      simp [Text.quoteChar, Text.enclose, feed_not_mem_escape]
    | numberOverflow => exact feed_not_mem_append (by decide) (feed_not_mem_repr maxNumber)
  have hposition : '\n' ∉ e.position.display.toList :=
    feed_not_mem_append (feed_not_mem_append (feed_not_mem_repr _) (by decide)) (feed_not_mem_repr _)
  exact feed_not_mem_append (feed_not_mem_append hposition (by decide)) hreason

theorem feed_not_mem_gutter (e : LexError) : '\n' ∉ e.gutter := by
  rw [gutter, List.mem_cons, List.mem_append, not_or, not_or]
  exact ⟨by decide, feed_not_mem_repr e.position.line, by decide⟩

/-- In front of the caret stand blanks and the bar of the gutter. -/
theorem mem_indent {e : LexError} {c : Char} (h : c ∈ e.indent) : c ∈ [' ', '|', '\t'] := by
  have hmargin : c ∈ e.margin.toList → c ∈ [' ', '|', '\t'] := by
    simp only [margin, String.toList_ofList, List.mem_map]
    rintro ⟨d, -, rfl⟩
    split <;> decide
  simp only [indent, List.mem_append, List.mem_cons, List.mem_replicate] at h
  grind

theorem feed_not_mem_caretLine (e : LexError) : '\n' ∉ e.indent ++ ['^'] := by
  rw [List.mem_append, not_or]
  exact ⟨fun h => absurd (mem_indent h) (by decide), by decide⟩

theorem pieces_render (e : LexError) (h : '\n' ∉ e.line.toList) :
    pieces '\n' e.render.toList =
      [e.message.toList ++ ['\n'], e.gutter ++ e.line.toList ++ ['\n'], e.indent ++ ['^']] := by
  have hrender : e.render.toList =
      e.message.toList ++ '\n' :: (e.gutter ++ e.line.toList ++ '\n' :: (e.indent ++ ['^'])) := by
    simp [render, gutter, indent]
  have hline : '\n' ∉ e.gutter ++ e.line.toList := by
    rw [List.mem_append, not_or]
    exact ⟨e.feed_not_mem_gutter, h⟩
  -- each of the two line feeds ends a piece, as none is in front of it
  rw [hrender, Text.pieces_append_stop e.feed_not_mem_message, Text.pieces_append_stop hline,
    Text.pieces_of_not_mem e.feed_not_mem_caretLine (by simp)]

/-- In front of the caret there are tabs where there are some in front of the refused character. -/
theorem screenColumn_indent {e : LexError} {before behind : List Char}
    (hl : e.line.toList = before ++ behind) (hc : e.position.column = 1 + before.length) (w : Nat) :
    screenColumn w e.indent = screenColumn w (e.gutter ++ before) := by
  have hmargin : e.margin.toList = before.map fun c => if c = '\t' then '\t' else ' ' := by
    rw [margin, String.toList_ofList, hl, hc, Nat.add_sub_cancel_left, List.take_left]
  -- a number has no tabs, so blanks can stand for its digits
  have hnumber : e.position.line.repr.toList.map (· == '\t') =
      List.replicate e.position.line.repr.length false := by
    rw [← String.length_toList, ← List.map_const', List.map_inj_left]
    intro c hc
    rw [Nat.toList_repr] at hc
    have hdigit := Nat.isDigit_of_mem_toDigits (by decide) (by decide) hc
    rw [beq_eq_false_iff_ne]
    rintro rfl
    exact absurd hdigit (by decide)
  have hbefore : e.margin.toList.map (· == '\t') = before.map (· == '\t') := by
    rw [hmargin, List.map_map, List.map_inj_left]
    intro c _
    simp only [Function.comp]
    split <;> simp_all
  refine screenColumn_congr ?_ w
  rw [indent, gutter, List.map_append, List.map_append, hbefore]
  simp only [List.map_cons, List.map_append, List.map_replicate, hnumber]
  rfl

end LexError

/-! ### The refused character -/

/-- `Refused before c reason` says why the character `c` is refused behind `before`: it belongs to no
token and is no blank, or it is the digit that takes the number before it above the limit. -/
inductive Refused (before : List Char) (c : Char) : Rejection → Prop
  | unacceptable : isBlank c = false → isDigit c = false → isOperatorChar c = false →
      Refused before c (.unacceptable c)
  | numberOverflow : isDigit c = true → numeralValue (lastDigits before) ≤ maxNumber →
      maxNumber < numeralValue (lastDigits before ++ [c]) → Refused before c .numberOverflow

theorem refused_of_refusal? {before : List Char} {c : Char} {reason : Rejection}
    (h : refusal? before c = some reason) : Refused before c reason := by
  rcases class_cases c with hb | hd | ho | ⟨hb, hd, ho⟩
  · simp [refusal?_blank hb] at h
  · rw [refusal?_digit hd] at h
    split at h
    · next hv =>
      cases h
      exact .numberOverflow hd hv.1 hv.2
    · cases h
  · simp [refusal?_operator ho] at h
  · rw [refusal?_other hb hd ho] at h
    cases h
    exact .unacceptable hb hd ho

theorem exists_answer_of_last {S : Type} [LineSource S] {s : S} {k : Nat} {text : String}
    (h : (told s k).getLast? = some (.line text)) : ∃ i, LineSource.answer s i = .ok (some text) := by
  obtain ⟨i, -, hi⟩ := List.mem_map.1 (List.mem_of_getLast? h)
  refine ⟨i, ?_⟩
  generalize LineSource.answer s i = r at hi
  match r, hi with
  | .ok (some text'), hi =>
    cases hi
    rfl

/-- Every refused character can be found on the screen: it stands on the last line that the source has
delivered, the failure is shown on three lines, of which the second shows that line, and the only caret on
the third has the column of the refused character. The source may be any that delivers lines without line
feeds, as texts and streams of bytes do, and the failure that of any request. -/
theorem caret_under_refused :
    (∀ text, WithoutFeeds (MemoryLines.ofText text)) ∧ (∀ r : ByteStream, WithoutFeeds r) ∧
    ∀ (S : Type) [LineSource S] (s : S), WithoutFeeds s → ∀ n e,
      ((counting s).after n).next.result = .error (.rejected e) →
      (told s ((counting s).after (n + 1)).pulls).getLast? = some (.line e.line) ∧
      ∃ before c behind indent, e.line.toList = before ++ c :: behind ∧
        e.position.column = 1 + before.length ∧ Refused before c e.reason ∧
        pieces '\n' e.render.toList = [e.message.toList ++ ['\n'],
          e.gutter ++ before ++ c :: behind ++ ['\n'], indent ++ ['^']] ∧
        '^' ∉ indent ∧ ∀ w, screenColumn w indent = screenColumn w (e.gutter ++ before) := by
  refine ⟨withoutFeeds_ofText, withoutFeeds_byteStream, fun S _ s hs n e h => ?_⟩
  obtain ⟨hlast, -⟩ := Lexer.failure_of_request h
  -- the line of the failure was delivered by the source, so there is no line feed in it
  obtain ⟨i, hi⟩ := exists_answer_of_last hlast
  obtain ⟨before, c, behind, hline, hcolumn, hr⟩ := Lexer.refusal_of_request h
  refine ⟨hlast, before, c, behind, e.indent, hline, hcolumn, refused_of_refusal? hr, ?_, ?_, ?_⟩
  · rw [e.pieces_render (hs i e.line hi), hline]
    simp
  · exact fun hm => absurd (LexError.mem_indent hm) (by decide)
  · exact LexError.screenColumn_indent hline hcolumn

/-- Behind a tab and a number, the caret stands below the sign that is refused, whatever a tab takes. -/
theorem caret_under_refused_behind_tab :
    let s := MemoryLines.ofText "1\n\t12@\n"
    let x := counting s
    let e := LexError.mk (.unacceptable '@') ⟨2, 4⟩ "\t12@"
    (x.after 1).next.result = .error (.rejected e) ∧
      (told s (x.after 2).pulls).getLast? = some (.line e.line) ∧
      ∃ before c behind indent, e.line.toList = before ++ c :: behind ∧
        e.position.column = 1 + before.length ∧ Refused before c e.reason ∧
        pieces '\n' e.render.toList = [e.message.toList ++ ['\n'],
          e.gutter ++ before ++ c :: behind ++ ['\n'], indent ++ ['^']] ∧
        '^' ∉ indent ∧ ∀ w, screenColumn w indent = screenColumn w (e.gutter ++ before) := by
  intro s x e
  have hcourse : (x.course 8).1 = [given (.number 1), .error (.rejected e)] := by decide +kernel
  have hx := x.gives_course 8
  rw [hcourse, Lexer.gives_cons_iff, Lexer.gives_cons_iff] at hx
  have he : (x.after 1).next.result = .error (.rejected e) := hx.2.1
  exact ⟨he, caret_under_refused.2.2 _ _ (withoutFeeds_ofText _) 1 e he⟩

end ArithLexer
