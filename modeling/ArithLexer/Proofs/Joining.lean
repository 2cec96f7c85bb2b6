import ArithLexer.Proofs.Lines
import ArithLexer.Proofs.Sources

/-!
# Joining lines

Lines are joined to a text by writing a terminator behind each of them: a line feed, or a carriage return
and a line feed. A last line can go without. Cutting the text gives the lines back (`Text.lines_joined`).

The other way round, every text is cut into lines and endings. `Text.Cut` says how one piece of a text is
cut: a carriage return at the end of a line always goes with the ending. The main statement,
`MemoryLines.ofText_undoes_joining`, is about whole texts, in both directions.
-/

namespace ArithLexer
namespace Text

/-! ### From lines to a text -/

/-- What is written behind a line to end it. -/
inductive Terminator where
  | feed
  | returnFeed
deriving DecidableEq, Repr

def Terminator.text : Terminator → String
  | feed => "\n"
  | returnFeed => "\r\n"

/-- `IsLine line` says that `line` can be told from the terminator behind it. -/
structure IsLine (line : String) : Prop where
  without_feed : '\n' ∉ line.toList
  without_return : line.toList.getLast? ≠ some '\r'

/-- The text of some lines with their terminators, and of a last line without one. If that line is
empty, the text ends behind the others. -/
def joined (terminated : List (String × Terminator)) (last : String) : String :=
  String.join (terminated.map fun l => l.1 ++ l.2.text) ++ last

theorem joined_cons (line : String) (terminator : Terminator) (ls : List (String × Terminator))
    (last : String) :
    joined ((line, terminator) :: ls) last = line ++ terminator.text ++ joined ls last := by
  rw [joined, List.map_cons, String.join_cons, String.append_assoc, joined]

theorem lines_append_feed {line : String} (h : '\n' ∉ line.toList) (rest : String) :
    lines (line ++ "\n" ++ rest) =
      String.ofList (dropFinal '\r' line.toList) :: lines rest := by
  have hcs : (line ++ "\n" ++ rest).toList = line.toList ++ '\n' :: rest.toList := by simp
  rw [lines, hcs, pieces_append_stop h, List.map_cons, stripTerminator_concat_feed, lines]

theorem lines_of_not_mem {line : String} (h : '\n' ∉ line.toList) (hne : line ≠ "") :
    lines line = [String.ofList (dropFinal '\r' line.toList)] := by
  have hcs : line.toList ≠ [] := fun hnil => hne (String.toList_eq_nil_iff.1 hnil)
  rw [lines, pieces_of_not_mem h hcs, List.map_singleton, stripTerminator_of_not_mem h]

/-- Cutting gives back the lines that were joined, whatever their terminators were. -/
theorem lines_joined {terminated : List (String × Terminator)} {last : String}
    (h : ∀ l ∈ terminated, IsLine l.1) (hlast : IsLine last) :
    lines (joined terminated last) =
      terminated.map Prod.fst ++ if last = "" then [] else [last] := by
  induction terminated with
  | nil =>
    have hnil : joined [] last = last := String.empty_append
    rw [hnil, List.map_nil, List.nil_append]
    -- a last line that is empty cannot be told from none
    split
    · next hempty => rw [hempty]; rfl
    · next hne =>
      rw [lines_of_not_mem hlast.without_feed hne, dropFinal_of_getLast?_ne hlast.without_return,
        String.ofList_toList]
  | cons l ls ih =>
    obtain ⟨line, terminator⟩ := l
    obtain ⟨hline, hls⟩ := List.forall_mem_cons.1 h
    rw [joined_cons, List.map_cons, List.cons_append, ← ih hls]
    cases terminator with
    | feed =>
      rw [Terminator.text, lines_append_feed hline.without_feed,
        dropFinal_of_getLast?_ne hline.without_return, String.ofList_toList]
    | returnFeed =>
      -- the carriage return goes with the line until it is cut off
      have hsplit : line ++ "\r\n" = line ++ "\r" ++ "\n" := by
        rw [String.append_assoc]
        rfl
      have hreturn : (line ++ "\r").toList = line.toList ++ ['\r'] := by simp
      have hfeed : '\n' ∉ (line ++ "\r").toList := by
        simpa [hreturn] using hline.without_feed
      rw [Terminator.text, hsplit, lines_append_feed hfeed, hreturn, dropFinal_concat,
        String.ofList_toList]

/-! ### From a text to lines -/

def ending (p : List Char) : List Char := p.drop (stripTerminator p).length

/-- The endings of the lines of a text, in order. -/
def endings (text : String) : List String :=
  (pieces '\n' text.toList).map fun p => String.ofList (ending p)

/-- How a line `l` is cut off a piece, with `e` left behind it: `e` is a line feed if the piece has one,
and a carriage return in front of it or in its place; and no carriage return is left at the end of `l`
if none is taken off. -/
structure Cut (p l e : List Char) : Prop where
  piece : p = l ++ e
  ending : if p.getLast? = some '\n' then e = ['\n'] ∨ e = ['\r', '\n'] else e = [] ∨ e = ['\r']
  greedy : '\r' ∉ e → l.getLast? ≠ some '\r'

theorem exists_cut (p : List Char) : ∃ e, Cut p (stripTerminator p) e := by
  -- whether there is a line feed, and then whether there is a carriage return in front
  by_cases hfeed : p.getLast? = some '\n'
  · obtain ⟨q, hq⟩ := List.getLast?_eq_some_iff.1 hfeed
    have hstrip : stripTerminator p = dropFinal '\r' q := by rw [hq, stripTerminator_concat_feed]
    by_cases hreturn : q.getLast? = some '\r'
    · obtain ⟨l, hl⟩ := List.getLast?_eq_some_iff.1 hreturn
      rw [hstrip, hl, dropFinal_concat]
      exact ⟨['\r', '\n'], by simp [hq, hl], by simp [hfeed], by simp⟩
    · rw [hstrip, dropFinal_of_getLast?_ne hreturn]
      exact ⟨['\n'], hq, by simp [hfeed], fun _ => hreturn⟩
  · have hstrip : stripTerminator p = dropFinal '\r' p := by
      rw [stripTerminator, dropFinal_of_getLast?_ne hfeed]
    rw [hstrip]
    by_cases hreturn : p.getLast? = some '\r'
    · obtain ⟨l, hl⟩ := List.getLast?_eq_some_iff.1 hreturn
      refine ⟨['\r'], ?_, by simp [hfeed], by simp⟩
      rw [hl, dropFinal_concat]
    · rw [dropFinal_of_getLast?_ne hreturn]
      exact ⟨[], (List.append_nil p).symm, by simp [hfeed], fun _ => hreturn⟩

theorem cut_ending (p : List Char) : Cut p (stripTerminator p) (ending p) := by
  obtain ⟨e, he⟩ := exists_cut p
  -- what is left behind the line is determined by the piece and the line
  have heq : ending p = e := by
    have hdrop := congrArg (List.drop (stripTerminator p).length) he.piece
    rwa [List.drop_left] at hdrop
  exact heq ▸ he

section
variable {α : Type} [DecidableEq α] {stop : α} {as p : List α}

theorem getLast?_of_mem_dropLast_pieces (h : p ∈ (pieces stop as).dropLast) :
    p.getLast? = some stop := by
  induction as using pieces_induction stop with
  | nil => simp [pieces] at h
  | last l hl hne => simp [pieces_of_not_mem hl hne] at h
  | piece l rest hl ih =>
    rw [pieces_append_stop hl] at h
    -- the piece is the last one if nothing is behind its stop
    by_cases hrest : pieces stop rest = []
    · simp [hrest] at h
    · rw [List.dropLast_cons_of_ne_nil hrest] at h
      rcases List.mem_cons.1 h with rfl | h
      · exact List.getLast?_concat
      · exact ih h

/-- The last piece ends as the whole list does. -/
theorem getLast?_of_mem_getLast?_pieces (h : p ∈ (pieces stop as).getLast?) :
    p.getLast? = as.getLast? := by
  obtain ⟨earlier, he⟩ := List.getLast?_eq_some_iff.1 h
  have hp : p ≠ [] := ne_nil_of_mem_pieces (List.mem_of_getLast? h)
  rw [← flatten_pieces stop as, he, List.flatten_append, List.flatten_singleton,
    List.getLast?_append_of_ne_nil _ hp]

/-- There is one piece for each stop, and one for what is behind the last of them. -/
theorem length_pieces (stop : α) (as : List α) :
    (pieces stop as).length =
      as.count stop + if as ≠ [] ∧ as.getLast? ≠ some stop then 1 else 0 := by
  induction as using pieces_induction stop with
  | nil => rfl
  | last l hl hne =>
    have hlast : l.getLast? ≠ some stop := fun h => hl (List.mem_of_getLast? h)
    rw [pieces_of_not_mem hl hne, List.count_eq_zero_of_not_mem hl, if_pos ⟨hne, hlast⟩]
    rfl
  | piece l rest hl ih =>
    have hcount : (l ++ stop :: rest).count stop = rest.count stop + 1 := by
      rw [List.count_append, List.count_eq_zero_of_not_mem hl, List.count_cons_self, Nat.zero_add]
    -- the list goes on behind its last stop exactly if the rest does
    have hlast : (l ++ stop :: rest ≠ [] ∧ (l ++ stop :: rest).getLast? ≠ some stop) ↔
        rest ≠ [] ∧ rest.getLast? ≠ some stop := by
      cases rest with
      | nil => simp
      | cons a rest => simp [List.getLast?_append]
    rw [pieces_append_stop hl, List.length_cons, ih, hcount]
    simp only [hlast]
    omega

end

/-- The lines and the endings of a text, one behind the other, are the text. -/
theorem join_lines_endings (text : String) :
    String.join (List.zipWith (· ++ ·) (lines text) (endings text)) = text := by
  have hpiece : ∀ p ∈ pieces '\n' text.toList,
      String.ofList (stripTerminator p) ++ String.ofList (ending p) = String.ofList p := by
    intro p _
    rw [← String.ofList_append, ← (cut_ending p).piece]
  -- a line with its ending is the piece that it was cut off
  have hzip : List.zipWith (· ++ ·) (lines text) (endings text) =
      (pieces '\n' text.toList).map String.ofList := by
    rw [lines, endings, List.zipWith_map, List.zipWith_self]
    exact List.map_congr_left hpiece
  rw [hzip, ← String.toList_inj, String.toList_join, List.flatMap_map]
  simp only [String.toList_ofList, List.flatMap_id', flatten_pieces]

theorem length_endings (text : String) : (endings text).length = (lines text).length := by
  rw [endings, lines, List.length_map, List.length_map]

theorem terminates_of_mem_dropLast {text e : String} (h : e ∈ (endings text).dropLast) :
    e = "\n" ∨ e = "\r\n" := by
  rw [endings, ← List.map_dropLast] at h
  obtain ⟨p, hp, rfl⟩ := List.mem_map.1 h
  have hcut := (cut_ending p).ending
  rw [if_pos (getLast?_of_mem_dropLast_pieces hp)] at hcut
  rcases hcut with h | h <;> simp [h]

/-- The last ending is a terminator like the others, unless the text goes on behind its last line feed. -/
theorem last_ending {text e : String} (h : e ∈ (endings text).getLast?) :
    if text.toList.getLast? = some '\n' then e = "\n" ∨ e = "\r\n" else e = "" ∨ e = "\r" := by
  rw [endings, List.getLast?_map] at h
  obtain ⟨p, hp, rfl⟩ := Option.map_eq_some_iff.1 h
  have hcut := (cut_ending p).ending
  rw [getLast?_of_mem_getLast?_pieces hp] at hcut
  split
  · next hfeed =>
    rw [if_pos hfeed] at hcut
    rcases hcut with h | h <;> simp [h]
  · next hfeed =>
    rw [if_neg hfeed] at hcut
    rcases hcut with h | h <;> simp [h]

theorem no_return_of_mem_zip {text : String} {l : String × String}
    (h : l ∈ (lines text).zip (endings text)) (he : '\r' ∉ l.2.toList) :
    l.1.toList.getLast? ≠ some '\r' := by
  rw [lines, endings, List.zip_map'] at h
  obtain ⟨p, -, rfl⟩ := List.mem_map.1 h
  rw [String.toList_ofList] at he ⊢
  exact (cut_ending p).greedy he

theorem length_lines (text : String) :
    (lines text).length = text.toList.count '\n' +
      if text ≠ "" ∧ text.toList.getLast? ≠ some '\n' then 1 else 0 := by
  have hne : text ≠ "" ↔ text.toList ≠ [] := not_congr String.toList_eq_nil_iff.symm
  simp only [hne]
  rw [lines, List.length_map, length_pieces]

end Text

/-- Cutting a text into lines undoes joining lines to a text: whatever the terminators are, the lines that
were joined are the lines of the text, which a source gives one after the other. And every text is its
lines joined by what was taken off them. No line has a line feed; there are as many lines as line feeds,
and one more if the text goes on behind the last of them; what was taken off is a line feed, with or
without a carriage return before it, and behind a last line without a line feed it is a carriage return or
nothing. No carriage return was left at the end of a line if none was taken off. -/
theorem MemoryLines.ofText_undoes_joining :
    (∀ (terminated : List (String × Text.Terminator)) (last : String),
      (∀ l ∈ terminated, Text.IsLine l.1) → Text.IsLine last →
      (ofText (Text.joined terminated last)).lines =
        terminated.map Prod.fst ++ if last = "" then [] else [last]) ∧
    ∀ text, let ls := (ofText text).lines
      let es := Text.endings text
      (∀ n, LineSource.answer (ofText text) n = .ok ls[n]?) ∧
      (∀ line ∈ ls, '\n' ∉ line.toList) ∧
      ls.length = text.toList.count '\n' +
        (if text ≠ "" ∧ text.toList.getLast? ≠ some '\n' then 1 else 0) ∧
      es.length = ls.length ∧ String.join (List.zipWith (· ++ ·) ls es) = text ∧
      (∀ e ∈ es.dropLast, e = "\n" ∨ e = "\r\n") ∧
      (∀ e ∈ es.getLast?,
        if text.toList.getLast? = some '\n' then e = "\n" ∨ e = "\r\n" else e = "" ∨ e = "\r") ∧
      ∀ l ∈ ls.zip es, '\r' ∉ l.2.toList → l.1.toList.getLast? ≠ some '\r' := by
  refine ⟨fun terminated last => Text.lines_joined, ?_⟩
  intro text ls es
  exact ⟨answer_eq ls, fun line => Text.feed_not_mem_lines, Text.length_lines text,
    Text.length_endings text, Text.join_lines_endings text, fun e => Text.terminates_of_mem_dropLast,
    fun e => Text.last_ending, fun l => Text.no_return_of_mem_zip⟩

/-- A carriage return in a line is no terminator, and neither is a second one at its end. -/
theorem MemoryLines.ofText_undoes_joining_returns :
    (ofText "a\r\n\nb\rc\nd").lines = ["a", "", "b\rc", "d"] ∧
      (ofText "a\r\r\n\r").lines = ["a\r", ""] ∧ Text.endings "a\r\r\n\r" = ["\r\n", "\r"] ∧
      String.join (List.zipWith (· ++ ·) ["a\r", ""] ["\r\n", "\r"]) = "a\r\r\n\r" := by
  have hlines : ∀ l ∈ [("a", Text.Terminator.returnFeed), ("", .feed), ("b\rc", .feed)],
      Text.IsLine l.1 := by
    simp only [List.forall_mem_cons]
    exact ⟨⟨by decide, by decide⟩, ⟨by decide, by decide⟩, ⟨by decide, by decide⟩, by simp⟩
  have hlast : Text.IsLine "d" := ⟨by decide, by decide⟩
  have hjoined := ofText_undoes_joining.1 _ _ hlines hlast
  have hls : (ofText "a\r\r\n\r").lines = ["a\r", ""] := by decide +kernel
  have hes : Text.endings "a\r\r\n\r" = ["\r\n", "\r"] := by decide +kernel
  obtain ⟨-, -, -, -, hjoin, -⟩ := ofText_undoes_joining.2 "a\r\r\n\r"
  rw [hls, hes] at hjoin
  exact ⟨hjoined, hls, hes, hjoin⟩

end ArithLexer
