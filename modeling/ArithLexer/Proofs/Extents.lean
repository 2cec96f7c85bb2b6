import ArithLexer.Proofs.Places

/-!
# Where tokens stand

A token that a request gives stands on one line, right before the place that the request leaves the
lexer at. An `Extent` cuts that line into what is before the token, the characters of the token, and
what is behind it; `Extent.Bounds` says that these characters are the token, and that it could not be
longer on either side.

`Lexer.Scans` follows a lexer through one request: since it stood where the request found it, it has
passed over nothing but blanks. The main statement, `token_extents`, says for all requests to a lexer
where the tokens stand and that nothing but blanks is between them, before them and behind them.
-/

namespace ArithLexer

open LineSource (told)
open Text (isBlank)

/-! ### The characters of some lines -/

/-- The character at a coordinate of some lines, if there is one. -/
def characterAt? (lines : List String) : Coordinate → Option Char
  | ⟨l + 1, k + 1⟩ => lines[l]?.bind fun line => line.toList[k]?
  | _ => none

/-- From `p` on, and before `q`, there are only blanks on the lines. -/
def BlankBetween (lines : List String) (p q : Coordinate) : Prop :=
  ∀ r c, characterAt? lines r = some c → p.rank ≤ r.rank → r.rank < q.rank → isBlank c = true

/-- From `p` on there are only blanks on the lines. -/
def BlankFrom (lines : List String) (p : Coordinate) : Prop :=
  ∀ r c, characterAt? lines r = some c → p.rank ≤ r.rank → isBlank c = true

section
variable {lines : List String} {p q r : Coordinate} {c : Char} {n : Nat}

theorem characterAt?_eq_some_iff :
    characterAt? lines r = some c ↔
      ∃ l k line, r = ⟨l + 1, k + 1⟩ ∧ lines[l]? = some line ∧ line.toList[k]? = some c := by
  constructor
  · intro h
    unfold characterAt? at h
    split at h
    · next l k =>
      obtain ⟨line, hl, hk⟩ := Option.bind_eq_some_iff.1 h
      exact ⟨l, k, line, rfl, hl, hk⟩
    · cases h
  · rintro ⟨l, k, line, rfl, hl, hk⟩
    exact Option.bind_eq_some_iff.2 ⟨line, hl, hk⟩

theorem characterAt?_append (more : List String) (h : r.line ≤ lines.length) :
    characterAt? (lines ++ more) r = characterAt? lines r := by
  match r, h with
  | ⟨0, _⟩, _ => rfl
  | ⟨_ + 1, 0⟩, _ => rfl
  | ⟨l + 1, k + 1⟩, h => rw [characterAt?, characterAt?, List.getElem?_append_left h]

/-- Where the last line ends before the column, there is nothing behind it. -/
theorem BlankBetween.blankFrom (h : BlankBetween lines p ⟨lines.length, 1 + n⟩)
    (hlast : ∀ line ∈ lines.getLast?, line.length ≤ n) : BlankFrom lines p := by
  intro r c hr hp
  refine h r c hr hp (Coordinate.rank_lt_iff.2 ?_)
  obtain ⟨l, k, line, rfl, hl, hk⟩ := characterAt?_eq_some_iff.1 hr
  obtain ⟨hlt, -⟩ := List.getElem?_eq_some_iff.1 hl
  -- on an earlier line, or on the last one, which has no more than `n` characters
  rcases Nat.lt_or_ge (l + 1) lines.length with hbefore | hge
  · exact .inl hbefore
  · obtain ⟨hklt, -⟩ := List.getElem?_eq_some_iff.1 hk
    have heq : l + 1 = lines.length := Nat.le_antisymm hlt hge
    have hle : line.length ≤ n := by
      refine hlast line ?_
      rw [List.getLast?_eq_getElem?, ← heq, Nat.add_sub_cancel, Option.mem_def, hl]
    rw [String.length_toList] at hklt
    refine .inr ⟨heq, ?_⟩
    show k + 1 < 1 + n
    omega

theorem BlankFrom.append_empty (h : BlankFrom lines p) (n : Nat) :
    BlankFrom (lines ++ List.replicate n "") p := by
  intro r c hr hp
  rcases Nat.lt_or_ge lines.length r.line with hbehind | hle
  · obtain ⟨l, k, line, rfl, hl, hk⟩ := characterAt?_eq_some_iff.1 hr
    rw [List.getElem?_append_right (Nat.le_of_lt_succ hbehind)] at hl
    obtain rfl : line = "" := List.eq_of_mem_replicate (List.mem_of_getElem? hl)
    simp at hk
  · rw [characterAt?_append _ hle] at hr
    exact h r c hr hp

/-- The head of a new line comes right behind the lines before it. -/
theorem BlankFrom.between (h : BlankFrom lines p) (line : String) :
    BlankBetween (lines ++ [line]) p ⟨lines.length + 1, 1⟩ := by
  intro r c hr hp hlt
  have hle : r.line ≤ lines.length := by
    obtain ⟨l, k, line, rfl, -, -⟩ := characterAt?_eq_some_iff.1 hr
    have hlt := Coordinate.rank_lt_iff.1 hlt
    simp only at hlt ⊢
    omega
  rw [characterAt?_append _ hle] at hr
  exact h r c hr hp

theorem BlankBetween.nextColumn (h : BlankBetween lines p q)
    (hq : ∀ c, characterAt? lines q = some c → isBlank c = true) :
    BlankBetween lines p q.nextColumn := by
  intro r c hr hp hlt
  rcases Coordinate.rank_lt_iff.1 hlt with hl | ⟨hl, hk⟩
  · exact h r c hr hp (Coordinate.rank_lt_iff.2 (.inl hl))
  · rcases Nat.lt_or_eq_of_le (Nat.le_of_lt_succ hk) with hlt | heq
    · exact h r c hr hp (Coordinate.rank_lt_iff.2 (.inr ⟨hl, hlt⟩))
    · obtain rfl : r = q := Coordinate.ext hl heq
      exact hq c hr

end

/-! ### Extents -/

/-- Whether tokens of this kind are made of such characters. -/
def Token.hasClass : Token → Char → Bool
  | .number _ => isDigit
  | .operator _ => isOperatorChar

/-- Whether tokens of the other kind are made of such characters. -/
def Token.otherClass : Token → Char → Bool
  | .number _ => isOperatorChar
  | .operator _ => isDigit

/-- Some neighbouring characters of a line: the number of the line, what is before them on it, and what
is behind them. -/
structure Extent where
  number : Nat
  before : List Char
  text : List Char
  behind : List Char

namespace Extent

/-- The coordinate of the first character. -/
def start (e : Extent) : Coordinate := ⟨e.number, 1 + e.before.length⟩

/-- The coordinate right behind the last character. -/
def stop (e : Extent) : Coordinate := ⟨e.number, 1 + (e.before ++ e.text).length⟩

/-- `e.Bounds lines token` says that the token is written on the lines at `e`, and that neither the
character before it nor the one behind it goes with it. The one behind it is not one that no token may
hold, either. -/
structure Bounds (e : Extent) (lines : List String) (token : Token) : Prop where
  number_pos : 0 < e.number
  line : lines[e.number - 1]? = some (String.ofList (e.before ++ e.text ++ e.behind))
  lexeme : Lexeme e.text token
  before : ∀ c ∈ e.before.getLast?, token.hasClass c = false
  behind : ∀ c ∈ e.behind.head?, isBlank c = true ∨ token.otherClass c = true

end Extent

theorem Lexeme.hasClass {u : List Char} {token : Token} (h : Lexeme u token) :
    ∀ c ∈ u, token.hasClass c = true := by
  cases h with
  | number _ hd _ => exact hd
  | operator _ ho => exact ho

theorem Token.joins_of_hasClass {token : Token} {a b : Char} (ha : token.hasClass a = true)
    (hb : token.hasClass b = true) : joins a b = true := by
  cases token with
  | number value => simp_all [Token.hasClass, joins]
  | operator text => simp_all [Token.hasClass, joins]

/-- A character that does not go with a token, and is not refused behind it, is a blank or one of the
other kind. -/
theorem Token.class_of_apart {token : Token} {a c : Char} (ha : token.hasClass a = true)
    (hj : joins a c = false) (hc : refusal? [] c = none) :
    isBlank c = true ∨ token.otherClass c = true := by
  -- a character of the same class would go on with the token
  have hnot : token.hasClass c = false := by
    rw [Bool.eq_false_iff]
    intro hclass
    exact Bool.false_ne_true (hj.symm.trans (token.joins_of_hasClass ha hclass))
  rcases class_cases c with hb | hd | ho | ⟨hb, hd, ho⟩
  · exact .inl hb
  · cases token with
    | number value => exact absurd hd (by simpa [Token.hasClass] using hnot)
    | operator text => exact .inr hd
  · cases token with
    | number value => exact .inr ho
    | operator text => exact absurd ho (by simpa [Token.hasClass] using hnot)
  · rw [refusal?_other hb hd ho] at hc
    cases hc

namespace Lexer

section
variable {S : Type} {x : Lexer S} {before u : List Char}

/-- What is given out cannot go on: the character ahead of it is of another class. -/
theorem Placed.class_ahead (h : x.Placed before u) {token : Token}
    (hs : x.state.step x.cursor.peek = .emit token) :
    ∀ c ∈ x.cursor.ahead.head?, isBlank c = true ∨ token.otherClass c = true := by
  intro c hc
  obtain ⟨hx, hap⟩ := h.emit hs
  have ha : u.getLast? = some (u.getLast hx.ne_nil) := List.getLast?_eq_some_getLast hx.ne_nil
  generalize u.getLast hx.ne_nil = a at ha
  have hclass : token.hasClass a = true := hx.hasClass a (List.mem_of_getLast? ha)
  -- that no token may hold the character is known only if it is not refused
  refine token.class_of_apart hclass (hap a ha c hc) ?_
  rw [Cursor.peek, hc] at hs
  cases h.pending.steps c with
  | pass _ ht _ => simp [ht] at hs
  | take ht _ => simp [ht] at hs
  | emit _ _ _ hr => exact hr
  | reject ht _ => simp [ht] at hs

/-- And it could not have begun earlier. -/
theorem Placed.class_before (h : x.Placed before u) {token : Token} (hx : Lexeme u token) :
    ∀ c ∈ before.getLast?, token.hasClass c = false := by
  intro c hc
  rw [Bool.eq_false_iff]
  intro hclass
  obtain ⟨a, rest, rfl⟩ := List.exists_cons_of_ne_nil hx.ne_nil
  have ha : token.hasClass a = true := hx.hasClass a List.mem_cons_self
  -- the token would have begun with that character
  exact Bool.false_ne_true ((h.apart c hc a rfl).symm.trans (token.joins_of_hasClass hclass ha))

end

/-! ### One request -/

section
variable {S : Type} [LineSource S] {s : S} {x y z : Lexer (Counted S)} {p : Coordinate}
  {before u : List Char}

/-- The lines that the source of a lexer over `s` has delivered. -/
def delivered (s : S) (x : Lexer (Counted S)) : List String := linesAmong (told s x.pulls)

/-- How a lexer stands in its source: its cursor stands on the last line, and the end, once it is known,
is the last thing that was asked for. -/
structure Stands (s : S) (x : Lexer (Counted S)) : Prop where
  cursor : x.cursor.Stands s
  ended : x.cursor.exhausted = true → (told s x.pulls).getLast? = some .finish

theorem stands_counting (s : S) : (counting s).Stands s :=
  ⟨Cursor.stands_counting s, by simp [counting, ofSource, Cursor.ofSource]⟩

theorem refills_of_nextLine (h : x.Stands s) {d : Cursor (Counted S)} {r : Except LexFailure Bool}
    {events : List Log.Event} (hn : x.cursor.nextLine = ⟨r, d, events⟩) : x.cursor.Refills s r d := by
  have hr := Cursor.refills h.cursor.asked
  rwa [hn] at hr

theorem Stands.refills (h : x.Stands s) {d : Cursor (Counted S)} {r : Except LexFailure Bool}
    (hr : x.cursor.Refills s r d) (state : State) : Stands s ⟨d, state⟩ := by
  refine ⟨h.cursor.refills hr, fun he => ?_⟩
  -- only where the end has been asked for is it known
  cases hr with
  | known => exact h.ended he
  | line hne => exact absurd ((Cursor.skip_exhausted _ _).symm.trans he) (by simp [hne])
  | finish _ _ ht =>
    show (told s _).getLast? = _
    rw [ht, List.getLast?_concat]
  | fail hne => exact absurd ((Cursor.skip_exhausted _ _).symm.trans he) (by simp [hne])

/-- A turn keeps it, and does not lead back. -/
theorem Stands.turn (h : x.Stands s) :
    x.turn.lexer.Stands s ∧ x.position.rank ≤ x.turn.lexer.position.rank := by
  have ht := turns x
  generalize x.turn = t at ht
  cases ht with
  | @take c rest state ha hs => exact ⟨⟨h.cursor.pass ha, h.ended⟩, x.cursor.rank_le_pass rest⟩
  | emit hs => exact ⟨⟨h.cursor, h.ended⟩, le_refl _⟩
  | reject hs => exact ⟨h, le_refl _⟩
  | refill ha hs hn =>
    have hr := refills_of_nextLine h hn
    exact ⟨h.refills hr _, hr.rank_le⟩
  | finish ha hs hn =>
    have hr := refills_of_nextLine h hn
    exact ⟨h.refills hr _, hr.rank_le⟩
  | fail ha hs hn =>
    have hr := refills_of_nextLine h hn
    exact ⟨h.refills hr _, hr.rank_le⟩

/-- A lexer that has stood at `p` and has passed over blanks since, up to the token that it is
reading. -/
structure Scans (s : S) (p : Coordinate) (x : Lexer (Counted S)) (before u : List Char) : Prop where
  placed : x.Placed before u
  stands : x.Stands s
  le : p.rank ≤ Coordinate.rank ⟨x.position.line, 1 + before.length⟩
  blank : BlankBetween (delivered s x) p ⟨x.position.line, 1 + before.length⟩

theorem scans_start (h : x.Stands s) (hp : x.Placed before []) : Scans s x.position x before [] := by
  have hcolumn : x.position = ⟨x.position.line, 1 + before.length⟩ := by
    have hcolumn := hp.behind.column
    rw [List.append_nil] at hcolumn
    exact Coordinate.ext rfl hcolumn
  refine ⟨hp, h, le_of_eq (congrArg _ hcolumn), fun r c _ hle hlt => ?_⟩
  rw [← hcolumn] at hlt
  exact absurd hlt (not_lt.2 hle)

/-- The line of a lexer, if it has one, is the last line of those delivered. -/
theorem Stands.line_eq (h : x.Stands s) {cs : List Char} (hcs : cs ≠ [])
    (hl : x.cursor.line.toList = cs) :
    0 < x.position.line ∧ (delivered s x)[x.position.line - 1]? = some (String.ofList cs) := by
  have hline := h.cursor.line
  have hnumber : x.position.line = (delivered s x).length := h.cursor.number
  have hlast : (delivered s x).getLast?.getD "" = String.ofList cs := by
    rw [← hl, String.ofList_toList]
    exact hline.symm
  -- there is a line, as the line of the cursor is not empty
  cases hd : (delivered s x).getLast? with
  | none =>
    rw [hd] at hlast
    exact absurd (String.ofList_eq_empty_iff.1 hlast.symm) hcs
  | some line =>
    rw [hd] at hlast
    have hne : delivered s x ≠ [] := by
      rintro hnil
      simp [hnil] at hd
    refine ⟨hnumber ▸ List.length_pos_iff.2 hne, ?_⟩
    rw [hnumber, ← List.getLast?_eq_getElem?, hd]
    exact congrArg some hlast

theorem Scans.took (h : x.Scans s p before u) (hy : x.turn = .took y) :
    ∃ before' u', y.Scans s p before' u' := by
  have hstands : y.Stands s := by
    have hturn := h.stands.turn.1
    rwa [hy] at hturn
  have ht := turns x
  rw [hy] at ht
  cases ht with
  | @take c rest state ha hs =>
    -- either a blank before the token, or one more character of it
    rcases h.placed.take ha hs with ⟨rfl, hb, hp⟩ | hp
    · refine ⟨before ++ [c], [], hp, hstands, ?_, ?_⟩
      · refine h.le.trans (Coordinate.rank_le_iff.2 (.inr ⟨rfl, ?_⟩))
        simp
      · have hline : x.cursor.line.toList = before ++ c :: rest := by
          simpa [ha] using h.placed.behind.line
        obtain ⟨hpos, hd⟩ := h.stands.line_eq (by simp) hline
        have hnext : BlankBetween (delivered s x) p
            (Coordinate.nextColumn ⟨x.position.line, 1 + before.length⟩) := by
          -- the only character at this place is the blank that was taken
          refine h.blank.nextColumn fun d hd' => ?_
          obtain ⟨l, k, line, heq, hl, hk⟩ := characterAt?_eq_some_iff.1 hd'
          obtain ⟨hll, hkk⟩ := Coordinate.mk.inj heq
          obtain rfl : l = x.position.line - 1 := by omega
          obtain rfl : k = before.length := by omega
          obtain rfl : String.ofList (before ++ c :: rest) = line := Option.some.inj (hd.symm.trans hl)
          obtain rfl : c = d := by simpa using hk
          exact hb
        rw [List.length_append]
        exact hnext
    · exact ⟨before, u ++ [c], hp, hstands, h.le, h.blank⟩

/-- Between tokens, at the end of a line, nothing but blanks has been passed over. -/
theorem Scans.blankFrom (h : x.Scans s p before u) (ha : x.cursor.ahead = []) (hs : x.state = .start) :
    BlankFrom (delivered s x) p := by
  have hu : u = [] := h.placed.eq_nil_of_start hs
  have hline : x.cursor.line.toList = before := by
    have hline := h.placed.behind.line
    rwa [ha, hu, List.append_nil, List.append_nil] at hline
  have hb := h.blank
  rw [show x.position.line = (delivered s x).length from h.stands.cursor.number] at hb
  -- the whole line has been passed over
  refine hb.blankFrom fun line hl => ?_
  have hlast : x.cursor.line = line := by
    rw [h.stands.cursor.line]
    exact congrArg (Option.getD · "") hl
  rw [← hlast, ← String.length_toList, hline]

/-- Another line begins behind blanks. -/
theorem Scans.refilled (h : x.Scans s p before u) {events : List Log.Event}
    (hy : x.turn = .refilled y events) : y.Scans s p [] [] := by
  have hturn := h.stands.turn
  rw [hy] at hturn
  have ht := turns x
  rw [hy] at ht
  cases ht with
  | refill ha hs hn =>
    have hblank := h.blankFrom ha hs
    have hr := refills_of_nextLine h.stands hn
    cases hr with
    | @line n source text he hasked htold hne =>
      -- the empty lines that were skipped, and the line that was found
      have hlines : delivered s ⟨(x.cursor.skip n).atLine source text, .start⟩ =
          delivered s x ++ List.replicate n "" ++ [text] := by
        show linesAmong (told s source.pulls) = _
        rw [htold, Cursor.linesAmong_skipping]
        rfl
      have hnumber : (x.cursor.skip n).position.line + 1 =
          (delivered s x ++ List.replicate n "").length + 1 := by
        rw [← List.length_concat, List.concat_eq_append, ← hlines]
        exact hturn.1.cursor.number
      refine ⟨placed_start ⟨rfl, rfl⟩ (Apart.nil_left _), hturn.1, ?_, ?_⟩
      · refine h.le.trans (Coordinate.rank_le_iff.2 (.inl ?_))
        show x.position.line < (x.cursor.skip n).position.line + 1
        rw [Cursor.skip_number]
        exact Nat.lt_succ_of_le (Nat.le_add_right _ n)
      · show BlankBetween _ p ⟨(x.cursor.skip n).position.line + 1, 1⟩
        rw [hlines, hnumber]
        exact (hblank.append_empty n).between text

/-- How a token stands that a request from `p` gives, and leaves the lexer at `z`. -/
structure Located (s : S) (p : Coordinate) (token : Token) (z : Lexer (Counted S)) (e : Extent) :
    Prop where
  bounds : e.Bounds (delivered s z) token
  stop : z.position = e.stop
  le : p.rank ≤ e.start.rank
  lt : e.start.rank < e.stop.rank
  blank : BlankBetween (delivered s z) p e.start

/-- What a request from `p` that leaves the lexer at `z` has passed over. -/
inductive Passed (s : S) (p : Coordinate) : Result → Lexer (Counted S) → Prop
  | token {token : Token} {z : Lexer (Counted S)} {e : Extent} : Located s p token z e →
      Passed s p (given token) z
  | finish {z : Lexer (Counted S)} : (told s z.pulls).getLast? = some .finish →
      BlankFrom (delivered s z) p → Passed s p (.ok none) z
  | failure {failure : LexFailure} {z : Lexer (Counted S)} : Passed s p (.error failure) z

theorem Scans.answered (h : x.Scans s p before u) {reply : Reply (Option Token) (Lexer (Counted S))}
    (hx : x.turn = .answered reply) : Passed s p reply.result reply.after := by
  have ht := turns x
  rw [hx] at ht
  cases ht with
  | reject hs => exact .failure
  | fail ha hs hn => exact .failure
  | @emit token events hs =>
    -- the token ends where the lexer stands, and what is ahead stays behind it
    obtain ⟨hu, -⟩ := h.placed.emit hs
    let e : Extent := ⟨x.position.line, before, u, x.cursor.ahead⟩
    obtain ⟨hpos, hd⟩ := h.stands.line_eq (by simp [hu.ne_nil]) h.placed.behind.line
    refine .token (e := e) ⟨⟨hpos, hd, hu, ?_, ?_⟩, ?_, h.le, ?_, h.blank⟩
    · exact h.placed.class_before hu
    · exact h.placed.class_ahead hs
    · exact Coordinate.ext rfl h.placed.behind.column
    · have hlength := List.length_pos_iff.2 hu.ne_nil
      refine Coordinate.rank_lt_iff.2 (.inr ⟨rfl, ?_⟩)
      show 1 + before.length < 1 + (before ++ u).length
      rw [List.length_append]
      omega
  | @finish d events events' ha hs hn =>
    have hblank := h.blankFrom ha hs
    have hr := refills_of_nextLine h.stands hn
    -- the end was asked for here, behind empty lines, or had been known
    have hz : Stands s ⟨d, .start⟩ := h.stands.refills hr _
    refine .finish (hz.ended (Cursor.fetched_nextLine hn).1) ?_
    cases hr with
    | known => exact hblank
    | @finish n source he hasked htold =>
      show BlankFrom (linesAmong (told s source.pulls)) p
      rw [htold, Cursor.linesAmong_skipping]
      exact (List.append_nil (delivered s x ++ _)).symm ▸ hblank.append_empty n

theorem passed_next (h : x.Stands s) (hp : x.Placed before []) :
    Passed s x.position x.next.result x.next.after := by
  have hscans := scans_start h hp
  -- `p` stays where the request began, while the turns lead on; `Scans` is what each of them keeps
  generalize x.position = p at hscans ⊢
  refine next_induction (P := fun x r z => ∀ before u, x.Scans s p before u → Passed s p r z)
    ?_ ?_ ?_ x before [] hscans
  · intro x y r z hx ih before u h
    obtain ⟨before', u', h'⟩ := h.took hx
    exact ih before' u' h'
  · intro x y events r z hx ih before u h
    exact ih [] [] (h.refilled hx)
  · intro x reply hx before u h
    exact h.answered hx

/-! ### Many requests -/

/-- A request keeps how a lexer stands, and does not lead back. -/
theorem Stands.next (h : x.Stands s) :
    x.next.after.Stands s ∧ x.position.rank ≤ x.next.after.position.rank := by
  refine next_induction (P := fun x _ z => x.Stands s →
    z.Stands s ∧ x.position.rank ≤ z.position.rank) ?_ ?_ ?_ x h
  · intro x y r z hx ih h
    have hturn := h.turn
    rw [hx] at hturn
    obtain ⟨hz, hle⟩ := ih hturn.1
    exact ⟨hz, hturn.2.trans hle⟩
  · intro x y events r z hx ih h
    have hturn := h.turn
    rw [hx] at hturn
    obtain ⟨hz, hle⟩ := ih hturn.1
    exact ⟨hz, hturn.2.trans hle⟩
  · intro x reply hx h
    have hturn := h.turn
    rwa [hx] at hturn

theorem stands_after (s : S) (n : Nat) : ((counting s).after n).Stands s := by
  induction n with
  | zero => exact stands_counting s
  | succ n ih =>
    rw [after_succ']
    exact ih.next.1

theorem rank_after_mono (s : S) : Monotone fun n => ((counting s).after n).position.rank := by
  refine monotone_nat_of_le_succ fun n => ?_
  rw [after_succ']
  exact (stands_after s n).next.2

theorem start_or_refuses {T : Type} [LineSource T] (t : T) (n : Nat) :
    ((ofSource t).after n).state = .start ∨ ∃ error, ((ofSource t).after n).Refuses error := by
  cases n with
  | zero => exact .inl rfl
  | succ n =>
    rw [after_succ']
    rcases ((ofSource t).after n).start_or_rejected with hstart | ⟨error, -, hr⟩
    · exact .inl hstart
    · exact .inr ⟨error, hr⟩

theorem passed_request (s : S) (n : Nat) :
    Passed s ((counting s).after n).position ((counting s).after n).next.result
      ((counting s).after (n + 1)) := by
  -- a new request begins between tokens, or where a character was refused
  rw [after_succ']
  rcases start_or_refuses (⟨s, 0⟩ : Counted S) n with hstart | ⟨error, hr⟩
  · obtain ⟨k, hk⟩ := (counting s).course_of_requests n
    obtain ⟨before, u, hp⟩ := placed_course (⟨s, 0⟩ : Counted S) k
    have hx : ((counting s).course k).2 = (counting s).after n := congrArg Prod.snd hk
    have hp : ((counting s).after n).Placed before u := hx ▸ hp
    obtain rfl : u = [] := hp.eq_nil_of_start hstart
    exact passed_next (stands_after s n) hp
  · -- the character is refused again
    rw [show (counting s).after n = (ofSource (⟨s, 0⟩ : Counted S)).after n from rfl, hr.next.1]
    exact .failure

/-- Every token that a request gives stands on the lines that the source has delivered, right before
the place that the request leaves the lexer at, and could not be longer. From the place where the request
found the lexer up to the token there are only blanks, so the token comes behind those before it. And
where a request finds the end, there are only blanks from there to the end of the source. -/
theorem token_extents (s : S) :
    ∃ extent : Nat → Extent,
      (∀ n token, ((counting s).after n).next.result = given token →
        Located s ((counting s).after n).position token ((counting s).after (n + 1)) (extent n) ∧
          ∀ m token', m < n → ((counting s).after m).next.result = given token' →
            (extent m).stop.rank ≤ (extent n).start.rank) ∧
      ∀ n, ((counting s).after n).next.result = .ok none →
        (told s ((counting s).after (n + 1)).pulls).getLast? = some .finish ∧
          BlankFrom (delivered s ((counting s).after (n + 1))) ((counting s).after n).position := by
  have hextent : ∀ n, ∃ e, ∀ token, ((counting s).after n).next.result = given token →
      Located s ((counting s).after n).position token ((counting s).after (n + 1)) e := by
    intro n
    have hp := passed_request s n
    generalize ((counting s).after n).next.result = r at hp
    cases hp with
    | @token token z e he =>
      refine ⟨e, fun token' ht => ?_⟩
      obtain rfl : token = token' := by simpa [given] using ht
      exact he
    -- where no token is given, any extent will do
    | finish => exact ⟨⟨0, [], [], []⟩, by simp [given]⟩
    | failure => exact ⟨⟨0, [], [], []⟩, by simp [given]⟩
  choose extent hextent using hextent
  refine ⟨extent, fun n token hn => ⟨hextent n token hn, fun m token' hm ht => ?_⟩, fun n hn => ?_⟩
  · -- an earlier request has left the lexer where its token stops, and it does not go back
    rw [← (hextent m token' ht).stop]
    exact (rank_after_mono s hm).trans (hextent n token hn).le
  · have hp := passed_request s n
    rw [hn] at hp
    cases hp with
    | finish hend hblank => exact ⟨hend, hblank⟩

/-- The last token stands on the third line, behind a failure and an empty line. -/
theorem token_extents_around_failure :
    let s := Script.mk [.line " 12+", .failure .invalidUtf8, .line "", .line "7 "]
    let x := counting s
    x.Gives [given (.number 12), given (.operator "+"), .error (.unreadable 2 .invalidUtf8),
        given (.number 7), .ok none] ∧
      (∃ e, Located s (x.after 3).position (.number 7) (x.after 4) e) ∧
      BlankFrom (delivered s (x.after 5)) (x.after 4).position := by
  intro s x
  have hcourse : (x.course 13).1 = [given (.number 12), given (.operator "+"),
      .error (.unreadable 2 .invalidUtf8), given (.number 7), .ok none] := by decide +kernel
  have hx := x.gives_course 13
  rw [hcourse] at hx
  refine ⟨hx, ?_⟩
  rw [gives_cons_iff, gives_cons_iff, gives_cons_iff, gives_cons_iff, gives_cons_iff] at hx
  obtain ⟨-, -, -, hseven, hend, -⟩ := hx
  obtain ⟨extent, htoken, hfinish⟩ := token_extents s
  exact ⟨⟨extent 3, (htoken 3 _ hseven).1⟩, (hfinish 4 hend).2⟩

end
end Lexer
end ArithLexer
