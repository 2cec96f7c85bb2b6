import ArithLexer.Proofs.Requests

/-!
# Lexers that go in step

Two sources may answer alike without being the same: bytes that are decoded and lines in memory, a
script and what is left of a longer one. `Answering R` says that sources related by `R` go on
answering alike; lexers over such sources give the same results (`Lexer.Follows.next`).

The sources may also part after a while. `AnsweringWithin G R` asks for equal answers only as long as
the first source is in `G`, and lexers are then in step after every request that leaves it there
(`Lexer.Follows.next_within`).

One of the lexers may have more lines behind it. Then its results differ by the line numbers of its
failures, which are larger by the number of these lines (`LexFailure.below`), and what it remembers of
its last line plays no role where it has nothing left of that line.
-/

namespace ArithLexer

/-- A failure that happened `k` lines further down. -/
def LexFailure.below (k : Nat) : LexFailure → LexFailure
  | .rejected ⟨reason, ⟨line, column⟩, text⟩ => .rejected ⟨reason, ⟨line + k, column⟩, text⟩
  | .unreadable line cause => .unreadable (line + k) cause

@[simp] theorem LexFailure.below_zero (f : LexFailure) : f.below 0 = f := by
  cases f <;> rfl

/-- The result of a request made `k` lines further down. -/
def Result.below (k : Nat) (r : Result) : Result := r.mapError (LexFailure.below k)

@[simp] theorem Result.below_zero (r : Result) : Result.below 0 r = r := by
  cases r with
  | ok token => rfl
  | error failure => exact congrArg Except.error failure.below_zero

theorem Result.map_below_zero (rs : List Result) : rs.map (Result.below 0) = rs := by
  induction rs with
  | nil => rfl
  | cons r rs ih => rw [List.map_cons, below_zero, ih]

variable {S T : Type} {R : S → T → Prop} {k : Nat}

/-- Sources related by `R` give the same answer, and are related again afterwards. -/
def Answering [LineSource S] [LineSource T] (R : S → T → Prop) : Prop :=
  ∀ s t, R s t → (LineSource.next s).1 = (LineSource.next t).1 ∧
    R (LineSource.next s).2 (LineSource.next t).2

/-- Sources related by `R` answer alike up to an answer that leaves the first of them outside `G`.
Once outside, it stays there. -/
structure AnsweringWithin [LineSource S] [LineSource T] (G : S → Prop) (R : S → T → Prop) : Prop where
  agree {s : S} {t : T} : R s t → G (LineSource.next s).2 →
    (LineSource.next s).1 = (LineSource.next t).1 ∧ R (LineSource.next s).2 (LineSource.next t).2
  inside {s : S} : G (LineSource.next s).2 → G s

theorem Answering.within [LineSource S] [LineSource T] (hR : Answering R) :
    AnsweringWithin (fun _ => True) R :=
  ⟨fun h _ => hR _ _ h, fun _ => trivial⟩

namespace AnsweringWithin

variable [LineSource S] [LineSource T] {G : S → Prop}

theorem next (hR : AnsweringWithin G R) {s s' : S} {t : T}
    {answer : Except IoError (Option String)} (h : R s t) (hs : LineSource.next s = (answer, s'))
    (hG : G s') : ∃ t', LineSource.next t = (answer, t') ∧ R s' t' := by
  obtain ⟨hr, ht⟩ := hR.agree h (by rwa [hs])
  rw [hs] at hr ht
  exact ⟨_, Prod.ext hr.symm rfl, ht⟩

/-- A source that is asked outside `G` does not come back. -/
theorem kept_outside (hR : AnsweringWithin G R) : Kept fun _ s => ¬ G s where
  line hn hs hG := hn (hR.inside (by rwa [hs]))
  finish hn hs hG := hn (hR.inside (by rwa [hs]))
  fail hn hs hG := hn (hR.inside (by rwa [hs]))

end AnsweringWithin

/-! ### Cursors -/

namespace Cursor

/-- `Follows R k P c d` says that `d` stands where `c` does, `k` lines further down. The two agree on
their last line, and on the column, if `P` holds. -/
structure Follows (R : S → T → Prop) (k : Nat) (P : Prop) (c : Cursor S) (d : Cursor T) : Prop where
  source : R c.source d.source
  ahead : d.ahead = c.ahead
  exhausted : d.exhausted = c.exhausted
  number : d.position.line = c.position.line + k
  place : P → d.line = c.line ∧ d.position.column = c.position.column

variable {P Q : Prop} {c : Cursor S} {d : Cursor T}

theorem Follows.mono (h : Follows R k P c d) (hQ : Q → P) : Follows R k Q c d :=
  { h with place := fun q => h.place (hQ q) }

/-- At the head of the same line two cursors agree on everything. -/
theorem Follows.atLine {s : S} {t : T} (h : Follows R k P c d) (hs : R s t) (line : String) :
    Follows R k Q (c.atLine s line) (d.atLine t line) where
  source := hs
  ahead := rfl
  exhausted := h.exhausted
  number := by
    have := h.number
    simp only [Cursor.atLine, Coordinate.nextLine]
    omega
  place _ := ⟨rfl, rfl⟩

variable [LineSource S] [LineSource T] {G : S → Prop}

/-- Fetching a line keeps two cursors in step, and brings them to the same place. -/
theorem Follows.fetch (hR : AnsweringWithin G R) (h : Follows R k P c d) (told told' : List Log.Event)
    (hG : G (c.fetch told).after.source) :
    (d.fetch told').result = (c.fetch told).result.mapError (LexFailure.below k) ∧
      Follows R k (P ∨ (c.fetch told).result = .ok true) (c.fetch told).after
        (d.fetch told').after := by
  -- `G` is only known of the last source, so what leads back to the sources before is carried along
  have hfetch := fetch_induction (P := fun c r c' => (G c'.source → G c.source) ∧
    (G c'.source → ∀ (Q : Prop) (d : Cursor T) (told' : List Log.Event), Follows R k Q c d →
      (d.fetch told').result = r.mapError (LexFailure.below k) ∧
        Follows R k (Q ∨ r = .ok true) c' (d.fetch told').after)) ?_ ?_ ?_ ?_ c told
  · exact hfetch.2 hG P d told' h
  · intro c line source r c' hn he ih
    refine ⟨fun hG => hR.inside (by rw [hn]; exact ih.1 hG), fun hG Q d told' h => ?_⟩
    obtain ⟨t, ht, hs⟩ := hR.next h.source hn (ih.1 hG)
    rw [fetch_of_empty told' ht (by simpa using he)]
    -- on the skipped line the two agree, whatever they had behind them
    obtain ⟨hr, ha⟩ := ih.2 hG True _ (.lineFetched _ line.length :: told') (h.atLine hs line)
    exact ⟨hr, ha.mono fun _ => .inl trivial⟩
  · intro c line source hn he
    refine ⟨fun hG => hR.inside (by rwa [hn]), fun hG Q d told' h => ?_⟩
    obtain ⟨t, ht, hs⟩ := hR.next h.source hn hG
    rw [fetch_of_line told' ht (by simpa using he)]
    exact ⟨rfl, h.atLine hs line⟩
  · intro c source hn
    refine ⟨fun hG => hR.inside (by rwa [hn]), fun hG Q d told' h => ?_⟩
    obtain ⟨t, ht, hs⟩ := hR.next h.source hn hG
    rw [fetch_of_end told' ht]
    exact ⟨rfl, hs, h.ahead, rfl, h.number, by simpa using h.place⟩
  · intro c cause source hn
    refine ⟨fun hG => hR.inside (by rwa [hn]), fun hG Q d told' h => ?_⟩
    obtain ⟨t, ht, hs⟩ := hR.next h.source hn hG
    rw [fetch_of_error told' ht]
    refine ⟨?_, hs, h.ahead, h.exhausted, h.number, by simpa using h.place⟩
    show _ = Except.error (LexFailure.unreadable (c.position.line + 1 + k) cause)
    rw [h.number, Nat.add_right_comm]

theorem Follows.nextLine (hR : AnsweringWithin G R) (h : Follows R k P c d)
    (hG : G c.nextLine.after.source) :
    d.nextLine.result = c.nextLine.result.mapError (LexFailure.below k) ∧
      Follows R k (P ∨ c.nextLine.result = .ok true) c.nextLine.after d.nextLine.after := by
  cases he : c.exhausted with
  | true =>
    rw [nextLine_of_exhausted he, nextLine_of_exhausted (h.exhausted.trans he)]
    exact ⟨rfl, h.mono (by simp)⟩
  | false =>
    rw [nextLine_of_not_exhausted he] at hG ⊢
    rw [nextLine_of_not_exhausted (h.exhausted.trans he)]
    exact h.fetch hR [] [] hG

theorem Follows.nextLine_eq (hR : AnsweringWithin G R) (h : Follows R k P c d)
    {r : Except LexFailure Bool} {c' : Cursor S} {events : List Log.Event}
    (hn : c.nextLine = ⟨r, c', events⟩) (hG : G c'.source) :
    ∃ d' events', d.nextLine = ⟨r.mapError (LexFailure.below k), d', events'⟩ ∧
      Follows R k (P ∨ r = .ok true) c' d' := by
  obtain ⟨hr, ha⟩ := h.nextLine hR (by rwa [hn])
  rw [hn] at hr ha
  match hd : d.nextLine with
  | ⟨r', d', events'⟩ =>
    rw [hd] at hr ha
    exact ⟨d', events', congrArg (Reply.mk · d' events') hr, ha⟩

end Cursor

/-! ### Lexers -/

namespace Lexer

/-- `Follows R k P x y` says that `y` stands where `x` does, `k` lines further down. The two agree on
their last line and on the column where that matters, and everywhere if `P` holds. -/
structure Follows (R : S → T → Prop) (k : Nat) (P : Prop) (x : Lexer S) (y : Lexer T) : Prop where
  state : y.state = x.state
  cursor : Cursor.Follows R k (P ∨ x.cursor.ahead ≠ [] ∨ x.state ≠ .start) x.cursor y.cursor

variable {P : Prop} {x : Lexer S} {y : Lexer T}

theorem follows_between {c : Cursor S} {d : Cursor T} {Q : Prop}
    (h : c.Follows R k Q d) (hP : P → Q) (ha : c.ahead = []) :
    Follows R k P ⟨c, .start⟩ ⟨d, .start⟩ := by
  refine ⟨rfl, h.mono ?_⟩
  rintro (hp | hne | hs)
  · exact hP hp
  · exact absurd ha hne
  · exact absurd rfl hs

theorem Follows.step_eq (h : Follows R k P x y) :
    y.state.step y.cursor.peek = x.state.step x.cursor.peek := by
  rw [h.state, Cursor.peek, Cursor.peek, h.cursor.ahead]

/-- Lexers in step without lines between them are at the same position. -/
theorem Follows.position_eq (h : Follows R 0 True x y) : y.position = x.position := by
  obtain ⟨-, hcolumn⟩ := h.cursor.place (.inl trivial)
  have hline : y.position.line = x.position.line := h.cursor.number
  have hcolumn : y.position.column = x.position.column := hcolumn
  calc y.position = ⟨y.position.line, y.position.column⟩ := rfl
    _ = x.position := by rw [hline, hcolumn]

/-- Two lexers in step agree on the place of a character that is refused. -/
theorem Follows.error_eq (h : Follows R k P x y) {reason : Rejection}
    (hs : x.state.step x.cursor.peek = .reject reason) :
    LexFailure.rejected ⟨reason, y.position, y.cursor.line⟩ =
      (LexFailure.rejected ⟨reason, x.position, x.cursor.line⟩).below k := by
  -- between two lines nothing is refused, so there is a line to agree on
  have hne : x.cursor.ahead ≠ [] ∨ x.state ≠ .start := by
    by_contra hn
    rw [not_or, not_not, not_not] at hn
    rw [(step_line_end hn.1 hn.2).1] at hs
    cases hs
  obtain ⟨hline, hcol⟩ := h.cursor.place (.inr hne)
  have hcol : y.position.column = x.position.column := hcol
  have hnum : y.position.line = x.position.line + k := h.cursor.number
  have hp : y.position = ⟨x.position.line + k, x.position.column⟩ := by
    rw [← hnum, ← hcol]
  rw [hp, hline]
  rfl

variable [LineSource S] [LineSource T] {G : S → Prop}

/-- A turn keeps two lexers in step, if it leaves the source of the first one within `G`. -/
theorem Follows.turn (hR : AnsweringWithin G R) (h : Follows R k P x y) :
    match x.turn with
    | .took x' => ∃ y', y.turn = .took y' ∧ Follows R k P x' y'
    | .refilled x' _ => G x'.cursor.source →
        ∃ y' events, y.turn = .refilled y' events ∧ Follows R k P x' y'
    | .answered reply => G reply.after.cursor.source → ∃ reply', y.turn = .answered reply' ∧
        reply'.result = Result.below k reply.result ∧ Follows R k P reply.after reply'.after := by
  have ht := turns x
  generalize x.turn = t at ht
  cases ht with
  | @take c rest state ha hs =>
    -- a character is ahead, so the two agree on the place already
    refine ⟨_, turn_take (h.cursor.ahead.trans ha) (h.state ▸ hs), rfl, ?_⟩
    obtain ⟨hline, hcol⟩ := h.cursor.place (.inr (.inl (by simp [ha])))
    exact ⟨h.cursor.source, rfl, h.cursor.exhausted, h.cursor.number,
      fun _ => ⟨hline, by simp [Coordinate.nextColumn, hcol]⟩⟩
  | @emit token events hs =>
    -- the token has begun on this line, so the two agree on it already
    refine fun _ => ⟨_, turn_emit (h.step_eq.trans hs), rfl, rfl, h.cursor.mono ?_⟩
    exact fun _ => .inr (.inr (State.ne_start_of_step_emit hs))
  | @reject reason events hs =>
    exact fun _ => ⟨_, turn_reject (h.step_eq.trans hs), congrArg Except.error (h.error_eq hs), h⟩
  | refill ha hs hn =>
    intro hG
    obtain ⟨d, events', hd, hf⟩ := h.cursor.nextLine_eq hR hn hG
    have ht := turn_refill (h.cursor.ahead.trans ha) (h.state.trans hs) hd
    -- at the head of a new line they agree on everything
    exact ⟨_, _, ht, rfl, hf.mono fun _ => .inr rfl⟩
  | finish ha hs hn =>
    intro hG
    obtain ⟨d, events', hd, hf⟩ := h.cursor.nextLine_eq hR hn hG
    have ht := turn_finish (h.cursor.ahead.trans ha) (h.state.trans hs) hd
    have hah := (Cursor.fetched_nextLine hn).2 ha
    exact ⟨_, ht, rfl, follows_between hf (fun hp => .inl (.inl hp)) hah⟩
  | fail ha hs hn =>
    intro hG
    obtain ⟨d, events', hd, hf⟩ := h.cursor.nextLine_eq hR hn hG
    have ht := turn_fail (h.cursor.ahead.trans ha) (h.state.trans hs) hd
    have hah := (Cursor.fetched_nextLine hn).2.2 ha
    exact ⟨_, ht, rfl, follows_between hf (fun hp => .inl (.inl hp)) hah⟩

theorem inside_of_turn (hR : AnsweringWithin G R) (x : Lexer S) :
    match x.turn with
    | .took y => G y.cursor.source → G x.cursor.source
    | .refilled y _ => G y.cursor.source → G x.cursor.source
    | .answered reply => G reply.after.cursor.source → G x.cursor.source := by
  by_cases hG : G x.cursor.source
  · split <;> exact fun _ => hG
  · have hk := kept_turn hR.kept_outside hG
    generalize x.turn = t at hk
    cases t <;> exact fun h => absurd h hk

/-- A request that leaves the first source within `G` keeps two lexers in step, with the same result
but for the number of the line. -/
theorem Follows.next_within (hR : AnsweringWithin G R) (h : Follows R k P x y)
    (hG : G x.next.after.cursor.source) :
    y.next.result = Result.below k x.next.result ∧ Follows R k P x.next.after y.next.after := by
  -- as for a fetch: within `G` at the end means within `G` at every turn before
  have hnext := next_induction (P := fun x r z => (G z.cursor.source → G x.cursor.source) ∧
    (G z.cursor.source → ∀ y : Lexer T, Follows R k P x y →
      y.next.result = Result.below k r ∧ Follows R k P z y.next.after)) ?_ ?_ ?_ x
  · exact hnext.2 hG y h
  · intro x x' r z hx ih
    have hin := inside_of_turn hR x
    rw [hx] at hin
    refine ⟨fun hG => hin (ih.1 hG), fun hG y h => ?_⟩
    have ht := h.turn hR
    rw [hx] at ht
    obtain ⟨y', hy, h'⟩ := ht
    rw [next_of_took hy]
    exact ih.2 hG y' h'
  · intro x x' events r z hx ih
    have hin := inside_of_turn hR x
    rw [hx] at hin
    refine ⟨fun hG => hin (ih.1 hG), fun hG y h => ?_⟩
    have ht := h.turn hR
    rw [hx] at ht
    obtain ⟨y', events', hy, h'⟩ := ht (ih.1 hG)
    rw [(next_of_refilled hy).1, (next_of_refilled hy).2]
    exact ih.2 hG y' h'
  · intro x reply hx
    have hin := inside_of_turn hR x
    rw [hx] at hin
    refine ⟨hin, fun hG y h => ?_⟩
    have ht := h.turn hR
    rw [hx] at ht
    obtain ⟨reply', hy, hr, h'⟩ := ht hG
    rw [(next_of_answered hy).1, (next_of_answered hy).2]
    exact ⟨hr, h'⟩

/-- A request keeps two lexers in step, with the same result but for the number of the line. -/
theorem Follows.next (hR : Answering R) (h : Follows R k P x y) :
    y.next.result = Result.below k x.next.result ∧ Follows R k P x.next.after y.next.after :=
  h.next_within hR.within trivial

/-- Lexers stay in step as long as the source of the first one is within `G`. -/
theorem Follows.after_within (hR : AnsweringWithin G R) (h : Follows R k P x y) (n : Nat)
    (hG : G (x.after n).cursor.source) : Follows R k P (x.after n) (y.after n) := by
  induction n with
  | zero => exact h
  | succ n ih =>
    rw [after_succ'] at hG ⊢
    rw [after_succ']
    -- once the source is outside it stays there, so it was within before the last request
    have hbefore : G (x.after n).cursor.source := by
      by_contra hn
      exact kept_next hR.kept_outside hn hG
    exact ((ih hbefore).next_within hR hG).2

/-- Over any number of requests two lexers in step have the same results but for the line numbers. -/
theorem Follows.results (hR : Answering R) (h : Follows R k P x y) (n : Nat) :
    y.results n = (x.results n).map (Result.below k) := by
  induction n generalizing x y with
  | zero => rfl
  | succ n ih =>
    obtain ⟨hr, ha⟩ := h.next hR
    rw [Lexer.results, Lexer.results, List.map_cons, hr, ih ha]

omit [LineSource S] [LineSource T] in
theorem follows_ofSource {s : S} {t : T} (h : R s t) (P : Prop) :
    Follows R 0 P (ofSource s) (ofSource t) :=
  ⟨rfl, h, rfl, rfl, rfl, fun _ => ⟨rfl, rfl⟩⟩

end Lexer
end ArithLexer
