import ArithLexer.Proofs.Places

/-!
# The characters of a source

Taken one after the other, the characters of a cursor are those of the lines of its source.
`Cursor.deliveries` lists what the answers of a source come to up to its first end: the characters of each
line, each with the coordinate behind it, and the failures between the lines. The main statement,
`delivered_eq`, is that a cursor delivers just this, one item for each character that is asked for, and
nothing behind it.

`Cursor.pending` is what a cursor has still to deliver. An advance takes the first item off it
(`Cursor.pending_advance`), whether that is on the line of the cursor, on a later one, or a failure.
-/

namespace ArithLexer

namespace Cursor

/-! ### What there is to deliver -/

/-- What an advance can deliver: a character, with the coordinate behind it, or a failure. -/
inductive Delivery where
  | character (a : Char) (behind : Coordinate)
  | failed (failure : LexFailure)
deriving DecidableEq

def Delivery.character? : Delivery → Option (Char × Coordinate)
  | character a behind => some (a, behind)
  | failed _ => none

def Delivery.failure? : Delivery → Option LexFailure
  | character _ _ => none
  | failed failure => some failure

def lineDeliveries (p : Coordinate) (cs : List Char) : List Delivery :=
  (cs.zipIdx p.column).map fun (a, column) => .character a ⟨p.line, column + 1⟩

/-- What answers behind `n` lines come to, up to the first end. -/
def deliveries (n : Nat) : List Answer → List Delivery
  | .line text :: rest => lineDeliveries ⟨n + 1, 1⟩ text.toList ++ deliveries (n + 1) rest
  | .failure cause :: rest => .failed (.unreadable (n + 1) cause) :: deliveries n rest
  | _ => []

@[simp] theorem lineDeliveries_nil (p : Coordinate) : lineDeliveries p [] = [] := rfl

theorem lineDeliveries_cons (p : Coordinate) (a : Char) (cs : List Char) :
    lineDeliveries p (a :: cs) =
      .character a p.nextColumn :: lineDeliveries p.nextColumn cs := rfl

theorem characters_deliveries (n : Nat) (answers : List Answer) :
    (deliveries n answers).filterMap Delivery.character? =
      ((linesAmong (answers.takeWhile (· ≠ .finish))).zipIdx (n + 1)).flatMap fun (line, i) =>
        (line.toList.zipIdx 1).map fun (a, j) => (a, ⟨i, j + 1⟩) := by
  fun_induction deliveries n answers with
  | case1 n text rest ih =>
    have hline : (lineDeliveries ⟨n + 1, 1⟩ text.toList).filterMap Delivery.character? =
        (text.toList.zipIdx 1).map fun (a, j) => (a, ⟨n + 1, j + 1⟩) := by
      rw [lineDeliveries, List.filterMap_map, ← List.filterMap_eq_map]
      rfl
    rw [List.filterMap_append, hline, ih]
    rfl
  | case2 n cause rest ih =>
    rw [List.filterMap_cons_none rfl, ih]
    rfl
  -- neither a line nor a failure: no answers are left, or the next one is the end
  | case3 answers n hline hfailure =>
    rcases answers with _ | ⟨text | _ | cause, rest⟩
    · rfl
    · exact absurd rfl (hline text rest)
    · rfl
    · exact absurd rfl (hfailure cause rest)

theorem texts_deliveries (n : Nat) (answers : List Answer) :
    ((deliveries n answers).filterMap Delivery.character?).map Prod.fst =
      (linesAmong (answers.takeWhile (· ≠ .finish))).flatMap String.toList := by
  have hline : ∀ (line : String) (i : Nat),
      ((line.toList.zipIdx 1).map fun (a, j) => (a, Coordinate.mk i (j + 1))).map Prod.fst =
        line.toList := by
    intro line i
    rw [List.map_map]
    exact List.zipIdx_map_fst 1 _
  rw [characters_deliveries, List.map_flatMap]
  simp only [hline]
  rw [← List.flatMap_map Prod.fst String.toList, List.zipIdx_map_fst]

end Cursor

/-- The failure of a request for the answer behind `before`, if it is one. -/
def Answer.failureBehind? (before : List Answer) : Answer → Option LexFailure
  | failure cause => some (.unreadable (lineCount before + 1) cause)
  | _ => none

namespace Cursor

/-- The failures are those among the answers, each with the number of the line behind those that have
been delivered. -/
theorem failures_deliveries (done answers : List Answer) :
    (deliveries (lineCount done) answers).filterMap Delivery.failure? =
      ((answers.takeWhile (· ≠ .finish)).zipIdx done.length).filterMap fun (answer, i) =>
        answer.failureBehind? ((done ++ answers).take i) := by
  induction answers generalizing done with
  | nil => rfl
  | cons answer rest ih =>
    -- the answer goes over to those that have been given
    have hrest := ih (done ++ [answer])
    rw [List.append_assoc, List.singleton_append, List.length_append, List.length_singleton] at hrest
    cases answer with
    | line text =>
      have hcount : lineCount (done ++ [.line text]) = lineCount done + 1 := by
        simp [lineCount, Answer.isLine]
      have hnone : (lineDeliveries ⟨lineCount done + 1, 1⟩ text.toList).filterMap Delivery.failure? =
          [] := by
        simp [lineDeliveries, Delivery.failure?]
      rw [hcount] at hrest
      rw [deliveries, List.filterMap_append, hnone, List.nil_append, hrest]
      rfl
    | finish => rfl
    | failure cause =>
      have hcount : lineCount (done ++ [.failure cause]) = lineCount done := by
        simp [lineCount, Answer.isLine]
      have htaken : (done ++ .failure cause :: rest).take done.length = done := List.take_left
      rw [hcount] at hrest
      show .unreadable (lineCount done + 1) cause ::
        (deliveries (lineCount done) rest).filterMap Delivery.failure? = _
      rw [hrest, List.takeWhile_cons_of_pos (by simp), List.zipIdx_cons, List.filterMap_cons_some]
      show Answer.failureBehind? _ _ = some _
      rw [htaken]
      rfl

/-! ### What a cursor delivers -/

section
variable {S : Type} [LineSource S]

/-- What the next advance delivers. -/
def delivery? (c : Cursor S) : Option Delivery :=
  match c.advance.result with
  | .ok (some a) => some (.character a c.advance.after.position)
  | .ok none => none
  | .error failure => some (.failed failure)

/-- What the advances among some operations deliver, in order. -/
def delivered (c : Cursor S) : List Operation → List (Option Delivery)
  | [] => []
  | .advance :: operations => c.delivery? :: (c.perform .advance).delivered operations
  | operation :: operations => (c.perform operation).delivered operations

end

/-- What a cursor has still to deliver: the rest of its line, and then what its source has left. -/
def pending (c : Cursor Script) : List Delivery :=
  lineDeliveries c.position c.ahead ++
    if c.exhausted then [] else deliveries c.position.line c.source.answers

theorem deliveries_of_next_end {s t : Script} (h : LineSource.next s = (.ok none, t)) (n : Nat) :
    deliveries n s.answers = [] := by
  obtain ⟨_ | ⟨_ | _ | _, rest⟩⟩ := s <;> cases h <;> rfl

theorem deliveries_fetch {c : Cursor Script} (he : c.exhausted = false) (told : List Log.Event) :
    deliveries c.position.line c.source.answers =
      match (c.fetch told).result with
      | .ok true => (c.fetch told).after.pending
      | .ok false => []
      | .error failure => .failed failure ::
          deliveries (c.fetch told).after.position.line (c.fetch told).after.source.answers := by
  refine fetch_induction (P := fun c r d => c.exhausted = false →
    deliveries c.position.line c.source.answers =
      match r with
      | .ok true => d.pending
      | .ok false => []
      | .error failure => .failed failure :: deliveries d.position.line d.source.answers)
    ?_ ?_ ?_ ?_ c told he
  · -- an empty line has nothing to deliver, and the one behind it is asked for
    intro c line source r d hn hempty ih he
    rw [Script.answers_of_next_line hn, deliveries, hempty, lineDeliveries_nil, List.nil_append]
    exact ih he
  · intro c line source hn _ he
    have he : (c.atLine source line).exhausted = false := he
    rw [Script.answers_of_next_line hn, deliveries]
    show _ = (c.atLine source line).pending
    rw [pending, he]
    rfl
  · intro c source hn _
    exact deliveries_of_next_end hn _
  · intro c cause source hn _
    rw [Script.answers_of_next_error hn, deliveries]

theorem pending_of_exhausted {c : Cursor Script} (he : c.exhausted = true) (ha : c.ahead = []) :
    c.pending = [] := by
  rw [pending, ha, he]
  rfl

theorem pending_of_not_exhausted {c : Cursor Script} (he : c.exhausted = false) (ha : c.ahead = []) :
    c.pending = deliveries c.position.line c.source.answers := by
  rw [pending, ha, he]
  rfl

/-- An advance delivers what is pending first, and leaves the rest. -/
theorem pending_advance (c : Cursor Script) :
    c.delivery? = c.pending.head? ∧ c.advance.after.pending = c.pending.tail := by
  have ht := c.advances
  rw [delivery?]
  generalize c.advance.result = r at ht
  generalize c.advance.after = d at ht
  -- what is pending behind the line of the cursor, if that is at its end
  have hfetch : c.ahead = [] → ∀ {r d events}, c.nextLine = ⟨r, d, events⟩ → c.exhausted = false →
      c.pending = match r with
        | .ok true => d.pending
        | .ok false => []
        | .error failure => .failed failure :: deliveries d.position.line d.source.answers := by
    intro ha r d events hn he
    rw [nextLine_of_not_exhausted he] at hn
    have hmoved := deliveries_fetch he []
    rw [hn] at hmoved
    exact (pending_of_not_exhausted he ha).trans hmoved
  cases ht with
  | @take a rest ha =>
    have hpending : c.pending = .character a c.position.nextColumn :: (c.pass rest).pending := by
      rw [pending, ha, lineDeliveries_cons]
      rfl
    rw [hpending]
    exact ⟨rfl, rfl⟩
  | @line d a rest events ha hn hahead =>
    have hpending : d.pending = .character a d.position.nextColumn :: (d.pass rest).pending := by
      rw [pending, hahead, lineDeliveries_cons]
      rfl
    rw [hfetch ha hn (not_exhausted_of_nextLine hn (by simp))]
    simp only [hpending]
    exact ⟨rfl, rfl⟩
  | @finish d events ha hn hahead =>
    have hnone : c.pending = [] := by
      -- either the source has already ended, or it ends with this request
      cases he : c.exhausted with
      | true => exact pending_of_exhausted he ha
      | false => exact hfetch ha hn he
    rw [hnone, pending_of_exhausted (fetched_nextLine hn).1 hahead]
    exact ⟨rfl, rfl⟩
  | @fail d failure events ha hn =>
    have he : c.exhausted = false := not_exhausted_of_nextLine hn (by simp)
    obtain ⟨-, hex, hahead⟩ := fetched_nextLine hn
    rw [hfetch ha hn he, pending_of_not_exhausted (hex.trans he) (hahead ha)]
    exact ⟨rfl, rfl⟩

theorem delivered_eq_pending {operations : List Operation} (h : .nextLine ∉ operations)
    (c : Cursor Script) :
    c.delivered operations = (c.pending.take (operations.count .advance)).map some ++
      List.replicate (operations.count .advance - c.pending.length) none := by
  induction operations generalizing c with
  | nil => simp [delivered]
  | cons operation operations ih =>
    have hrest : .nextLine ∉ operations := fun hm => h (List.mem_cons_of_mem _ hm)
    cases operation with
    | nextLine => exact absurd List.mem_cons_self h
    -- looking at a character delivers nothing and leaves what is pending
    | peek =>
      rw [List.count_cons_of_ne (by simp)]
      exact ih hrest c
    | advance =>
      obtain ⟨hfirst, hleft⟩ := c.pending_advance
      have hleft : (c.perform .advance).pending = c.pending.tail := hleft
      rw [List.count_cons_self, delivered, hfirst, ih hrest, hleft]
      -- behind all that was pending, each further request counts as one without an item
      cases c.pending with
      | nil => simp [List.replicate_succ]
      | cons delivery rest => simp

/-- If nothing is done but to look at characters and to take them, also behind failures, then what a
cursor delivers is a first part of `deliveries`, one item for each character that is asked for, and
behind all of them nothing. The characters among the items are those of the lines up to the first end of
the source, each once and in order; the one at `j` on the line `i` leaves the cursor on that line, at
`j + 1`. The failures are those of the source up to that end, each once and in order, and each has the
number of the line behind those that came before it. -/
theorem delivered_eq (answers : List Answer) {operations : List Operation}
    (h : .nextLine ∉ operations) :
    let before := answers.takeWhile (· ≠ .finish)
    let all := deliveries 0 answers
    let asked := operations.count .advance
    (ofSource (Script.mk answers)).delivered operations =
      (all.take asked).map some ++ List.replicate (asked - all.length) none ∧
    (all.filterMap Delivery.character?).map Prod.fst = (linesAmong before).flatMap String.toList ∧
    (all.filterMap Delivery.character? = ((linesAmong before).zipIdx 1).flatMap fun (line, i) =>
      (line.toList.zipIdx 1).map fun (a, j) => (a, ⟨i, j + 1⟩)) ∧
    (all.filterMap Delivery.failure? = before.zipIdx.filterMap fun (answer, i) =>
      answer.failureBehind? (answers.take i)) := by
  intro before all asked
  exact ⟨delivered_eq_pending h (ofSource ⟨answers⟩), texts_deliveries 0 answers,
    characters_deliveries 0 answers, failures_deliveries [] answers⟩

/-- The character behind a failure and an empty line is not lost, and what the script has behind its
first end is not delivered. -/
theorem delivered_around_failure :
    let answers := [.line "", .line "ab", .failure .invalidUtf8, .line "", .line "c", .finish, .line "d"]
    let operations := [.peek, .advance, .peek, .advance, .advance, .peek, .advance, .advance]
    .nextLine ∉ operations ∧
    (ofSource (Script.mk answers)).delivered operations =
      [some (.character 'a' ⟨2, 2⟩), some (.character 'b' ⟨2, 3⟩),
        some (.failed (.unreadable 3 .invalidUtf8)), some (.character 'c' ⟨4, 2⟩), none] ∧
    ((deliveries 0 answers).filterMap Delivery.character?).map Prod.fst =
      ["", "ab", "", "c"].flatMap String.toList := by
  intro answers operations
  have h : .nextLine ∉ operations := by decide
  obtain ⟨hdelivered, hcharacters, -, -⟩ := delivered_eq answers h
  exact ⟨h, hdelivered.trans (by decide +kernel), hcharacters⟩

end Cursor
end ArithLexer
