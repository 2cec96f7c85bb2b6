import ArithLexer.Proofs.Items
import ArithLexer.Proofs.Reading
import ArithLexer.Proofs.Simulation

/-!
# After the end and after failures

What comes of the requests after the end, after a refused character and after a line that could not
be read, for a lexer over a script of lines, ends and failures in any order. The script counts how
often it is asked, so that it can be said that it is asked no more.

A lexer keeps account of its script (`Accounted`): what is left of it is what has not been asked for,
and the number of the current line is the number of lines delivered. So a lexer that waits for a line
is in step with a new lexer over the rest of the script, as many lines further down
(`Lexer.Waiting.follows`).
-/

namespace ArithLexer

/-- Whether an answer delivers a line. -/
def Answer.isLine : Answer → Bool
  | .line _ => true
  | _ => false

/-- How many lines some answers deliver. -/
def lineCount (answers : List Answer) : Nat := answers.countP Answer.isLine

/-- What is left of a counted script is what it has not been asked for, and `n` is the number of lines
it has delivered. -/
def Accounted (answers : List Answer) (n : Nat) (s : Counted Script) : Prop :=
  s.source.answers = answers.drop s.pulls ∧ n = lineCount (answers.take s.pulls)

theorem Accounted.asked {answers rest : List Answer} {n k : Nat}
    (h : Accounted answers n ⟨⟨rest⟩, k⟩) :
    rest.tail = answers.drop (k + 1) ∧
      n + lineCount rest.head?.toList = lineCount (answers.take (k + 1)) := by
  obtain ⟨hl, hn⟩ := h
  have hl : rest = answers.drop k := hl
  constructor
  · rw [hl, List.tail_drop]
  · rw [List.take_add_one, lineCount, lineCount, List.countP_append, hl, List.head?_drop, hn]
    rfl

theorem kept_accounted (answers : List Answer) : Kept (Accounted answers) where
  line := by
    -- the kind of the answer decides what is left of the script, and only a line is counted
    rintro n ⟨⟨_ | ⟨_ | _ | _, rest⟩⟩, k⟩ t text h hs <;> cases hs
    exact h.asked
  finish := by
    rintro n ⟨⟨_ | ⟨_ | _ | _, rest⟩⟩, k⟩ t h hs <;> cases hs <;> exact h.asked
  fail := by
    rintro n ⟨⟨_ | ⟨_ | _ | _, rest⟩⟩, k⟩ t cause h hs <;> cases hs
    exact h.asked

namespace Lexer

/-- A lexer that waits for a line is in step with a new lexer over what its source has left. -/
theorem Waiting.follows {S T : Type} {R : S → T → Prop} {s : S} {x : Lexer T} (h : x.Waiting)
    (hs : R s x.cursor.source) : Follows R x.position.line False (ofSource s) x := by
  refine ⟨h.state, hs, h.ahead, h.exhausted, (Nat.zero_add _).symm, ?_⟩
  -- nothing is ahead and no token has begun, so nothing of the last line has to agree
  rintro (hf | hf | hf)
  · exact hf.elim
  · exact absurd rfl hf
  · exact absurd rfl hf

theorem answering_counted : Answering fun (s : Script) (t : Counted Script) => s = t.source := by
  rintro s ⟨t, k⟩ (rfl : s = t)
  exact ⟨rfl, rfl⟩

/-- A lexer over a script that has not been asked. -/
def ofAnswers (answers : List Answer) : Lexer (Counted Script) := ofSource ⟨⟨answers⟩, 0⟩

theorem accounted_after (answers : List Answer) (n : Nat) :
    Accounted answers ((ofAnswers answers).after n).position.line
      ((ofAnswers answers).after n).cursor.source :=
  kept_after (x := ofAnswers answers) (kept_accounted answers) ⟨rfl, rfl⟩ n

theorem gives_ofAnswers (answers : List Answer) : (ofAnswers answers).Gives (resultsOf 0 answers) := by
  have hf := follows_ofSource (R := fun (s : Script) (t : Counted Script) => s = t.source)
    (s := ⟨answers⟩) (t := ⟨⟨answers⟩, 0⟩) rfl False
  have hr := hf.results answering_counted (resultsOf 0 answers).length
  -- the two are in step from the beginning, with no lines between them
  rwa [gives_resultsOf, Result.map_below_zero] at hr

/-- What follows a request, whichever it is. After the end, and after a refused character, every
request has the same result and leaves the lexer, its position and its source as they are. After a
line that could not be read the results are those of a new lexer over what the source has left, as
many lines further down as have been delivered. And the tokens taken from the lexer at that point are
the results up to the end or the first failure, one request for each, and then no request at all. -/
theorem requests_after_stop (answers : List Answer) (n : Nat) :
    let x := (ofAnswers answers).after n
    let y := x.next.after
    let asked := y.cursor.source.pulls
    (x.next.result = .ok none →
      ∀ m, (y.after m).next.result = .ok none ∧ y.after m = y) ∧
    (∀ error, x.next.result = .error (.rejected error) →
      ∀ m, (y.after m).next.result = .error (.rejected error) ∧ y.after m = y) ∧
    (∀ line cause, x.next.result = .error (.unreadable line cause) →
      y.cursor.source.source = ⟨answers.drop asked⟩ ∧
      ∀ m, y.results m =
        ((ofSource (Script.mk (answers.drop asked))).results m).map
          (Result.below (lineCount (answers.take asked)))) ∧
    ∃ tokens last, x.Ends tokens last ∧ ∀ m,
      ((Tokens.mk x false).after m).next.1 = (itemsOf tokens last)[m]? ∧
      ((Tokens.mk x false).after m).lexer = x.after (min m (tokens.length + 1)) := by
  intro x y asked
  have hleaves : Leaves x.next.result y := next_leaves x
  refine ⟨?_, ?_, ?_, ?_⟩
  · intro h m
    rw [h] at hleaves
    obtain ⟨hr, ha⟩ := Finished.next hleaves
    -- the request leaves the lexer as it is, so any number of them does
    rw [after_eq_self ha]
    exact ⟨hr, rfl⟩
  · intro error h m
    rw [h] at hleaves
    obtain ⟨hr, ha⟩ := Refuses.next hleaves
    rw [after_eq_self ha]
    exact ⟨hr, rfl⟩
  · intro line cause h
    rw [h] at hleaves
    obtain ⟨hwaiting, -⟩ := hleaves
    obtain ⟨hleft, hline⟩ : Accounted answers y.position.line y.cursor.source :=
      kept_next (kept_accounted answers) (accounted_after answers n)
    have hsource : y.cursor.source.source = ⟨answers.drop asked⟩ := by rw [← hleft]
    refine ⟨hsource, ?_⟩
    -- a new lexer over the rest goes in step, further up by the lines that were delivered
    intro m
    rw [← hline]
    exact (hwaiting.follows hsource.symm).results answering_counted m
  · obtain ⟨tokens, last, he⟩ := exists_ends x
    exact ⟨tokens, last, he, Tokens.items_of_ends he⟩

/-- The end stays the end though a line would follow, a letter is refused again, and after a failure
the lexer goes on with what is left. -/
theorem requests_after_some_stops :
    (∀ m, ((ofAnswers [.finish, .line "3"]).next.after.after m).next.result = .ok none) ∧
    (∀ m, ((ofAnswers [.line "12a"]).next.after.after m).next.result =
      .error (.rejected ⟨.unacceptable 'a', ⟨1, 3⟩, "12a"⟩)) ∧
    let answers := [.line "12", .failure .invalidUtf8, .line "3"]
    ((ofAnswers answers).after 1).next.result = .error (.unreadable 2 .invalidUtf8) ∧
    ∃ k, ∀ m, ((ofAnswers answers).after 2).results m =
      ((ofSource (Script.mk (answers.drop k))).results m).map
        (Result.below (lineCount (answers.take k))) := by
  have hend : (ofAnswers [.finish, .line "3"]).Gives [.ok none] := gives_ofAnswers _
  have hletter : (ofAnswers [.line "12a"]).Gives
      [.error (.rejected ⟨.unacceptable 'a', ⟨1, 3⟩, "12a"⟩)] := gives_ofAnswers _
  have hfailure : (ofAnswers [.line "12", .failure .invalidUtf8, .line "3"]).Gives
      [given (.number 12), .error (.unreadable 2 .invalidUtf8)] := gives_ofAnswers _
  rw [gives_cons_iff] at hend hletter
  rw [gives_cons_iff, gives_cons_iff] at hfailure
  refine ⟨?_, ?_, hfailure.2.1, ?_⟩
  · intro m
    exact ((requests_after_stop _ 0).1 hend.1 m).1
  · intro m
    exact ((requests_after_stop _ 0).2.1 _ hletter.1 m).1
  · obtain ⟨-, h⟩ := (requests_after_stop _ 1).2.2.1 _ _ hfailure.2.1
    exact ⟨_, h⟩

end Lexer
end ArithLexer
