import ArithLexer.Proofs.Reporting
import ArithLexer.Proofs.TextBytes

/-!
# The line numbers of failures

A lexer numbers its lines as its source delivers them. A line of bytes that is no text is read, but it is
not delivered: the failure has the right number, and everything behind it has a number that is one too
low.

`Lexer.failure_of_request` says, for any source, which of its answers a failure is about, and how its
number comes about. The answers of a byte stream are its pieces (`ByteStream.Holds.told_of_last`), and a
piece is as many line feeds away from the start as there are pieces before it. The main statement,
`lineNumber_of_failure`, is what the number says about the bytes.
-/

namespace ArithLexer

open LineSource (told)
open Lexer (counting)
open Text (pieces)

namespace LexFailure

def lineNumber : LexFailure → Nat
  | rejected error => error.position.line
  | unreadable line _ => line

/-- What the source has answered for the line that a failure is about. -/
def answer : LexFailure → Answer
  | rejected error => .line error.line
  | unreadable _ cause => .failure cause

theorem answer_ne_finish (failure : LexFailure) : failure.answer ≠ .finish := by
  cases failure <;> simp [answer]

end LexFailure

/-! ### The failures of a lexer -/

namespace Lexer

variable {S : Type} [LineSource S] {s : S} {x y : Lexer (Counted S)} {rs : List Result}

/-- A turn that fails is about the last answer of the source. Its number and the failures before it
account for all of the answers, unless the end is one of them. -/
theorem Account.failure_of_turn (h : x.Account s rs) {failure : LexFailure} {events : List Log.Event}
    (hx : x.turn = .answered ⟨.error failure, y, events⟩) :
    (told s y.pulls).getLast? = some failure.answer ∧
      (.finish ∉ told s y.pulls →
        y.pulls = failure.lineNumber + rs.countP Result.isUnreadable) := by
  have hleaves := leaves_of_answered hx
  have hafter : y.Account s (rs ++ [.error failure]) := by
    have hturn := h.turn
    rwa [hx] at hturn
  have ht := turns x
  rw [hx] at ht
  -- a turn that fails refuses a character or could not read a line
  cases ht with
  | @reject reason events hs =>
    refine ⟨h.current ?_, fun hend => ?_⟩
    · -- nothing is refused between two tokens at the end of a line
      by_contra hnot
      obtain ⟨ha, hstart⟩ : x.cursor.ahead = [] ∧ x.state = .start := by simpa using hnot
      rw [Cursor.peek, ha, hstart] at hs
      cases hs
    · rw [h.pulls_eq, if_neg hend]
      rfl
  | @fail d failure events events' ha hs hn =>
    rcases Cursor.asks_nextLine h.asked hn with ⟨-, hr, -⟩ | ⟨-, last, ⟨k, htold⟩, line, cause, rfl, rfl⟩
    · cases hr
    · refine ⟨?_, fun hend => ?_⟩
      · show (told s d.source.pulls).getLast? = _
        rw [htold, List.getLast?_concat]
        rfl
      · -- the line is the next one, and the failure itself is one more
        have hline : line = d.position.line + 1 := hleaves.2
        rw [hafter.pulls_eq, if_neg hend, List.countP_append, List.countP_singleton]
        show d.position.line + (_ + 1) + 0 = line + _
        omega

theorem failure_of_request {n : Nat} {failure : LexFailure}
    (h : ((counting s).after n).next.result = .error failure) :
    (told s ((counting s).after (n + 1)).pulls).getLast? = some failure.answer ∧
      (.finish ∉ told s ((counting s).after (n + 1)).pulls →
        ((counting s).after (n + 1)).pulls =
          failure.lineNumber + ((counting s).results n).countP Result.isUnreadable) := by
  obtain ⟨k, y, ⟨r, z, events⟩, hk, hy, hr, hz⟩ := (counting s).answer_of_requests n
  have ha := account_course s k
  rw [hk] at ha
  obtain rfl : r = .error failure := hr.trans h
  obtain rfl : z = (counting s).after (n + 1) := hz
  -- the failure is that of the last turn of the request
  exact ha.failure_of_turn hy

end Lexer

/-! ### The pieces of the bytes -/

/-- Only the last piece can lack its stop. -/
theorem Text.count_flatten_of_pieces {α : Type} [DecidableEq α] (stop : α) (as : List α)
    {earlier later : List (List α)} {piece : List α}
    (h : pieces stop as = earlier ++ piece :: later) : earlier.flatten.count stop = earlier.length := by
  -- every piece but the last ends with a stop, and holds no other
  induction as using pieces_induction stop generalizing earlier with
  | nil => simp [pieces] at h
  | last l hl hne =>
    rw [pieces_of_not_mem hl hne] at h
    obtain rfl : earlier = [] := by
      have hlength := congrArg List.length h
      simp only [List.length_append, List.length_cons, List.length_nil] at hlength
      exact List.eq_nil_of_length_eq_zero (by omega)
    rfl
  | piece l rest hl ih =>
    rw [pieces_append_stop hl] at h
    cases earlier with
    | nil => rfl
    | cons first earlier =>
      obtain ⟨rfl, hrest⟩ := List.cons.inj h
      rw [List.flatten_cons, List.count_append, ih hrest, List.count_append,
        List.count_eq_zero_of_not_mem hl, List.count_singleton_self, List.length_cons]
      omega

theorem pieceAnswer_ne_finish (piece : List UInt8) : pieceAnswer piece ≠ .finish := by
  rw [pieceAnswer]
  cases ByteStream.decodeLine piece <;> simp

@[simp] theorem Answer.ofResult_result (answer : Answer) : Answer.ofResult answer.result = answer := by
  cases answer <;> rfl

variable {r : ByteStream} {bytes : List UInt8}

theorem ByteStream.Holds.answer_eq (h : r.Holds bytes) (n : Nat) :
    LineSource.answer r n =
      (((pieces lineFeed bytes).map pieceAnswer)[n]?.getD .finish).result := by
  rw [h.readable.answer_eq, h.stretches, Stretches.answers]

/-- If the last answer of a stream is not the end, then it is that of one of the pieces, and so are the
answers before it. -/
theorem ByteStream.Holds.told_of_last (h : r.Holds bytes) {n : Nat} {answer : Answer}
    (hlast : (told r n).getLast? = some answer) (hne : answer ≠ .finish) :
    .finish ∉ told r n ∧ ∃ earlier line later, pieces lineFeed bytes = earlier ++ line :: later ∧
      pieceAnswer line = answer ∧ n = earlier.length + 1 := by
  have htold : told r n =
      (List.range n).map fun i => ((pieces lineFeed bytes).map pieceAnswer)[i]?.getD .finish := by
    simp only [told, h.answer_eq, Answer.ofResult_result]
  generalize pieces lineFeed bytes = ps at htold ⊢
  have hpiece : ∀ i (hi : i < ps.length),
      (ps.map pieceAnswer)[i]?.getD .finish = pieceAnswer ps[i] := by
    intro i hi
    rw [List.getElem?_map, List.getElem?_eq_getElem hi]
    rfl
  cases n with
  | zero => cases hlast
  | succ n =>
    have hn : (ps.map pieceAnswer)[n]?.getD .finish = answer := by
      rw [htold, List.range_succ, List.map_append, List.map_singleton, List.getLast?_concat] at hlast
      exact Option.some.inj hlast
    -- behind the last piece the answer would be the end
    have hlt : n < ps.length := by
      by_contra hge
      rw [List.getElem?_eq_none (by simpa using hge)] at hn
      exact hne hn.symm
    refine ⟨fun hmem => ?_, ps.take n, ps[n], ps.drop (n + 1), ?_, ?_, ?_⟩
    · rw [htold] at hmem
      obtain ⟨i, hi, hend⟩ := List.mem_map.1 hmem
      have hi : i < n + 1 := List.mem_range.1 hi
      rw [hpiece i (by omega)] at hend
      exact pieceAnswer_ne_finish _ hend
    · rw [← List.drop_eq_getElem_cons hlt, List.take_append_drop]
    · rw [← hpiece n hlt, hn]
    · rw [List.length_take_of_le (Nat.le_of_lt hlt)]

/-! ### The number of a failure -/

/-- A failure is about one of the pieces of the bytes, the last one that the stream was asked for. Its
number, and the number of requests before that found a line that could not be read, come to one more than
the line feeds in front of that piece. So it is the number of the line in the input exactly if there
were no such requests. -/
theorem lineNumber_of_failure (h : r.Holds bytes) {n : Nat} {failure : LexFailure}
    (hf : ((counting r).after n).next.result = .error failure) :
    ∃ earlier line later, pieces lineFeed bytes = earlier ++ line :: later ∧
      bytes = earlier.flatten ++ line ++ later.flatten ∧
      pieceAnswer line = failure.answer ∧
      ((counting r).after (n + 1)).pulls = earlier.length + 1 ∧
      failure.lineNumber + ((counting r).results n).countP Result.isUnreadable =
        1 + earlier.flatten.count lineFeed ∧
      (failure.lineNumber = 1 + earlier.flatten.count lineFeed ↔
        ((counting r).results n).countP Result.isUnreadable = 0) := by
  obtain ⟨hlast, hnumber⟩ := Lexer.failure_of_request hf
  obtain ⟨hend, earlier, line, later, hpieces, hline, hpulls⟩ :=
    h.told_of_last hlast failure.answer_ne_finish
  -- the pieces before the failure have one line feed each
  have hcount := Text.count_flatten_of_pieces lineFeed bytes hpieces
  have hnumber := hnumber hend
  have hbytes : bytes = earlier.flatten ++ line ++ later.flatten := by
    rw [← Text.flatten_pieces lineFeed bytes, hpieces]
    simp
  exact ⟨earlier, line, later, hpieces, hbytes, hline, hpulls, by omega, by omega⟩

/-- Behind a number and a line that is no text, the refused character stands on the third line, and has
the number 2. -/
theorem lineNumber_of_refused_at_sign :
    let bytes := [0x31, 0x0A, 0xFF, 0x0A, 0x40]
    let x := counting (ByteStream.ofBytes bytes)
    (x.after 2).next.result = .error (.rejected ⟨.unacceptable '@', ⟨2, 1⟩, "@"⟩) ∧
      ∃ earlier line later, pieces lineFeed bytes = earlier ++ line :: later ∧
        pieceAnswer line = .line "@" ∧
        2 + (x.results 2).countP Result.isUnreadable = 1 + earlier.flatten.count lineFeed := by
  intro bytes x
  have hcourse : (x.course 6).1 = [given (.number 1), .error (.unreadable 2 .invalidUtf8),
      .error (.rejected ⟨.unacceptable '@', ⟨2, 1⟩, "@"⟩)] := by decide +kernel
  have hx := x.gives_course 6
  rw [hcourse, Lexer.gives_cons_iff, Lexer.gives_cons_iff, Lexer.gives_cons_iff] at hx
  have hf : (x.after 2).next.result = .error (.rejected ⟨.unacceptable '@', ⟨2, 1⟩, "@"⟩) :=
    hx.2.2.1
  obtain ⟨earlier, line, later, hpieces, -, hline, -, hnumber, -⟩ :=
    lineNumber_of_failure (holds_ofBytes bytes) hf
  exact ⟨hf, earlier, line, later, hpieces, hline, hnumber⟩

/-- If the first line is no text, both failures have the number 1, though the second is about a line
behind a line feed. -/
theorem lineNumber_ne_behind_unreadable_line :
    let bytes := [0xFF, 0x0A, 0x40]
    let x := counting (ByteStream.ofBytes bytes)
    let second := LexFailure.rejected ⟨.unacceptable '@', ⟨1, 1⟩, "@"⟩
    x.Gives [.error (.unreadable 1 .invalidUtf8), .error second] ∧
      pieces lineFeed bytes = [[0xFF, 0x0A], [0x40]] ∧ pieceAnswer [0x40] = second.answer ∧
      second.lineNumber ≠ 1 + [0xFF, 0x0A].count lineFeed := by
  intro bytes x second
  have hcourse : (x.course 3).1 = [.error (.unreadable 1 .invalidUtf8), .error second] := by
    decide +kernel
  exact ⟨hcourse ▸ x.gives_course 3, by decide, by decide +kernel, by decide⟩

end ArithLexer
