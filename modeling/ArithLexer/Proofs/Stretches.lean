import ArithLexer.LineSource.ByteStream
import ArithLexer.Proofs.Lines
import ArithLexer.Proofs.Sources
import ArithLexer.TokenOutput

/-!
# The lines of a byte stream

However a supply hands out its bytes, what counts is the bytes between two failures: its *stretches*.
`Stretches.answers` says what they come to, piece by piece, and `answers_of_reads` that a byte stream
over the supply answers just so, whatever its capacity. So it makes no difference where the portions
are cut and where a read is interrupted.

`ByteStream.collects` follows the reads of one line. What is still to come of a stream
(`ByteStream.stretches`) is what it has in its buffer, and behind it what its supply has.
-/

namespace ArithLexer

open Text (pieces stripTerminator)

/-! ### Stretches of bytes -/

/-- What a supply gives, interrupted reads and the ends of portions apart: bytes, and then perhaps a
failure and more behind it. -/
inductive Stretches where
  | last (bytes : List UInt8)
  | failing (bytes : List UInt8) (cause : IoError) (behind : Stretches)
deriving DecidableEq, Repr

namespace Stretches

/-- The stretches with more bytes in front of the first one. -/
def prepend (content : List UInt8) : Stretches → Stretches
  | last bytes => last (content ++ bytes)
  | failing bytes cause behind => failing (content ++ bytes) cause behind

/-- The stretches of a supply: neighbouring portions are joined, and interrupted reads left out. -/
def ofSupply : List Portion → Stretches
  | [] => last []
  | .bytes content :: supply => (ofSupply supply).prepend content
  | .failure cause :: supply =>
    if cause.kind = .interrupted then ofSupply supply else failing [] cause (ofSupply supply)

@[simp] theorem prepend_nil (st : Stretches) : st.prepend [] = st := by
  cases st <;> rfl

@[simp] theorem prepend_prepend (a b : List UInt8) (st : Stretches) :
    (st.prepend b).prepend a = st.prepend (a ++ b) := by
  cases st <;> simp [prepend]

end Stretches

/-- Whether a piece ends with a line feed. -/
def terminated (piece : List UInt8) : Bool := piece.getLast? = some lineFeed

/-- What a piece of the input comes to. -/
def pieceAnswer (piece : List UInt8) : Answer :=
  match ByteStream.decodeLine piece with
  | .ok line => .line line
  | .error cause => .failure cause

/-- What stretches come to: an answer for each piece, in order. In front of a failure only the
complete pieces count, and what is left of the stretch behind them is lost. -/
def Stretches.answers : Stretches → List Answer
  | last bytes => (pieces lineFeed bytes).map pieceAnswer
  | failing bytes cause behind =>
    ((pieces lineFeed bytes).filter terminated).map pieceAnswer ++ .failure cause :: behind.answers

/-! ### Pieces -/

theorem fromUTF8?_utf8Bytes (text : String) :
    String.fromUTF8? ⟨(utf8Bytes text).toArray⟩ = some text := by
  have hbytes : (⟨(utf8Bytes text).toArray⟩ : ByteArray) = text.toByteArray := by
    simp [utf8Bytes, String.toUTF8]
  rw [hbytes, String.fromUTF8?, dif_pos text.isValidUTF8]
  rfl

theorem utf8Bytes_of_fromUTF8? {bytes : List UInt8} {text : String}
    (h : String.fromUTF8? ⟨bytes.toArray⟩ = some text) : utf8Bytes text = bytes := by
  rw [String.fromUTF8?] at h
  split at h
  · obtain rfl := Option.some.inj h
    simp [utf8Bytes, String.toUTF8, String.fromUTF8]
  · cases h

/-- A text is decoded, and loses its line end. -/
theorem pieceAnswer_utf8Bytes (text : String) :
    pieceAnswer (utf8Bytes text) = .line (String.ofList (stripTerminator text.toList)) := by
  rw [pieceAnswer, ByteStream.decodeLine, fromUTF8?_utf8Bytes]

theorem pieceAnswer_of_invalid {piece : List UInt8} (h : ¬ ∃ text, utf8Bytes text = piece) :
    pieceAnswer piece = .failure .invalidUtf8 := by
  have hnone : String.fromUTF8? ⟨piece.toArray⟩ = none := by
    rw [String.fromUTF8?, dif_neg]
    intro hv
    refine h ⟨⟨_, hv⟩, ?_⟩
    simp [utf8Bytes, String.toUTF8]
  rw [pieceAnswer, ByteStream.decodeLine, hnone]

theorem terminated_concat (l : List UInt8) : terminated (l ++ [lineFeed]) = true := by
  simp [terminated]

theorem terminated_of_not_mem {l : List UInt8} (h : lineFeed ∉ l) : terminated l = false := by
  simp only [terminated, decide_eq_false_iff_not]
  exact fun hl => h (List.mem_of_getLast? hl)

namespace Stretches

/-- A complete line in front of stretches is answered first. -/
theorem answers_prepend_line {l : List UInt8} (h : lineFeed ∉ l) (st : Stretches) :
    (st.prepend (l ++ [lineFeed])).answers = pieceAnswer (l ++ [lineFeed]) :: st.answers := by
  cases st with
  | last bytes =>
    rw [prepend, answers, List.append_assoc, List.singleton_append, Text.pieces_append_stop h]
    rfl
  | failing bytes cause behind =>
    rw [prepend, answers, List.append_assoc, List.singleton_append, Text.pieces_append_stop h,
      List.filter_cons, if_pos (terminated_concat l)]
    rfl

theorem answers_last_of_not_mem {l : List UInt8} (h : lineFeed ∉ l) (hne : l ≠ []) :
    (last l).answers = [pieceAnswer l] := by
  rw [answers, Text.pieces_of_not_mem h hne]
  rfl

/-- An incomplete line in front of a failure is lost. -/
theorem answers_failing_of_not_mem {l : List UInt8} (h : lineFeed ∉ l) (cause : IoError)
    (behind : Stretches) : (failing l cause behind).answers = .failure cause :: behind.answers := by
  by_cases hne : l = []
  · subst hne
    rfl
  · rw [answers, Text.pieces_of_not_mem h hne, List.filter_cons, terminated_of_not_mem h]
    rfl

/-- What collecting one line can come to: a complete line; the rest of the input, where it has no
more line feed; or a failure. -/
inductive Collects : Stretches → Except IoError (List UInt8) → Stretches → Prop
  | line {l : List UInt8} {st : Stretches} : lineFeed ∉ l →
      Collects (st.prepend (l ++ [lineFeed])) (.ok (l ++ [lineFeed])) st
  | rest {l : List UInt8} : lineFeed ∉ l → Collects (last l) (.ok l) (last [])
  | failure {l : List UInt8} {cause : IoError} {behind : Stretches} : lineFeed ∉ l →
      Collects (failing l cause behind) (.error cause) behind

/-- Bytes without a line feed in front go to the line that is collected. -/
theorem Collects.prepend {st st' : Stretches} {r : Except IoError (List UInt8)}
    (h : st.Collects r st') {l : List UInt8} (hl : lineFeed ∉ l) :
    (st.prepend l).Collects (r.map (l ++ ·)) st' := by
  -- what is collected begins with these bytes, in whichever way it ends
  cases h with
  | @line m st hm =>
    have hlm : lineFeed ∉ l ++ m := by simp [hl, hm]
    simpa [Except.map] using @Collects.line _ st' hlm
  | @rest m hm =>
    have hlm : lineFeed ∉ l ++ m := by simp [hl, hm]
    exact .rest hlm
  | @failure m cause behind hm =>
    have hlm : lineFeed ∉ l ++ m := by simp [hl, hm]
    exact .failure hlm

end Stretches

/-! ### Reading -/

theorem not_mem_takeWhile_ne {α : Type} [DecidableEq α] (stop : α) (as : List α) :
    stop ∉ as.takeWhile (· ≠ stop) := by
  intro h
  simpa using List.mem_takeWhile_imp h

namespace ByteStream

/-- What is still to come of a stream. -/
def stretches (r : ByteStream) : Stretches := (Stretches.ofSupply r.supply).prepend r.buffer

/-- A stream that can take bytes from its supply, where every read but perhaps the last one gives
some. -/
structure Readable (r : ByteStream) : Prop where
  room : r.supply ≠ [] → 0 < r.capacity
  filled : .bytes [] ∉ r.supply.dropLast

variable {r : ByteStream}

theorem Readable.tail {portion : Portion} {supply : List Portion} (h : r.Readable)
    (hs : r.supply = portion :: supply) (buffer : List UInt8) :
    Readable ⟨buffer, supply, r.capacity⟩ where
  room _ := h.room (by simp [hs])
  filled := by
    intro hm
    have hf := h.filled
    rw [hs] at hf
    cases supply with
    | nil => simp at hm
    | cons p ps => exact hf (List.mem_cons_of_mem portion hm)

theorem Readable.restOf {content : List UInt8} {supply : List Portion} (h : r.Readable)
    (hs : r.supply = .bytes content :: supply) (buffer : List UInt8) :
    Readable ⟨buffer, restOf content r.capacity supply, r.capacity⟩ := by
  by_cases hd : (content.drop r.capacity).isEmpty = true
  · rw [ByteStream.restOf, if_pos hd]
    exact h.tail hs buffer
  · rw [ByteStream.restOf, if_neg hd]
    -- what is left of the portion is not empty, or it would not have been put back
    refine ⟨fun _ => h.room (by simp [hs]), ?_⟩
    have hf := h.filled
    rw [hs] at hf
    cases supply with
    | nil => simp
    | cons p ps =>
      rw [List.dropLast_cons_cons, List.mem_cons, not_or] at hf ⊢
      exact ⟨fun he => hd (by simpa using he), hf.2⟩

/-- Taking part of a portion leaves the stretches as they are. -/
theorem ofSupply_restOf (content : List UInt8) (taken : Nat) (supply : List Portion) :
    (Stretches.ofSupply (restOf content taken supply)).prepend (content.take taken) =
      Stretches.ofSupply (.bytes content :: supply) := by
  rw [restOf, Stretches.ofSupply]
  split
  · next hd =>
    rw [List.isEmpty_iff, List.drop_eq_nil_iff] at hd
    rw [List.take_of_length_le hd]
  · rw [Stretches.ofSupply, Stretches.prepend_prepend, List.take_append_drop]

/-- Collecting a line takes it from the stretches of the stream. -/
theorem collects (hr : r.Readable) (got : List UInt8) :
    ∃ result s, r.collect got = (result.map (got ++ ·), s) ∧
      r.stretches.Collects result s.stretches ∧ s.Readable := by
  -- each read is one case; in all of them the line so far, `got`, is only passed on
  fun_induction collect r got with
  | case1 r got b bs hb available feed rest hd =>
    -- the buffer has a line feed: the line ends there, and the rest stays in the buffer
    have hsplit := List.takeWhile_append_dropWhile (p := fun x => decide (x ≠ lineFeed))
      (l := available)
    have hl := not_mem_takeWhile_ne lineFeed available
    have hfeed : feed = lineFeed := by
      have hh := List.head?_dropWhile_not (fun x => decide (x ≠ lineFeed)) available
      rw [hd] at hh
      simpa using hh
    subst hfeed
    rw [hd] at hsplit
    have hst : r.stretches = (stretches { r with buffer := rest }).prepend
        (available.takeWhile (· ≠ lineFeed) ++ [lineFeed]) := by
      rw [stretches, stretches, Stretches.prepend_prepend, List.append_assoc,
        List.singleton_append, hsplit, hb]
    refine ⟨.ok (available.takeWhile (· ≠ lineFeed) ++ [lineFeed]), { r with buffer := rest }, ?_,
      hst ▸ .line hl, hr.room, hr.filled⟩
    rw [Except.map, List.append_assoc]
  | case2 r got b bs hb available hd ih =>
    -- what was in the buffer belongs to the line, which goes on with the next read
    have hl : lineFeed ∉ available := by
      intro hm
      simpa using List.dropWhile_eq_nil_iff.1 hd lineFeed hm
    have hst : r.stretches = (stretches { r with buffer := [] }).prepend available := by
      rw [stretches, stretches, Stretches.prepend_nil, hb]
    obtain ⟨result, s, hc, hcol, hs⟩ := ih ⟨hr.room, hr.filled⟩
    refine ⟨result.map (available ++ ·), s, ?_, hst ▸ hcol.prepend hl, hs⟩
    rw [hc]
    cases result <;> simp [Except.map]
  | case3 r got hb hs =>
    have hst : r.stretches = .last [] := by
      rw [stretches, hs, hb]
      rfl
    exact ⟨.ok [], r, by simp [Except.map], hst ▸ .rest (by simp), hr⟩
  | case4 r got hb cause supply hs hk ih =>
    -- an interrupted read is no part of the stretches
    have hst : r.stretches = stretches { r with supply := supply } := by
      rw [stretches, stretches, hs, Stretches.ofSupply, if_pos hk]
    rw [hst]
    exact ih (hr.tail hs _)
  | case5 r got hb cause supply hs hk =>
    -- a failure ends the stretch, and what was got of the line is lost
    have hst : r.stretches = .failing [] cause (stretches { r with supply := supply }) := by
      rw [stretches, stretches, hs, Stretches.ofSupply, if_neg hk, hb, Stretches.prepend_nil,
        Stretches.prepend_nil]
    exact ⟨.error cause, { r with supply := supply }, rfl, hst ▸ .failure (by simp),
      hr.tail hs _⟩
  | case6 r got hb content supply hs ht =>
    -- only the last read may be empty
    have hroom := hr.room (by simp [hs])
    have hcontent : content = [] := by
      rw [List.take_eq_nil_iff] at ht
      exact ht.resolve_left (by omega)
    subst hcontent
    have hsupply : supply = [] := by
      have hf := hr.filled
      rw [hs] at hf
      cases supply with
      | nil => rfl
      | cons p ps => simp at hf
    subst hsupply
    have hst : r.stretches = .last [] := by
      rw [stretches, hs, hb]
      rfl
    refine ⟨.ok [], { r with supply := [] }, by simp [Except.map], ?_, hr.tail hs _⟩
    rw [hst, stretches, hb]
    exact .rest (by simp)
  | case7 r got hb content supply hs ht ih =>
    have hst : r.stretches = stretches
        { r with
          buffer := content.take r.capacity
          supply := restOf content r.capacity supply } := by
      rw [stretches, stretches, ofSupply_restOf, hs, hb, Stretches.prepend_nil]
    rw [hst]
    exact ih (hr.restOf hs _)

theorem next_of_collect {line : List UInt8} {s : ByteStream} (hc : r.collect [] = (.ok line, s))
    (hne : line ≠ []) : r.next = ((decodeLine line).map some, s) := by
  obtain ⟨b, bs, rfl⟩ := List.exists_cons_of_ne_nil hne
  rw [next, hc]

end ByteStream

/-! ### Answers -/

theorem Script.next_pieceAnswer (piece : List UInt8) (answers : List Answer) :
    LineSource.next (Script.mk (pieceAnswer piece :: answers)) =
      ((ByteStream.decodeLine piece).map some, ⟨answers⟩) := by
  rw [pieceAnswer]
  cases ByteStream.decodeLine piece <;> rfl

/-- A stream answers like a script of what its stretches come to. -/
theorem answering_byteStream :
    Answering fun (s : Script) (r : ByteStream) => r.Readable ∧ s.answers = r.stretches.answers := by
  rintro ⟨answers⟩ r ⟨hr, (rfl : answers = _)⟩
  obtain ⟨result, s, hc, hcol, hs⟩ := ByteStream.collects hr []
  have hc : r.collect [] = (result, s) := by
    rw [hc]
    cases result <;> rfl
  have hnext : LineSource.next r = r.next := rfl
  rw [hnext]
  generalize hst : r.stretches = st at hcol
  generalize hst' : s.stretches = st' at hcol
  -- how the line was collected says which answer comes first
  cases hcol with
  | @line l st hl =>
    rw [Stretches.answers_prepend_line hl, Script.next_pieceAnswer,
      ByteStream.next_of_collect hc (by simp)]
    exact ⟨rfl, hs, by rw [hst']⟩
  | @rest l hl =>
    -- nothing is left to read, or an unfinished last line
    by_cases hne : l = []
    · subst hne
      rw [ByteStream.next, hc]
      exact ⟨rfl, hs, by rw [hst']; rfl⟩
    · rw [Stretches.answers_last_of_not_mem hl hne, Script.next_pieceAnswer,
        ByteStream.next_of_collect hc hne]
      exact ⟨rfl, hs, by rw [hst']; rfl⟩
  | @failure l cause behind hl =>
    rw [Stretches.answers_failing_of_not_mem hl, ByteStream.next, hc]
    exact ⟨rfl, hs, by rw [hst']; rfl⟩

theorem readable_ofSupply {capacity : Nat} {supply : List Portion} (hc : 0 < capacity)
    (hs : .bytes [] ∉ supply) : (ByteStream.ofSupply capacity supply).Readable :=
  ⟨fun _ => hc, fun hm => hs (List.dropLast_subset _ hm)⟩

theorem stretches_ofSupply (capacity : Nat) (supply : List Portion) :
    (ByteStream.ofSupply capacity supply).stretches = Stretches.ofSupply supply :=
  Stretches.prepend_nil _

/-- A stream answers what its stretches come to, and then always the end. -/
theorem ByteStream.Readable.answer_eq {r : ByteStream} (hr : r.Readable) (n : Nat) :
    LineSource.answer r n = (r.stretches.answers[n]?.getD .finish).result := by
  rw [← Script.answer_eq, answering_byteStream.answer_eq ⟨hr, rfl⟩]

theorem answer_ofSupply {capacity : Nat} {supply : List Portion} (hc : 0 < capacity)
    (hs : .bytes [] ∉ supply) (n : Nat) :
    LineSource.answer (ByteStream.ofSupply capacity supply) n =
      ((Stretches.ofSupply supply).answers[n]?.getD .finish).result := by
  rw [(readable_ofSupply hc hs).answer_eq, stretches_ofSupply]

/-- A stream over a supply whose portions are not empty answers what its stretches come to, and then
always the end. A piece that is a text is answered without its line end, and one that is none is a
failure. So neither the capacity, nor where the portions are cut, nor the interrupted reads make a
difference. -/
theorem answers_of_reads {capacity : Nat} {supply : List Portion} (hc : 0 < capacity)
    (hs : .bytes [] ∉ supply) :
    (∀ n, LineSource.answer (ByteStream.ofSupply capacity supply) n =
      ((Stretches.ofSupply supply).answers[n]?.getD .finish).result) ∧
    (∀ text, pieceAnswer (utf8Bytes text) =
      .line (String.ofList (Text.dropFinal '\r' (Text.dropFinal '\n' text.toList)))) ∧
    (∀ piece, (¬ ∃ text, utf8Bytes text = piece) → pieceAnswer piece = .failure .invalidUtf8) ∧
    ∀ capacity' supply', 0 < capacity' → .bytes [] ∉ supply' →
      Stretches.ofSupply supply' = Stretches.ofSupply supply →
      ∀ n, LineSource.answer (ByteStream.ofSupply capacity' supply') n =
        LineSource.answer (ByteStream.ofSupply capacity supply) n := by
  refine ⟨answer_ofSupply hc hs, pieceAnswer_utf8Bytes, fun _ => pieceAnswer_of_invalid, ?_⟩
  intro capacity' supply' hc' hs' hst n
  rw [answer_ofSupply hc hs, answer_ofSupply hc' hs', hst]

/-- A character and a line end that are cut in two, an interrupted read, a failure behind a `7`, and a
byte that no text holds. -/
theorem answers_of_cut_reads :
    let reset : IoError := ⟨.connectionReset, "connection reset"⟩
    let supply := [.bytes [0x31, 0xC3], .failure ⟨.interrupted, "signal"⟩, .bytes [0xA9, 0x0D],
      .bytes [0x0A, 0x37], .failure reset, .bytes [0xFF, 0x0A, 0x32]]
    let answer := LineSource.answer (ByteStream.ofSupply 2 supply)
    0 < 2 ∧ Portion.bytes [] ∉ supply ∧ answer 0 = .ok (some "1é") ∧ answer 1 = .error reset ∧
      answer 2 = .error .invalidUtf8 ∧ answer 3 = .ok (some "2") ∧ ∀ n, answer (n + 4) = .ok none := by
  intro reset supply answer
  have hc : 0 < 2 := by decide
  have hs : Portion.bytes [] ∉ supply := by decide
  have hanswer := (answers_of_reads hc hs).1
  have hanswers : (Stretches.ofSupply supply).answers =
      [.line "1é", .failure reset, .failure .invalidUtf8, .line "2"] := by decide +kernel
  rw [hanswers] at hanswer
  exact ⟨hc, hs, hanswer 0, hanswer 1, hanswer 2, hanswer 3, fun n => hanswer (n + 4)⟩

end ArithLexer
