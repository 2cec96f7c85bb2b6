import ArithLexer.Proofs.Sessions
import ArithLexer.Proofs.Stretches
import ArithLexer.Proofs.Tokenize

/-!
# The bytes of a text

A text is cut at the character that feeds the line, and its bytes at the byte that does. Both cut at
the same places, as no other character has this byte in it (`pieces_utf8Bytes`). So the bytes of a text
answer like its lines in memory, a lexer over the one is used like a lexer over the other, and the
tokens are those of the text (`lexing_bytes_of_text`).
-/

namespace ArithLexer

open Text (pieces stripTerminator)

/-! ### Characters and bytes -/

theorem utf8Bytes_eq (text : String) :
    utf8Bytes text = text.toList.flatMap String.utf8EncodeChar := by
  have h := String.toByteArray_ofList (l := text.toList)
  rw [String.ofList_toList] at h
  rw [utf8Bytes, String.toUTF8, h, List.utf8Encode]
  simp

theorem utf8Bytes_append (a b : String) : utf8Bytes (a ++ b) = utf8Bytes a ++ utf8Bytes b := by
  simp only [utf8Bytes_eq, String.toList_append, List.flatMap_append]

theorem utf8Bytes_ofList (cs : List Char) :
    utf8Bytes (String.ofList cs) = cs.flatMap String.utf8EncodeChar := by
  rw [utf8Bytes_eq, String.toList_ofList]

/-- Only the character that feeds the line has the byte that does: a character of one byte is that
byte, and the bytes of the others are larger than those of ASCII. -/
theorem lineFeed_mem_utf8EncodeChar {c : Char} :
    lineFeed ∈ String.utf8EncodeChar c ↔ c = '\n' := by
  constructor
  · intro h
    have hb : ∃ b ∈ String.utf8EncodeChar c, b.toNat = 10 := ⟨_, h, rfl⟩
    have hv : c.val.toNat = 10 := by
      simp only [String.utf8EncodeChar] at hb
      -- by the number of bytes: only with one of them the code point can be that of the line feed
      generalize c.val.toNat = v at hb
      split at hb
      · simp at hb; omega
      · split at hb
        · simp at hb; omega
        · split at hb
          · simp at hb; omega
          · simp at hb; omega
    exact Char.ext (UInt32.toNat_inj.1 hv)
  · rintro rfl
    decide

theorem lineFeed_mem_utf8Bytes_ofList {cs : List Char} :
    lineFeed ∈ utf8Bytes (String.ofList cs) ↔ '\n' ∈ cs := by
  rw [utf8Bytes_ofList, List.mem_flatMap]
  constructor
  · rintro ⟨c, hc, hb⟩
    rwa [← lineFeed_mem_utf8EncodeChar.1 hb]
  · intro h
    exact ⟨_, h, lineFeed_mem_utf8EncodeChar.2 rfl⟩

/-- The pieces of the bytes are the bytes of the pieces. -/
theorem pieces_utf8Bytes (text : String) :
    pieces lineFeed (utf8Bytes text) =
      (pieces '\n' text.toList).map fun p => utf8Bytes (String.ofList p) := by
  rw [utf8Bytes_eq]
  induction text.toList using Text.pieces_induction '\n' with
  | nil => rfl
  | last l hl hne =>
    have hb : lineFeed ∉ utf8Bytes (String.ofList l) := mt lineFeed_mem_utf8Bytes_ofList.1 hl
    -- a character has at least one byte, so no bytes of a piece are missing
    have hbne : utf8Bytes (String.ofList l) ≠ [] := by
      obtain ⟨c, cs, rfl⟩ := List.exists_cons_of_ne_nil hne
      have hc : 0 < (String.utf8EncodeChar c).length := by
        rw [String.length_utf8EncodeChar]
        exact c.utf8Size_pos
      rw [utf8Bytes_ofList, List.flatMap_cons]
      exact List.append_ne_nil_of_left_ne_nil (List.length_pos_iff.1 hc) _
    rw [Text.pieces_of_not_mem hl hne, ← utf8Bytes_ofList, Text.pieces_of_not_mem hb hbne]
    rfl
  | piece l rest hl ih =>
    have hb : lineFeed ∉ utf8Bytes (String.ofList l) := mt lineFeed_mem_utf8Bytes_ofList.1 hl
    have hfeed : String.utf8EncodeChar '\n' = [lineFeed] := by decide
    rw [utf8Bytes_ofList] at hb
    rw [Text.pieces_append_stop hl, List.map_cons, ← ih, utf8Bytes_ofList, List.flatMap_append,
      List.flatMap_append, List.flatMap_cons, List.flatMap_singleton, hfeed, List.singleton_append,
      Text.pieces_append_stop hb]

theorem answers_utf8Bytes (text : String) :
    (Stretches.last (utf8Bytes text)).answers = (Text.lines text).map .line := by
  rw [Stretches.answers, pieces_utf8Bytes, Text.lines, List.map_map, List.map_map]
  refine List.map_congr_left fun p _ => ?_
  rw [Function.comp_apply, Function.comp_apply, pieceAnswer_utf8Bytes, String.toList_ofList]

/-! ### Lexing the bytes of a text -/

/-- `r.Holds bytes` says that the stream has just these bytes to give, in whatever portions. -/
structure ByteStream.Holds (r : ByteStream) (bytes : List UInt8) : Prop where
  readable : r.Readable
  stretches : r.stretches = .last bytes

theorem holds_ofBytes (bytes : List UInt8) : (ByteStream.ofBytes bytes).Holds bytes :=
  ⟨⟨fun h => absurd rfl h, by simp [ByteStream.ofBytes]⟩, by
    simp [ByteStream.stretches, ByteStream.ofBytes, Stretches.ofSupply, Stretches.prepend]⟩

/-- Only the bytes count, not how they are handed out: a lexer over the stream gives what the reference
says of their pieces. -/
theorem ByteStream.Holds.ends_reference {r : ByteStream} {bytes : List UInt8} (h : r.Holds bytes) :
    (Lexer.ofSource r).Ends (reference (Stretches.last bytes).answers).1
      (reference (Stretches.last bytes).answers).2 := by
  have hanswers : (Stretches.last bytes).answers = r.stretches.answers := by rw [h.stretches]
  have hf := Lexer.follows_ofSource (R := fun (s : Script) (r : ByteStream) =>
    r.Readable ∧ s.answers = r.stretches.answers) (s := ⟨_⟩) ⟨h.readable, hanswers⟩ False
  exact (Lexer.ofSource_ends_reference _).of_follows answering_byteStream hf

/-- `Spells m r` says that the stream has the bytes of what is left of the lines in memory. -/
def Spells (m : MemoryLines) (r : ByteStream) : Prop :=
  ∃ s : Script, s.answers = m.lines.map .line ∧ r.Readable ∧ s.answers = r.stretches.answers

theorem answering_spells : Answering Spells := answering_memoryLines.common answering_byteStream

theorem ByteStream.Holds.spells {text : String} {r : ByteStream} (h : r.Holds (utf8Bytes text)) :
    Spells (.ofText text) r :=
  ⟨⟨(Text.lines text).map .line⟩, rfl, h.readable, by rw [h.stretches, answers_utf8Bytes]⟩

/-- The bytes of a text are read as its lines in memory are: every request for a line is answered
alike, every use of a lexer shows the same and asks the source as often, and the tokens are those of the
text. -/
theorem lexing_bytes_of_text {text : String} {r : ByteStream} (h : r.Holds (utf8Bytes text)) :
    (∀ n, LineSource.answer r n = LineSource.answer (MemoryLines.ofText text) n) ∧
    (∀ operations, (Session.ofSource r).observe operations =
      (Session.ofSource (MemoryLines.ofText text)).observe operations) ∧
    (Tokens.mk (Lexer.ofSource r) false).drain.1.mapM id = tokenize text := by
  have hs := h.spells
  refine ⟨fun n => (answering_spells.answer_eq hs n).symm, Session.observe_eq answering_spells hs, ?_⟩
  -- the one lexer ends in some way, and the other one is in step with it
  obtain ⟨tokens, last, he⟩ := (Lexer.ofSource (MemoryLines.ofText text)).exists_ends
  have hf := Lexer.follows_ofSource hs False
  rw [tokenize, Tokens.drain_of_ends he, Tokens.drain_of_ends (he.of_follows answering_spells hf)]

/-- A letter of two bytes is cut in two, and so is the line end before it. -/
theorem lexing_bytes_of_accented_text :
    let r := ByteStream.ofSupply 2 [.bytes [0x31, 0x0D], .failure ⟨.interrupted, "signal"⟩,
      .bytes [0x0A, 0x2B, 0xC3], .bytes [0xA9]]
    r.Holds (utf8Bytes "1\r\n+é") ∧ LineSource.answer r 0 = .ok (some "1") ∧
      LineSource.answer r 1 = .ok (some "+é") ∧
      (Tokens.mk (Lexer.ofSource r) false).drain.1.mapM id =
        .error (.rejected ⟨.unacceptable 'é', ⟨2, 2⟩, "+é"⟩) := by
  intro r
  have hr : r.Readable := readable_ofSupply (by decide) (by decide)
  -- the portions, put together without the interrupted read, are the bytes of the text
  have hst : r.stretches = .last (utf8Bytes "1\r\n+é") := by decide +kernel
  obtain ⟨hanswer, -, htokens⟩ := lexing_bytes_of_text ⟨hr, hst⟩
  have hrefused : firstRefused "1\r\n+é".toList =
      some ("1\r\n+".toList, .unacceptable 'é') := by decide
  rw [tokenize_of_some hrefused] at htokens
  exact ⟨⟨hr, hst⟩, hanswer 0, hanswer 1, htokens⟩

end ArithLexer
