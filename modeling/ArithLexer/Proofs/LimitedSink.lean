import ArithLexer.Proofs.Streaming
import ArithLexer.Proofs.Writing

/-!
# Writing to a sink that fails

A sink with room for `n` bytes fails at the byte behind them, wherever that is: within a token, between
the token and its line feed, or right before an error of lexing. What it accepts is what a sink without
limit accepts, cut off behind `n` bytes. If that is everything, the limit makes no difference; if not,
the failure of the sink is the result, and the lexer has been asked for the token in whose line the
sink failed, and for nothing behind it. The main statement is `writeTokens_limited`.

`HitsLine` says in which line a byte is. The lines are written one after the other, and after each of
them what the sink still accepts is less by its length (`run_writeLines_of_short`).
-/

namespace ArithLexer

open Lexer (counting)

/-! ### The line in which a byte is -/

/-- `HitsLine format tokens n before token` says that among the lines of the tokens the byte behind the
first `n` is in the line of `token`, which comes behind the lines of `before`. -/
structure HitsLine (format : TokenFormat) (tokens : List Token) (n : Nat) (before : List Token)
    (token : Token) : Prop where
  among : before ++ [token] <+: tokens
  behind : (tokenBytes format before).length ≤ n
  within : n < (tokenBytes format (before ++ [token])).length

section
variable {format : TokenFormat} {tokens before : List Token} {token t : Token} {n : Nat}

theorem HitsLine.head (h : n < (utf8Bytes (format.line token)).length) :
    HitsLine format (token :: tokens) n [] token := by
  refine ⟨⟨tokens, rfl⟩, Nat.zero_le n, ?_⟩
  show n < (utf8Bytes (format.line token) ++ []).length
  rwa [List.append_nil]

theorem HitsLine.cons (h : HitsLine format tokens n before token) :
    HitsLine format (t :: tokens) ((utf8Bytes (format.line t)).length + n) (t :: before) token where
  among := List.cons_prefix_cons.2 ⟨rfl, h.among⟩
  behind := by
    have := h.behind
    simp only [tokenBytes_cons, List.length_append]
    omega
  within := by
    have := h.within
    simp only [List.cons_append, tokenBytes_cons, List.length_append] at this ⊢
    omega

end

/-! ### Writing -/

/-- Where there is not enough room for the lines of some tokens, they are written as far as there is,
and the first line that is not written is the one in which the room ends. -/
theorem run_writeLines_of_short {format : TokenFormat} {tokens : List Token} {sink : Sink} {room : Nat}
    (hr : sink.room = some room) (hs : room < (tokenBytes format tokens).length) :
    ∃ before token, HitsLine format tokens room before token ∧
      (writeLines Sink.device.writer format tokens).run sink =
        ((before.length, .error Sink.closed),
          ⟨sink.written ++ (tokenBytes format tokens).take room, some 0⟩) := by
  induction tokens generalizing sink room with
  | nil => exact absurd hs (Nat.not_lt_zero room)
  | cons token tokens ih =>
    rw [tokenBytes_cons] at hs ⊢
    rw [writeLines, writeToken_sink, StateT.run_bind]
    rcases Nat.lt_or_ge room (utf8Bytes (format.line token)).length with hlt | hge
    · rw [List.take_append_of_le_length (Nat.le_of_lt hlt), Sink.run_writer_of_short hr hlt]
      exact ⟨[], token, .head hlt, rfl⟩
    · -- the line is written, and what is left of the room is for the other lines
      obtain ⟨rest, rfl⟩ := Nat.exists_eq_add_of_le hge
      have hroom : (sink.extended (utf8Bytes (format.line token))).room = some rest := by
        simp [Sink.extended, hr]
      rw [List.length_append] at hs
      obtain ⟨before, t, hhit, hrun⟩ := ih hroom (Nat.lt_of_add_lt_add_left hs)
      refine ⟨token :: before, t, hhit.cons, ?_⟩
      rw [Sink.run_writer_of_accepts (Sink.accepts_of_room hr hge), List.take_length_add_append]
      show Prod.map (Prod.map (· + 1) id) id
        ((writeLines Sink.device.writer format tokens).run _) = _
      rw [hrun, Sink.extended, append_append_list]
      rfl

/-- Where there is not enough room, the failure of the sink is the result, and the lexer is asked up to
the token in whose line the room ends. -/
theorem writeTokens_of_short {S : Type} [LineSource S] {s : S} {tokens : List Token} {last : Result}
    {sink : Sink} {room : Nat} (format : TokenFormat) (h : (Lexer.ofSource s).Ends tokens last)
    (hr : sink.room = some room) (hs : room < (tokenBytes format tokens).length) :
    let w := writeTokens format s sink
    w.result = .error (.output Sink.closed) ∧
      w.sink.written = sink.written ++ (tokenBytes format tokens).take room ∧
      ∃ before token, HitsLine format tokens room before token ∧
        w.lexer = (Lexer.ofSource s).after (before.length + 1) := by
  intro w
  obtain ⟨before, token, hhit, hlines⟩ := run_writeLines_of_short hr hs
  have hrun : (writeAll Sink.device.writer format s).run sink =
      Prod.map ((Lexer.ofSource s).tokenized tokens last 0 #[.lexerCreated]) id
        ((before.length, .error Sink.closed),
          ⟨sink.written ++ (tokenBytes format tokens).take room, some 0⟩) := by
    rw [writeAll, writeFrom_eq _ format h, StateT.run_map, hlines]
    rfl
  unfold w
  rw [writeTokens, hrun]
  exact ⟨rfl, rfl, before, token, hhit, rfl⟩

/-- A sink that accepts `n` bytes and then fails accepts the first `n` bytes of what is written without
a limit. If that is all of it, the result is the same after the same number of questions to the source.
If not, the result is the failure of the sink, and the source has been asked as often as it takes to get
the token in whose line the byte behind the first `n` is. -/
theorem writeTokens_limited {S : Type} [LineSource S] (format : TokenFormat) (s : S) (n : Nat) :
    let full := writeTokens format (Counted.mk s 0) .unlimited
    let w := writeTokens format (Counted.mk s 0) (.limited n)
    ∃ tokens last, (counting s).Ends tokens last ∧
      full.sink.written.toList = tokenBytes format tokens ∧
      full.result = writeResult tokens.length last ∧
      w.sink.written.toList = full.sink.written.toList.take n ∧
      (full.sink.written.size ≤ n →
        w.result = full.result ∧ w.lexer.pulls = full.lexer.pulls) ∧
      (n < full.sink.written.size → w.result = .error (.output Sink.closed) ∧
        ∃ before token, HitsLine format tokens n before token ∧
          w.lexer.pulls = ((counting s).after (before.length + 1)).pulls) := by
  intro full w
  obtain ⟨tokens, last, he⟩ := (counting s).exists_ends
  have hfull : full = _ := writeTokens_of_ends format he (Sink.accepts_unlimited _)
  have hbytes : full.sink.written.toList = tokenBytes format tokens := by
    rw [hfull]
    simp [Sink.extended, Sink.unlimited]
  refine ⟨tokens, last, he, hbytes, by rw [hfull], ?_⟩
  rw [← Array.length_toList, hbytes]
  have hroom : (Sink.limited n).room = some n := rfl
  rcases Nat.lt_or_ge n (tokenBytes format tokens).length with hlt | hge
  · obtain ⟨hr, hw, before, token, hhit, hl⟩ := writeTokens_of_short format he hroom hlt
    refine ⟨?_, ?_, ?_⟩
    · rw [hw]
      simp [Sink.limited]
    · intro hle
      exact absurd hlt (Nat.not_lt.2 hle)
    · intro _
      exact ⟨hr, before, token, hhit, congrArg Lexer.pulls hl⟩
  · have hw : w = _ := writeTokens_of_ends format he (Sink.accepts_of_room hroom hge)
    refine ⟨?_, ?_, ?_⟩
    · rw [hw, List.take_of_length_le hge]
      simp [Sink.extended, Sink.limited]
    · intro _
      rw [hw, hfull]
      exact ⟨rfl, rfl⟩
    · intro hlt
      exact absurd hlt (Nat.not_lt.2 hge)

/-- The sink fails at the last line feed, and what is refused behind it on the line is not looked at. -/
theorem writeTokens_limited_at_feed :
    let s := Script.mk [.line "1", .line "2 @"]
    let full := writeTokens .json (Counted.mk s 0) .unlimited
    let w := writeTokens .json (Counted.mk s 0) (.limited 53)
    full.result = .error (.lexing (.rejected ⟨.unacceptable '@', ⟨2, 3⟩, "2 @"⟩)) ∧
      w.result = .error (.output Sink.closed) ∧
      w.sink.written.toList = (tokenBytes .json [.number 1, .number 2]).dropLast := by
  intro s full w
  obtain ⟨tokens, last, he, hbytes, hresult, hout, -, hshort⟩ := writeTokens_limited .json s 53
  have hends : (counting s).Ends [.number 1, .number 2]
      (.error (.rejected ⟨.unacceptable '@', ⟨2, 3⟩, "2 @"⟩)) :=
    ⟨Lexer.gives_ofAnswers _, by simp [given]⟩
  obtain ⟨rfl, rfl⟩ := he.unique hends
  have hlength : (tokenBytes .json [.number 1, .number 2]).length = 54 := by decide +kernel
  have hlt : 53 < full.sink.written.size := by
    rw [← Array.length_toList, hbytes, hlength]
    decide
  refine ⟨hresult, (hshort hlt).1, ?_⟩
  rw [hout, hbytes, List.dropLast_eq_take, hlength]

end ArithLexer
