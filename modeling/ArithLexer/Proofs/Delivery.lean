import ArithLexer.Proofs.Buffering
import ArithLexer.Run

/-!
# Delivering the output

What becomes of the lines of the tokens that a run finds. They go through a buffer, which is flushed
when the writing has ended, in whatever way, and sent on once more when the writer comes to its end.
The standard output gets a first part of the lines (`BufferedWriter.Delivers`), and all of them if
neither the writing nor the flush fails.

`lexPortions_delivers` says in which order failures count: a failure to write, then one of the lexer,
then one to flush. So a run that reports success has delivered every line (`lexPortions_of_success`), and
to a standard output that accepts everything the lines are delivered also in front of a failure
(`lexPortions_of_accepting`).
-/

namespace ArithLexer

namespace BufferedWriter

variable {D : Type} {out : BufferedWriter (StateM D)} {bytes : List UInt8} {d : D}

/-- `out.Delivers bytes d written flushed sent d'` says what a writer that has been given bytes has sent
by its end, after results of the writing and of the flush. -/
structure Delivers (out : BufferedWriter (StateM D)) (bytes : List UInt8) (d : D)
    (written flushed : Except IoError Unit) (sent : List UInt8) (d' : D) : Prop where
  part : sent <+: bytes
  whole : written = .ok () → flushed = .ok () → sent = bytes
  succeeds : out.device.Accepting → written = .ok () ∧ flushed = .ok ()
  kept : ∀ {holds}, out.device.Keeps holds → ∀ {text}, holds d text → holds d' (text ++ sent)

theorem sent_prefix_all (b : Buffer) : b.sent.toList <+: b.all := List.prefix_append _ _

theorem Wrote.delivers {written flushed : Except IoError Unit} {b b' : Buffer} {d₁ d₂ : D}
    (hw : out.Wrote bytes {} d ((written, b), d₁))
    (hf : (out.flush b).run d₁ = ((flushed, b'), d₂)) :
    out.Delivers bytes d written flushed ((out.finish b').run d₂).1.sent.toList
      ((out.finish b').run d₂).2 := by
  have hflush := out.wrote_flush b d₁
  have hheld := out.held_flush (b := b) (d := d₁)
  rw [hf] at hflush hheld
  have hfinish := out.wrote_sendHeld b' d₂
  rw [run_finish]
  refine ⟨?_, ?_, fun h => ⟨hw.succeeds h, hflush.succeeds h⟩, fun hk text ht => ?_⟩
  · -- none of the three steps puts anything but the bytes into what has been given
    have h₁ : b.all <+: bytes := hw.adds.all_prefix
    have h₂ : b'.all <+: b.all := by simpa using hflush.adds.all_prefix
    have h₃ := hfinish.adds.all_prefix
    rw [List.append_nil] at h₃
    exact (sent_prefix_all _).trans (h₃.trans (h₂.trans h₁))
  · rintro rfl rfl
    -- nothing is held after the flush, so all that has been given was sent by then
    have hempty : b'.held = #[] := hheld rfl
    have hsent : b'.all = b'.sent.toList := by simp [Buffer.all, hempty]
    have hall : b'.all = b.all ++ [] := hflush.adds
    rw [run_sendHeld_of_empty hempty]
    show b'.sent.toList = bytes
    rw [← hsent, hall, List.append_nil]
    exact hw.adds
  · have hempty : text ++ (#[] : Array UInt8).toList = text := List.append_nil text
    exact hfinish.kept hk (hflush.kept hk (hw.kept hk (hempty.symm ▸ ht)))

end BufferedWriter

section
variable {D : Type} {output : Device (StateM D)} {portions : List Portion} {tokens : List Token}
  {last : Result}

@[simp] theorem reportOn_output (written : Except WriteFailure Nat) (flushed : Except IoError Unit)
    (events : List Log.Event) (output : Array UInt8) :
    (reportOn written flushed events output).output = output := by
  cases written <;> cases flushed <;> rfl

/-- The result of a run that found these tokens and `last` behind them, when its writing and the flush
had these results. A failure to write counts before that of the lexer, which has not been come to, and
a failure to flush counts only where nothing else has failed. -/
def reportedResult (tokens : List Token) (last : Result) :
    Except IoError Unit → Except IoError Unit → Except RunError Nat
  | .error cause, _ => .error (.output cause)
  | .ok (), flushed =>
    match last, flushed with
    | .error cause, _ => .error (.lexing cause)
    | .ok _, .error cause => .error (.output cause)
    | .ok _, .ok () => .ok tokens.length

theorem reportOn_result {S : Type} [LineSource S] (x : Lexer S) (tokens : List Token) (last : Result)
    (told : Array Log.Event) (n : Nat) (written flushed : Except IoError Unit)
    (events : List Log.Event) (output : Array UInt8) :
    (reportOn (x.tokenized tokens last 0 told (n, written)).result flushed events output).result =
      reportedResult tokens last written flushed := by
  match written, last, flushed with
  | .error _, _, _ => rfl
  | .ok _, .error _, _ => rfl
  | .ok _, .ok _, .error _ => rfl
  | .ok _, .ok _, .ok _ => exact congrArg Except.ok (Nat.zero_add tokens.length)

theorem reportedResult_eq_ok {written flushed : Except IoError Unit} {count : Nat}
    (h : reportedResult tokens last written flushed = .ok count) :
    written = .ok () ∧ flushed = .ok () ∧ (∃ item, last = .ok item) ∧ count = tokens.length := by
  rcases written with _ | ⟨⟨⟩⟩
  · cases h
  · rcases last with _ | item <;> rcases flushed with _ | ⟨⟨⟩⟩ <;> cases h
    exact ⟨rfl, rfl, ⟨item, rfl⟩, rfl⟩

/-- The lines of the tokens are delivered as the results of the writing and of the flush say, and these
give the result of the run. -/
theorem lexPortions_delivers (format : TokenFormat) (told : List Log.Event)
    (h : (Lexer.ofSource (ByteStream.ofSupply readCapacity portions)).Ends tokens last) (d : D) :
    let after := (lexPortions output format told portions).run d
    ∃ written flushed,
      BufferedWriter.Delivers ⟨output, outputCapacity⟩ (tokenBytes format tokens) d written flushed
        after.1.output.toList after.2 ∧
      after.1.result = reportedResult tokens last written flushed := by
  intro after
  let out : BufferedWriter (StateM D) := ⟨output, outputCapacity⟩
  let tokenized := (Lexer.ofSource (ByteStream.ofSupply readCapacity portions)).tokenized tokens last
    0 #[.lexerCreated]
  -- the three steps of the run: the lines, the flush, and the end of the writer
  obtain ⟨⟨⟨n, written⟩, b⟩, d₁, hlines⟩ : ∃ r d₁,
      ((writeLines out.writer format tokens).run {}).run d = (r, d₁) := ⟨_, _, rfl⟩
  obtain ⟨⟨flushed, b'⟩, d₂, hflush⟩ : ∃ r d₂, (out.flush b).run d₁ = (r, d₂) := ⟨_, _, rfl⟩
  have hwrote : out.Wrote (tokenBytes format tokens) {} d ((written, b), d₁) := by
    have hwrites := out.writes_writeLines format tokens {} d
    rwa [ExceptT.run_mk, StateT.run_map, StateT.run_map, hlines] at hwrites
  have hafter : after = (reportOn (tokenized (n, written)).result flushed
      (told ++ (tokenized (n, written)).events) ((out.finish b').run d₂).1.sent,
      ((out.finish b').run d₂).2) := by
    unfold after
    rw [lexPortions, writeAll, writeFrom_eq _ format h, StateT.run_map, StateT.run_bind, StateT.run_map,
      hlines]
    show StateT.run (out.flush b >>= _) d₁ = _
    rw [StateT.run_bind, hflush]
    rfl
  refine ⟨written, flushed, ?_, ?_⟩
  · rw [hafter, reportOn_output]
    exact hwrote.delivers hflush
  · rw [hafter]
    exact reportOn_result _ _ _ _ _ _ _ _ _

/-- A run that reports success has delivered the line of every token. -/
theorem lexPortions_of_success (format : TokenFormat) (told : List Log.Event)
    (h : (Lexer.ofSource (ByteStream.ofSupply readCapacity portions)).Ends tokens last) {d : D}
    {count : Nat}
    (hok : ((lexPortions output format told portions).run d).1.result = .ok count) :
    ((lexPortions output format told portions).run d).1.output.toList = tokenBytes format tokens ∧
      count = tokens.length ∧ last = .ok none := by
  obtain ⟨written, flushed, hdelivers, hresult⟩ := lexPortions_delivers format told h d
  obtain ⟨rfl, rfl, ⟨item, rfl⟩, rfl⟩ := reportedResult_eq_ok (hresult.symm.trans hok)
  refine ⟨hdelivers.whole rfl rfl, rfl, ?_⟩
  -- a run does not end in front of a token
  match item with
  | none => rfl
  | some token => exact absurd rfl (h.no_token token)

/-- A standard output that accepts everything gets the lines of all tokens in front of the end or the
failure, and the result is the number of tokens or the failure. -/
theorem lexPortions_of_accepting (ha : output.Accepting) (format : TokenFormat)
    (told : List Log.Event)
    (h : (Lexer.ofSource (ByteStream.ofSupply readCapacity portions)).Ends tokens last) (d : D) :
    let after := (lexPortions output format told portions).run d
    after.1.result = (writeResult tokens.length last).mapError RunError.ofWriteFailure ∧
      after.1.output.toList = tokenBytes format tokens ∧
      ∀ holds, output.Keeps holds → ∀ text, holds d text →
        holds after.2 (text ++ tokenBytes format tokens) := by
  intro after
  obtain ⟨written, flushed, hdelivers, hresult⟩ := lexPortions_delivers format told h d
  -- neither the writing nor the flush fails, so the result is that of the lexer
  obtain ⟨rfl, rfl⟩ := hdelivers.succeeds ha
  have houtput : after.1.output.toList = tokenBytes format tokens := hdelivers.whole rfl rfl
  refine ⟨?_, houtput, fun holds hk text ht => ?_⟩
  · refine hresult.trans ?_
    cases last <;> rfl
  · rw [← houtput]
    exact hdelivers.kept hk ht

end
end ArithLexer
