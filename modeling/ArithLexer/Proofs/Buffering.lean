import ArithLexer.Output.Buffered
import ArithLexer.Proofs.Writing

/-!
# Writing through a buffer

What a buffered writer has been given is what the device has accepted and, behind that, what is held
(`Buffer.all`). `BufferedWriter.Writes` says of an action that it gives the writer some bytes: they are
behind everything else then, or the first of them if the action has failed; no action fails unless the
device does; and what the device has got is always what counts as sent. Such actions can be put one
after the other (`Writes.bind`), so all that is written of tokens is such an action
(`BufferedWriter.writes_writeLines`), and so is a flush, which moreover leaves nothing held.
-/

namespace ArithLexer

namespace Buffer

variable {a b c : Buffer} {bytes more : List UInt8} {result : Except IoError Unit}

/-- `a.Adds bytes result b` says that `b` is `a` with the bytes behind everything, or with some of the
first of them if the result is a failure. -/
def Adds (a : Buffer) (bytes : List UInt8) : Except IoError Unit → Buffer → Prop
  | .ok (), b => b.all = a.all ++ bytes
  | .error _, b => ∃ part, part <+: bytes ∧ b.all = a.all ++ part

theorem all_hold (b : Buffer) (bytes : List UInt8) : (b.hold bytes).all = b.all ++ bytes := by
  simp [all, hold]

theorem adds_nil_of_eq (h : b.all = a.all) (result : Except IoError Unit) : a.Adds [] result b := by
  cases result with
  | ok _ => exact h.trans (List.append_nil _).symm
  | error _ => exact ⟨[], List.nil_prefix, h.trans (List.append_nil _).symm⟩

theorem Adds.trans (h : a.Adds bytes (.ok ()) b) (h' : b.Adds more result c) :
    a.Adds (bytes ++ more) result c := by
  have h : b.all = a.all ++ bytes := h
  cases result with
  | ok _ =>
    have h' : c.all = b.all ++ more := h'
    show c.all = a.all ++ (bytes ++ more)
    rw [h', h, List.append_assoc]
  | error _ =>
    -- the first bytes are all there, so only a part of the second is missing
    obtain ⟨part, hpart, h'⟩ := h'
    exact ⟨bytes ++ part, (List.prefix_append_right_inj bytes).2 hpart,
      by rw [h', h, List.append_assoc]⟩

theorem Adds.of_error {cause : IoError} (h : a.Adds bytes (.error cause) b) (more : List UInt8) :
    a.Adds (bytes ++ more) (.error cause) b := by
  obtain ⟨part, hpart, h⟩ := h
  exact ⟨part, hpart.trans (List.prefix_append bytes more), h⟩

/-- Whatever the result, all that has been given begins like what was to be given. -/
theorem Adds.all_prefix (h : a.Adds bytes result b) : b.all <+: a.all ++ bytes := by
  cases result with
  | ok _ =>
    have h : b.all = a.all ++ bytes := h
    exact h ▸ List.prefix_refl _
  | error _ =>
    obtain ⟨part, hpart, h⟩ := h
    rw [h]
    exact (List.prefix_append_right_inj a.all).2 hpart

end Buffer

namespace BufferedWriter

variable {D : Type} {out : BufferedWriter (StateM D)} {bytes more : List UInt8} {b : Buffer} {d : D}
  {after : (Except IoError Unit × Buffer) × D}

/-! ### Giving bytes to the writer -/

/-- `out.Wrote bytes b d after` says how the writer is left that has been given bytes: with what result,
with which buffer, and with the device in which state. -/
structure Wrote (out : BufferedWriter (StateM D)) (bytes : List UInt8) (b : Buffer) (d : D)
    (after : (Except IoError Unit × Buffer) × D) : Prop where
  adds : b.Adds bytes after.1.1 after.1.2
  succeeds : out.device.Accepting → after.1.1 = .ok ()
  -- `text` is what the device held in front of all that this writer has sent to it
  kept : ∀ {holds}, out.device.Keeps holds → ∀ {text}, holds d (text ++ b.sent.toList) →
    holds after.2 (text ++ after.1.2.sent.toList)

theorem wrote_hold (out : BufferedWriter (StateM D)) (bytes : List UInt8) (b : Buffer) (d : D) :
    out.Wrote bytes b d ((.ok (), b.hold bytes), d) where
  adds := b.all_hold bytes
  succeeds _ := rfl
  kept _ _ h := h

theorem wrote_nothing (out : BufferedWriter (StateM D)) (b : Buffer) (d : D) :
    out.Wrote [] b d ((.ok (), b), d) where
  adds := Buffer.adds_nil_of_eq rfl _
  succeeds _ := rfl
  kept _ _ h := h

theorem Wrote.trans {b' : Buffer} {d' : D} (h : out.Wrote bytes b d ((.ok (), b'), d'))
    (h' : out.Wrote more b' d' after) : out.Wrote (bytes ++ more) b d after where
  adds := h.adds.trans h'.adds
  succeeds := h'.succeeds
  kept hk _ ht := h'.kept hk (h.kept hk ht)

theorem Wrote.of_error {b' : Buffer} {d' : D} {cause : IoError}
    (h : out.Wrote bytes b d ((.error cause, b'), d')) (more : List UInt8) :
    out.Wrote (bytes ++ more) b d ((.error cause, b'), d') where
  adds := h.adds.of_error more
  succeeds := h.succeeds
  kept := h.kept

/-! ### Sending on -/

theorem run_sendHeld (out : BufferedWriter (StateM D)) (b : Buffer) (d : D) :
    (out.sendHeld b).run d =
      Prod.map (fun r => (r.2, Buffer.mk (b.sent ++ b.held.toList.take r.1)
        (b.held.toList.drop r.1).toArray)) id
        ((out.device.sendAll heldRefused b.held.toList).run d) :=
  rfl

theorem wrote_sendHeld (out : BufferedWriter (StateM D)) (b : Buffer) (d : D) :
    out.Wrote [] b d ((out.sendHeld b).run d) := by
  have hsent := out.device.sent_sendAll heldRefused b.held.toList d
  rw [run_sendHeld]
  generalize (out.device.sendAll heldRefused b.held.toList).run d = after at hsent ⊢
  obtain ⟨⟨count, result⟩, d'⟩ := after
  -- what is taken from the held bytes is put behind those that were sent
  refine ⟨Buffer.adds_nil_of_eq (by simp [Buffer.all]) result, hsent.succeeds, ?_⟩
  intro holds hk text h
  simpa using hsent.kept hk h

/-- Nothing is held any more when what was held could be sent on. -/
theorem held_sendHeld (h : ((out.sendHeld b).run d).1.1 = .ok ()) :
    ((out.sendHeld b).run d).1.2.held = #[] := by
  have hle := (out.device.sent_sendAll heldRefused b.held.toList d).all h
  rw [run_sendHeld, Prod.map_fst]
  simpa using hle

theorem run_sendHeld_of_empty (h : b.held = #[]) (d : D) :
    (out.sendHeld b).run d = ((.ok (), b), d) := by
  obtain ⟨sent, held⟩ := b
  subst h
  rw [run_sendHeld, Device.run_sendAll_nil]
  simp

/-- Sending on what is not held keeps the order only if nothing is held. -/
theorem wrote_sendThrough (h : bytes ≠ [] → b.held = #[]) (d : D) :
    out.Wrote bytes b d ((out.sendThrough bytes b).run d) := by
  have hsent := out.device.sent_sendAll Device.textRefused bytes d
  have hrun : (out.sendThrough bytes b).run d =
      Prod.map (fun r => (r.2, { b with sent := b.sent ++ bytes.take r.1 })) id
        ((out.device.sendAll Device.textRefused bytes).run d) := rfl
  rw [hrun]
  generalize (out.device.sendAll Device.textRefused bytes).run d = after at hsent ⊢
  obtain ⟨⟨count, result⟩, d'⟩ := after
  -- what is sent comes before what is held, which makes no difference if one of them is empty
  have hall : (Buffer.mk (b.sent ++ bytes.take count) b.held).all = b.all ++ bytes.take count := by
    by_cases hne : bytes = []
    · simp [hne, Buffer.all]
    · simp [h hne, Buffer.all]
  refine ⟨?_, hsent.succeeds, ?_⟩
  · cases result with
    | ok _ => exact hall.trans (by rw [List.take_of_length_le (hsent.all rfl)])
    | error _ => exact ⟨bytes.take count, List.take_prefix count bytes, hall⟩
  · intro holds hk text ht
    simpa using hsent.kept hk ht

/-! ### Writing -/

theorem wrote_makeRoom (out : BufferedWriter (StateM D)) (bytes : List UInt8) (b : Buffer) (d : D) :
    out.Wrote [] b d ((out.makeRoom bytes b).run d) := by
  rw [makeRoom]
  split
  · exact out.wrote_sendHeld b d
  · exact out.wrote_nothing b d

/-- Room for as much as the buffer can hold is an empty buffer. -/
theorem held_makeRoom (hs : out.spare b ≤ bytes.length) (hc : out.capacity ≤ bytes.length)
    (h : ((out.makeRoom bytes b).run d).1.1 = .ok ()) (hne : bytes ≠ []) :
    ((out.makeRoom bytes b).run d).1.2.held = #[] := by
  rw [makeRoom] at h ⊢
  split
  · next hlt =>
    rw [if_pos hlt] at h
    exact held_sendHeld h
  · next hle =>
    -- as it has room, the buffer has the whole capacity to spare
    have := List.length_pos_iff.2 hne
    have hsize : b.held.size = 0 := by
      rw [spare] at hs hle
      omega
    exact Array.eq_empty_of_size_eq_zero hsize

theorem wrote_write (bytes : List UInt8) (b : Buffer) (d : D) :
    out.Wrote bytes b d ((out.write bytes b).run d) := by
  rw [write]
  split
  · exact out.wrote_hold bytes b d
  · next hs =>
    have hroom := out.wrote_makeRoom bytes b d
    have hheld := fun hc => out.held_makeRoom (d := d) (Nat.not_lt.1 hs) hc
    rw [StateT.run_bind]
    generalize (out.makeRoom bytes b).run d = made at hroom hheld
    -- a failure to make room is that of the write, of which nothing was given then
    match made with
    | ((.error cause, b'), d') => exact hroom.of_error bytes
    | ((.ok (), b'), d') =>
      have hwrote : out.Wrote bytes b' d' ((if out.capacity ≤ bytes.length then
          out.sendThrough bytes b' else pure (.ok (), b'.hold bytes)).run d') := by
        split
        · next hc => exact wrote_sendThrough (hheld hc rfl) d'
        · exact out.wrote_hold bytes b' d'
      exact hroom.trans hwrote

/-- `out.Writes bytes action` says that the action gives the writer these bytes, whatever it has been
given before. -/
def Writes (out : BufferedWriter (StateM D)) (bytes : List UInt8)
    (action : ExceptT IoError (StateT Buffer (StateM D)) Unit) : Prop :=
  ∀ b d, out.Wrote bytes b d ((action.run.run b).run d)

theorem writes_writer (out : BufferedWriter (StateM D)) (bytes : List UInt8) :
    out.Writes bytes (out.writer bytes) :=
  out.wrote_write bytes

theorem writes_pure (out : BufferedWriter (StateM D)) : out.Writes [] (pure ()) :=
  out.wrote_nothing

variable {action : ExceptT IoError (StateT Buffer (StateM D)) Unit}
  {next : Unit → ExceptT IoError (StateT Buffer (StateM D)) Unit}

theorem Writes.bind (h : out.Writes bytes action) (h' : out.Writes more (next ())) :
    out.Writes (bytes ++ more) (action >>= next) := by
  intro b d
  have hfirst := h b d
  rw [ExceptT.run_bind, StateT.run_bind, StateT.run_bind]
  generalize (action.run.run b).run d = after at hfirst
  match after with
  | ((.ok (), b'), d') => exact hfirst.trans (h' b' d')
  | ((.error cause, b'), d') => exact hfirst.of_error more

theorem writes_writeToken (out : BufferedWriter (StateM D)) (format : TokenFormat) (token : Token) :
    out.Writes (utf8Bytes (format.line token)) (writeToken out.writer format token) := by
  match format with
  -- one write of the whole line, or one of the text and one of the line feed
  | .debug => exact out.writes_writer _
  | .json =>
    rw [TokenFormat.line, utf8Bytes_append, writeToken, Json.adapt_write]
    exact (out.writes_writer _).bind (out.writes_writer _)

/-- Writing the lines of tokens gives the writer these lines, one after the other. -/
theorem writes_writeLines (out : BufferedWriter (StateM D)) (format : TokenFormat)
    (tokens : List Token) :
    out.Writes (tokenBytes format tokens)
      (ExceptT.mk (Prod.snd <$> writeLines out.writer format tokens)) := by
  induction tokens with
  | nil => exact out.writes_pure
  | cons token tokens ih =>
    have hbind : ExceptT.mk (Prod.snd <$> writeLines out.writer format (token :: tokens)) =
        (do writeToken out.writer format token
            ExceptT.mk (Prod.snd <$> writeLines out.writer format tokens)) := by
      apply ExceptT.ext
      rw [ExceptT.run_bind, ExceptT.run_mk, writeLines, map_bind]
      refine bind_congr fun written => ?_
      cases written <;> simp
    rw [hbind]
    exact (out.writes_writeToken format token).bind ih

/-! ### The end of the writing -/

theorem wrote_flush (out : BufferedWriter (StateM D)) (b : Buffer) (d : D) :
    out.Wrote [] b d ((out.flush b).run d) := by
  have hheld := out.wrote_sendHeld b d
  rw [flush, StateT.run_bind]
  generalize (out.sendHeld b).run d = after at hheld
  match after with
  | ((.error cause, b'), d') => exact hheld
  | ((.ok (), b'), d') =>
    refine hheld.trans ?_
    exact {
      adds := Buffer.adds_nil_of_eq rfl _
      succeeds := fun h => h.flush d'
      kept := fun hk _ ht => hk.flush ht }

theorem held_flush (h : ((out.flush b).run d).1.1 = .ok ()) :
    ((out.flush b).run d).1.2.held = #[] := by
  have hheld := out.held_sendHeld (b := b) (d := d)
  rw [flush, StateT.run_bind] at h ⊢
  generalize (out.sendHeld b).run d = after at h hheld
  match after with
  | ((.error cause, b'), d') => cases h
  | ((.ok (), b'), d') => exact hheld rfl

/-- The end of the writer sends on what is held, and gives nothing new. -/
theorem run_finish (out : BufferedWriter (StateM D)) (b : Buffer) (d : D) :
    (out.finish b).run d = Prod.map (·.2) id ((out.sendHeld b).run d) :=
  rfl

end BufferedWriter
end ArithLexer
