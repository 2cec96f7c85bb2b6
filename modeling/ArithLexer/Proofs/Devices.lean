import ArithLexer.Output.Device

/-!
# Sending to devices

A device is offered what it has not accepted yet until nothing is left of it. The equations for one offer
(`Device.run_sendAll_of_accepted` and those beside it) carry what holds of any device: if all went well,
all bytes were accepted, and what the device has got are the bytes that were counted.

A sink takes a text at once, or as much of it as it has room for, and fails when it is offered the rest.
So it makes no difference to a sink whether a text is written at once or in two parts
(`Sink.writer_append`).
-/

namespace ArithLexer

namespace Device

variable {D : Type} {device : Device (StateM D)} {refused cause : IoError} {bytes : List UInt8}
  {count : Nat} {d d' : D}

/-! ### One offer -/

theorem run_sendAll_nil : (device.sendAll refused []).run d = ((0, .ok ()), d) := by
  rw [sendAll]
  rfl

theorem run_sendAll_of_error (hne : bytes ≠ [])
    (h : (device.write bytes).run.run d = (.error cause, d')) :
    (device.sendAll refused bytes).run d = ((0, .error cause), d') := by
  rw [sendAll, dif_neg hne, StateT.run_bind, h]
  rfl

theorem run_sendAll_of_zero (hne : bytes ≠ [])
    (h : (device.write bytes).run.run d = (.ok 0, d')) :
    (device.sendAll refused bytes).run d = ((0, .error refused), d') := by
  rw [sendAll, dif_neg hne, StateT.run_bind, h]
  rfl

theorem run_sendAll_of_accepted (hne : bytes ≠ [])
    (h : (device.write bytes).run.run d = (.ok count, d')) (hpos : count ≠ 0) :
    (device.sendAll refused bytes).run d =
      Prod.map (Prod.map (count + ·) id) id ((device.sendAll refused (bytes.drop count)).run d') := by
  rw [sendAll, dif_neg hne, StateT.run_bind, h]
  show StateT.run (dite (count = 0) _ _) d' = _
  rw [dif_neg hpos, StateT.run_bind]
  rfl

/-! ### Any device -/

/-- A device that never fails and accepts something of whatever it is offered, as little as that may
be. -/
structure Accepting (device : Device (StateM D)) : Prop where
  write : ∀ bytes ≠ [], ∀ d, ∃ count ≠ 0, ((device.write bytes).run.run d).1 = .ok count
  flush : ∀ d, (device.flush.run.run d).1 = .ok ()

/-- `device.Keeps holds` says that the device keeps what it gets: the text that it holds grows by the
bytes that it says it has accepted, and by nothing else. -/
structure Keeps (device : Device (StateM D)) (holds : D → List UInt8 → Prop) : Prop where
  write : ∀ bytes {d text}, holds d text → holds ((device.write bytes).run.run d).2 (text ++
    match ((device.write bytes).run.run d).1 with
      | .ok count => bytes.take count
      | .error _ => [])
  flush : ∀ {d text}, holds d text → holds (device.flush.run.run d).2 text

/-- How sending leaves a device: `after` has the number of bytes that were accepted, and the result. -/
structure Sent (device : Device (StateM D)) (bytes : List UInt8) (d : D)
    (after : (Nat × Except IoError Unit) × D) : Prop where
  all : after.1.2 = .ok () → bytes.length ≤ after.1.1
  succeeds : device.Accepting → after.1.2 = .ok ()
  kept : ∀ {holds}, device.Keeps holds → ∀ {text}, holds d text →
    holds after.2 (text ++ bytes.take after.1.1)

theorem sent_nothing (device : Device (StateM D)) (d : D) :
    device.Sent [] d ((0, .ok ()), d) where
  all _ := Nat.le_refl 0
  succeeds _ := rfl
  kept _ text h := (List.append_nil text).symm ▸ h

/-- An offer of which nothing was accepted is the last one. -/
theorem sent_of_failure {accepted : Except IoError Nat} (hne : bytes ≠ [])
    (hw : (device.write bytes).run.run d = (accepted, d'))
    (hnone : accepted = .ok 0 ∨ ∃ cause, accepted = .error cause) (reported : IoError) :
    device.Sent bytes d ((0, .error reported), d') where
  all h := nomatch h
  succeeds h := by
    -- an accepting device would have taken something
    obtain ⟨count, hpos, hcount⟩ := h.write bytes hne d
    rw [hw] at hcount
    rcases hnone with rfl | ⟨cause, rfl⟩ <;> cases hcount
    exact absurd rfl hpos
  kept hk text h := by
    have hwrite := hk.write bytes h
    rw [hw] at hwrite
    rcases hnone with rfl | ⟨cause, rfl⟩ <;> exact hwrite

theorem Sent.of_accepted {after : (Nat × Except IoError Unit) × D}
    (hw : (device.write bytes).run.run d = (.ok count, d'))
    (h : device.Sent (bytes.drop count) d' after) :
    device.Sent bytes d (Prod.map (Prod.map (count + ·) id) id after) where
  all hok := by
    have hrest : (bytes.drop count).length ≤ after.1.1 := h.all hok
    rw [List.length_drop] at hrest
    exact Nat.sub_le_iff_le_add'.1 hrest
  succeeds := h.succeeds
  kept hk text ht := by
    -- the device holds what it took of this offer, and then of the rest
    have hwrite := hk.write bytes ht
    rw [hw] at hwrite
    have hrest := h.kept hk hwrite
    rwa [List.append_assoc, ← List.take_add] at hrest

/-- Whatever the device: where sending has not failed, all bytes were accepted; it does not fail unless
the device does; and the device has got the bytes that were counted. -/
theorem sent_sendAll (device : Device (StateM D)) (refused : IoError) (bytes : List UInt8) (d : D) :
    device.Sent bytes d ((device.sendAll refused bytes).run d) := by
  -- each offer of which something is accepted leaves fewer bytes for the next
  by_cases hne : bytes = []
  · subst hne
    rw [run_sendAll_nil]
    exact device.sent_nothing d
  · match hw : (device.write bytes).run.run d with
    | (.error cause, d') =>
      rw [run_sendAll_of_error hne hw]
      exact sent_of_failure hne hw (.inr ⟨cause, rfl⟩) cause
    | (.ok 0, d') =>
      rw [run_sendAll_of_zero hne hw]
      exact sent_of_failure hne hw (.inl rfl) refused
    | (.ok (count + 1), d') =>
      rw [run_sendAll_of_accepted hne hw count.add_one_ne_zero]
      exact .of_accepted hw (device.sent_sendAll refused (bytes.drop (count + 1)) d')
termination_by bytes.length
decreasing_by
  have := List.length_pos_iff.2 hne
  rw [List.length_drop]
  omega

end Device

theorem append_append_list (a : Array UInt8) (b c : List UInt8) : a ++ b ++ c = a ++ (b ++ c) :=
  Array.ext' (by simp)

namespace Sink

/-- Whether a sink accepts so many more bytes. -/
def Accepts (s : Sink) (count : Nat) : Prop := ∀ room ∈ s.room, count ≤ room

/-- The sink after it has accepted some bytes. -/
def extended (s : Sink) (bytes : List UInt8) : Sink :=
  ⟨s.written ++ bytes, s.room.map (· - bytes.length)⟩

variable {s : Sink} {room : Nat} {bytes : List UInt8}

theorem extended_nil (s : Sink) : s.extended [] = s := by
  cases s with
  | mk written room => cases room <;> simp [extended]

theorem extended_extended (s : Sink) (a b : List UInt8) :
    (s.extended a).extended b = s.extended (a ++ b) := by
  cases s with
  | mk written room => cases room <;> simp [extended, Nat.sub_sub, append_append_list]

theorem Accepts.extended {a b : List UInt8} (h : s.Accepts (a ++ b).length) :
    (s.extended a).Accepts b.length := by
  intro room hroom
  obtain ⟨k, hk, rfl⟩ := Option.map_eq_some_iff.1 hroom
  have hle : (a ++ b).length ≤ k := h k hk
  rw [List.length_append] at hle
  omega

theorem Accepts.mono {m n : Nat} (h : s.Accepts n) (hmn : m ≤ n) : s.Accepts m :=
  fun room hroom => Nat.le_trans hmn (h room hroom)

theorem accepts_unlimited (count : Nat) : unlimited.Accepts count := by
  intro room hroom
  cases hroom

theorem accepts_of_room (hr : s.room = some room) {count : Nat} (h : count ≤ room) :
    s.Accepts count := by
  intro r hroom
  rw [hr, Option.mem_some_iff] at hroom
  exact hroom ▸ h

/-- What does not fit is more than there is room for. -/
theorem accepts_or_short (s : Sink) (count : Nat) :
    s.Accepts count ∨ ∃ room, s.room = some room ∧ room < count := by
  match hr : s.room with
  | none => exact .inl (by simp [Accepts, hr])
  | some room =>
    rcases Nat.lt_or_ge room count with hlt | hge
    · exact .inr ⟨room, rfl, hlt⟩
    · exact .inl (accepts_of_room hr hge)

theorem write_of_accepts (hne : bytes ≠ []) (h : s.Accepts bytes.length) :
    (device.write bytes).run.run s = (.ok bytes.length, s.extended bytes) := by
  show s.accept bytes = _
  match hr : s.room with
  | none => simp only [accept, hr, extended, Option.map_none]
  | some 0 => exact absurd (h 0 hr) (by simpa using hne)
  | some (k + 1) =>
    have hle : bytes.length ≤ k + 1 := h _ hr
    simp only [accept, hr, extended, Option.map_some, Nat.min_eq_right hle,
      List.take_of_length_le hle]

theorem run_sendAll_of_accepts (refused : IoError) (h : s.Accepts bytes.length) :
    (device.sendAll refused bytes).run s = ((bytes.length, .ok ()), s.extended bytes) := by
  by_cases hne : bytes = []
  · subst hne
    rw [Device.run_sendAll_nil, extended_nil]
    rfl
  · have hlength : bytes.length ≠ 0 := by simpa using hne
    rw [Device.run_sendAll_of_accepted hne (write_of_accepts hne h) hlength, List.drop_length,
      Device.run_sendAll_nil]
    rfl

/-- Without room a sink fails at once, and with too little room at the second offer. -/
theorem run_sendAll_of_short (refused : IoError) (hr : s.room = some room)
    (h : room < bytes.length) :
    (device.sendAll refused bytes).run s =
      ((room, .error closed), ⟨s.written ++ bytes.take room, some 0⟩) := by
  -- a sink that is full refuses whatever it is offered
  have hclosed : ∀ (t : Sink) (rest : List UInt8), t.room = some 0 → rest ≠ [] →
      (device.sendAll refused rest).run t = ((0, .error closed), t) := by
    intro t rest ht hne
    refine Device.run_sendAll_of_error hne ?_
    show t.accept rest = _
    simp only [accept, ht]
  have hne : bytes ≠ [] := List.length_pos_iff.1 (Nat.zero_lt_of_lt h)
  match room with
  | 0 =>
    rw [hclosed s bytes hr hne, List.take_zero]
    cases s with
    | mk written room => cases hr; simp
  -- the first offer fills the room up, and the second one fails
  | k + 1 =>
    have haccept : (device.write bytes).run.run s =
        (.ok (k + 1), ⟨s.written ++ bytes.take (k + 1), some 0⟩) := by
      show s.accept bytes = _
      simp only [accept, hr, Nat.min_eq_left (Nat.le_of_lt h), Nat.sub_eq_zero_of_le (Nat.le_of_lt h)]
    rw [Device.run_sendAll_of_accepted hne haccept k.add_one_ne_zero,
      hclosed _ (bytes.drop (k + 1)) rfl (by simpa using h)]
    rfl

/-! ### Writing to a sink -/

theorem run_writer (s : Sink) (bytes : List UInt8) : (device.writer bytes).run.run s =
    Prod.map (·.2) id ((device.sendAll Device.textRefused bytes).run s) := rfl

theorem run_writer_of_accepts (h : s.Accepts bytes.length) :
    (device.writer bytes).run.run s = (.ok (), s.extended bytes) := by
  rw [run_writer, run_sendAll_of_accepts _ h]
  rfl

theorem run_writer_of_short (hr : s.room = some room) (h : room < bytes.length) :
    (device.writer bytes).run.run s =
      (.error closed, ⟨s.written ++ bytes.take room, some 0⟩) := by
  rw [run_writer, run_sendAll_of_short _ hr h]
  rfl

/-- Two writes to a sink are one write of both texts, also where the room ends in one of them. -/
theorem writer_append (a b : List UInt8) :
    (do device.writer a; device.writer b) = device.writer (a ++ b) := by
  apply ExceptT.ext
  apply StateT.ext
  intro s
  rw [ExceptT.run_bind, StateT.run_bind]
  rcases s.accepts_or_short (a ++ b).length with h | ⟨room, hr, hlt⟩
  · have ha : s.Accepts a.length := h.mono (by simp)
    rw [run_writer_of_accepts ha, run_writer_of_accepts h, ← extended_extended]
    exact run_writer_of_accepts h.extended
  · rw [run_writer_of_short hr hlt]
    rcases Nat.lt_or_ge room a.length with hshort | hge
    · -- the room ends in the first text, and the second one is not written at all
      rw [run_writer_of_short hr hshort, List.take_append_of_le_length (Nat.le_of_lt hshort)]
      rfl
    · -- the room ends in the second text, `rest` bytes behind the first
      obtain ⟨rest, rfl⟩ := Nat.exists_eq_add_of_le hge
      have hrest : (s.extended a).room = some rest := by simp [extended, hr]
      rw [run_writer_of_accepts (accepts_of_room hr hge), List.take_length_add_append]
      rw [← append_append_list]
      exact run_writer_of_short hrest (by simpa using hlt)

end Sink
end ArithLexer
