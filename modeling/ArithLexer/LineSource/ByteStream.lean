import ArithLexer.LineSource.Basic
import ArithLexer.Text.Lines

/-!
# Lines from bytes

A byte stream reads its bytes in portions, as a supply hands them out, and keeps what it has read
and not yet delivered in a buffer. A line goes up to and including the next line feed, however
many portions that takes. A portion of no bytes ends the line where it stands; if nothing has been
collected by then, it is the end of the input, though a later request reads on.

A line is decoded as a whole. If it is not valid UTF-8 it is lost, and the next request goes on
behind it. A failure of the supply loses the part of the line collected so far, except that an
interrupted read is simply tried again.
-/

namespace ArithLexer

/-- What one read from a supply of bytes gives. -/
inductive Portion where
  | bytes (content : List UInt8)
  | failure (cause : IoError)
deriving DecidableEq, Repr

def lineFeed : UInt8 := 0x0A

/-- A buffered reader of bytes. -/
structure ByteStream where
  /-- Bytes that have been read and not yet delivered. -/
  buffer : List UInt8
  /-- What further reads will give. When it is used up they give no bytes. -/
  supply : List Portion
  /-- How many bytes one read can take. What is left of a portion stays for the next read. -/
  capacity : Nat
deriving DecidableEq, Repr

namespace ByteStream

/-- A stream of bytes that are all at hand. -/
def ofBytes (bytes : List UInt8) : ByteStream := ⟨bytes, [], 0⟩

/-- A stream over a supply, with a buffer of the given capacity. -/
def ofSupply (capacity : Nat) (supply : List Portion) : ByteStream := ⟨[], supply, capacity⟩

/-- The work that a portion can still make: each byte has to be read and delivered. -/
def portionSize : Portion → Nat
  | .bytes content => 2 * content.length + 1
  | .failure _ => 1

/-- The work that a supply can still make. -/
def supplySize : List Portion → Nat
  | [] => 0
  | portion :: supply => portionSize portion + supplySize supply

/-- The work that the stream can still make: what is in the buffer has only to be delivered. -/
def size (r : ByteStream) : Nat := r.buffer.length + supplySize r.supply

/-- The supply after a read that took `taken` bytes of a first portion with `content`. -/
def restOf (content : List UInt8) (taken : Nat) (supply : List Portion) : List Portion :=
  if (content.drop taken).isEmpty then supply else .bytes (content.drop taken) :: supply

theorem supplySize_restOf_lt {content : List UInt8} {taken : Nat} (supply : List Portion)
    (h : content.take taken ≠ []) :
    (content.take taken).length + supplySize (restOf content taken supply) <
      supplySize (.bytes content :: supply) := by
  have hl : (content.take taken).length + (content.drop taken).length = content.length := by
    rw [← List.length_append, List.take_append_drop]
  have hp : 0 < (content.take taken).length := List.length_pos_iff.2 h
  rw [restOf]
  split <;> simp only [supplySize, portionSize] <;> omega

/-- Collects bytes up to and including a line feed, behind those in `got`. -/
def collect (r : ByteStream) (got : List UInt8) : Except IoError (List UInt8) × ByteStream :=
  match _ : r.buffer with
  | b :: bs =>
    let available := b :: bs
    match available.dropWhile (· ≠ lineFeed) with
    | feed :: rest =>
      (.ok (got ++ available.takeWhile (· ≠ lineFeed) ++ [feed]), { r with buffer := rest })
    | [] => collect { r with buffer := [] } (got ++ available)
  | [] =>
    match _ : r.supply with
    | [] => (.ok got, r)
    | .failure cause :: supply =>
      if cause.kind = .interrupted then collect { r with supply := supply } got
      else (.error cause, { r with supply := supply })
    | .bytes content :: supply =>
      if _ : content.take r.capacity = [] then
        (.ok got, { r with supply := if content = [] then supply else r.supply })
      else
        collect
          { r with
            buffer := content.take r.capacity
            supply := restOf content r.capacity supply }
          got
termination_by r.size
decreasing_by
  · simp [size, *]
  · simp [size, supplySize, portionSize, *]
  · have := supplySize_restOf_lt supply ‹content.take r.capacity ≠ []›
    simp only [size, List.length_nil, *]
    omega

/-- Collecting only moves bytes from the stream to the line. -/
theorem size_collect {r s : ByteStream} {got line : List UInt8}
    (h : r.collect got = (.ok line, s)) : s.size + line.length ≤ r.size + got.length := by
  fun_induction collect r got with
  | case1 r got b bs hb available feed rest hd =>
    have hl := congrArg List.length
      (List.takeWhile_append_dropWhile (p := fun x => decide (x ≠ lineFeed)) (l := available))
    simp only [Prod.mk.injEq, Except.ok.injEq] at h
    rw [← h.1, ← h.2]
    simp only [hd, List.length_append, List.length_cons, List.length_nil, size, hb,
      available] at hl ⊢
    omega
  | case2 r got b bs hb available hd ih =>
    have := ih h
    simp only [size, hb, List.length_append, available] at this ⊢
    simp only [List.length_nil] at this
    omega
  | case3 r got hb hs =>
    simp only [Prod.mk.injEq, Except.ok.injEq] at h
    obtain ⟨rfl, rfl⟩ := h
    exact Nat.le_refl _
  | case4 r got hb cause supply hs hk ih =>
    have := ih h
    simp only [size, hb, hs, supplySize, portionSize] at this ⊢
    omega
  | case5 => simp at h
  | case6 r got hb content supply hs ht =>
    simp only [Prod.mk.injEq, Except.ok.injEq] at h
    rw [← h.1, ← h.2]
    split <;> simp only [size, hb, hs, supplySize] <;> omega
  | case7 r got hb content supply hs ht ih =>
    have := ih h
    have hlt := supplySize_restOf_lt supply ht
    simp only [size, hb, hs, List.length_nil] at this ⊢
    omega

/-- The text of a collected line without its terminator. -/
def decodeLine (bytes : List UInt8) : Except IoError String :=
  match String.fromUTF8? ⟨bytes.toArray⟩ with
  | some text => .ok (String.ofList (Text.stripTerminator text.toList))
  | none => .error .invalidUtf8

def next (r : ByteStream) : Except IoError (Option String) × ByteStream :=
  match r.collect [] with
  | (.error cause, s) => (.error cause, s)
  | (.ok [], s) => (.ok none, s)
  | (.ok (b :: bs), s) => ((decodeLine (b :: bs)).map some, s)

theorem size_next {r s : ByteStream} {line : String} (h : r.next = (.ok (some line), s)) :
    s.size < r.size := by
  rw [next] at h
  split at h
  · simp at h
  · simp at h
  · next b bs t hc =>
    have hle := size_collect hc
    simp only [Prod.mk.injEq] at h
    rw [h.2] at hle
    simp only [List.length_cons, List.length_nil] at hle
    omega

end ByteStream

instance : LineSource ByteStream where
  next := ByteStream.next
  bound := ByteStream.size
  bound_lt := ByteStream.size_next

end ArithLexer
