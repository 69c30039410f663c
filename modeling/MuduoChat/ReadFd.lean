import MuduoChat.ByteBuffer

/-!
Buffer::readFd of MyMuduo/Buffer.cc. readv fills the free end of the buffer and then an
array on the stack; what went into the array is appended once the buffer is full. What
comes out is what append of all bytes gives, but for the dead bytes.
-/

namespace MuduoChat.ReadFd
open ByteMemory ByteBuffer

/-- `sizeof extrabuf`. -/
def kExtraSize : Nat := 65536

/-- What readv returned, and errno after it. -/
structure Readv where
  n : Int
  errno : Int

def iovcnt (buffer : Buffer) : Nat := if writeableBytes buffer < kExtraSize then 2 else 1

/-- The length of the segments passed to readv. -/
def room (buffer : Buffer) : Nat :=
  if iovcnt buffer = 2 then writeableBytes buffer + kExtraSize else writeableBytes buffer

/-- An error, or some bytes of the stream, as many as there is room for at most. -/
def May (buffer : Buffer) (stream : Bytes) (readv : Readv) : Prop :=
  readv.n = -1 ∨ (0 ≤ readv.n ∧ readv.n ≤ room buffer ∧ readv.n ≤ stream.length)

instance (buffer : Buffer) (stream : Bytes) (readv : Readv) : Decidable (May buffer stream readv) :=
  inferInstanceAs (Decidable (_ ∨ _))

/-- The buffer after readv, and the array on the stack: the bytes go into the first
segment until it is full, and then into the second one. -/
def scatter (buffer : Buffer) (data : Bytes) : Buffer × Bytes :=
  let writable := writeableBytes buffer
  ({ buffer with buffer_ := copyIn buffer.buffer_ buffer.writeIndex_ (data.take writable) },
    copyIn (List.replicate kExtraSize 0) 0 (data.drop writable))

/-- The length that readFd appends from the array on the stack. -/
def extraLen (buffer : Buffer) (n : Nat) : Nat := n - writeableBytes buffer

/-- What readFd returns, `*savedErrno`, and the buffer. -/
def readFd (buffer : Buffer) (stream : Bytes) (readv : Readv)
    (savedErrno : Int) : Int × Int × Buffer :=
  if readv.n < 0 then (readv.n, readv.errno, buffer)
  else
    -- not negative here, so the comparison with a size_t takes n for what it is
    let n := readv.n.toNat
    let (filled, extrabuf) := scatter buffer (stream.take n)
    if n ≤ writeableBytes buffer then
      (readv.n, savedErrno, { filled with writeIndex_ := filled.writeIndex_ + n })
    else
      let full := { filled with writeIndex_ := filled.buffer_.length }
      (readv.n, savedErrno, append full (extrabuf.take (extraLen buffer n)))

/-- Equal for every member function: only dead bytes may differ. -/
structure Same (left right : Buffer) : Prop where
  contents : contents left = contents right
  readerIndex_ : left.readerIndex_ = right.readerIndex_
  writeIndex_ : left.writeIndex_ = right.writeIndex_
  size : left.buffer_.length = right.buffer_.length

/-! Appending in two parts. -/

theorem append_fits (buffer : Buffer) (data : Bytes) (fits : data.length ≤ writeableBytes buffer) :
    append buffer data =
      { buffer with buffer_ := copyIn buffer.buffer_ buffer.writeIndex_ data,
                    writeIndex_ := buffer.writeIndex_ + data.length } := by
  have roomy : ensureWriteableBytes buffer data.length = buffer := if_neg (by omega)
  rw [append, roomy]

/-- Without room at the end, append grows the buffer or moves its bytes to the front. -/
theorem append_tight (buffer : Buffer) (data : Bytes)
    (tight : writeableBytes buffer < data.length) :
    (append buffer data).readerIndex_ =
        (if mustGrow buffer data.length then buffer.readerIndex_ else kCheapPrepend) ∧
      (append buffer data).writeIndex_ = (if mustGrow buffer data.length then buffer.writeIndex_
        else kCheapPrepend + readableBytes buffer) + data.length ∧
      (append buffer data).buffer_.length =
        if mustGrow buffer data.length then buffer.writeIndex_ + data.length
        else buffer.buffer_.length := by
  have space : ensureWriteableBytes buffer data.length = makeSpace buffer data.length :=
    if_pos tight
  by_cases grow : mustGrow buffer data.length
  · simp only [append, space, makeSpace, if_pos grow, length_copyIn, length_resize, and_self]
  · simp only [append, space, makeSpace, if_neg grow, length_copyIn, length_copyWithin, and_self]

/-- The first part fills the buffer to its end: the second grows or compacts it just as
both would have at once. -/
theorem append_append (buffer : Buffer) (left right : Bytes) (valid : Valid buffer)
    (fills : left.length = writeableBytes buffer) (more : right ≠ []) :
    Same (append (append buffer left) right) (append buffer (left ++ right)) := by
  have positive := List.length_pos_iff.mpr more
  have ordered := valid.ordered
  have bounded := valid.bounded
  have first := append_fits buffer left (Nat.le_of_eq fills)
  have both : (left ++ right).length = writeableBytes buffer + right.length := by
    rw [List.length_append, fills]
  have full : (append buffer left).writeIndex_ = buffer.writeIndex_ + writeableBytes buffer := by
    rw [first, fills]
  have reader : (append buffer left).readerIndex_ = buffer.readerIndex_ := by rw [first]
  have size : (append buffer left).buffer_.length = buffer.buffer_.length := by
    rw [first, length_copyIn]
  have none_ : writeableBytes (append buffer left) = 0 := by
    rw [writeableBytes, full, size, writeableBytes]
    omega
  -- the test of makeSpace comes out the same, since n bytes less the writable ones are asked for
  have grows : mustGrow (append buffer left) right.length ↔
      mustGrow buffer (left ++ right).length := by
    simp only [mustGrow, prependableBytes, none_, reader, both]
    omega
  obtain ⟨readerTwo, writeTwo, sizeTwo⟩ := append_tight (append buffer left) right (by omega)
  obtain ⟨readerOne, writeOne, sizeOne⟩ := append_tight buffer (left ++ right) (by omega)
  constructor
  · rw [contents_append _ _ (append_valid buffer left valid), contents_append _ _ valid,
      contents_append _ _ valid,
      List.append_assoc]
  · simp only [readerTwo, readerOne, grows, reader]
  · simp only [writeTwo, writeOne, grows, full, both, readableBytes, reader]
    split <;> omega
  · simp only [sizeTwo, sizeOne, grows, full, size, both]
    split <;> omega

/-! One call. -/

theorem scatter_fills (buffer : Buffer) (data : Bytes) (valid : Valid buffer)
    (beyond : writeableBytes buffer < data.length) :
    { (scatter buffer data).1 with writeIndex_ := (scatter buffer data).1.buffer_.length } =
      append buffer (data.take (writeableBytes buffer)) := by
  have bounded := valid.bounded
  have length : (data.take (writeableBytes buffer)).length = writeableBytes buffer := by
    rw [List.length_take]
    omega
  rw [append_fits buffer _ (Nat.le_of_eq length), length]
  simp only [scatter, length_copyIn, Buffer.mk.injEq, true_and]
  rw [writeableBytes]
  omega

/-- The bytes behind the first segment stand at the front of the array on the stack. -/
theorem scatter_extra (buffer : Buffer) (data : Bytes)
    (fits : extraLen buffer data.length ≤ kExtraSize) :
    (scatter buffer data).2.take (extraLen buffer data.length) = data.drop
    (writeableBytes buffer) := by
  have copied := slice_copyIn (List.replicate kExtraSize 0) 0 0 (data.drop (writeableBytes buffer))
    (Nat.le_refl 0)
  have length : (data.drop (writeableBytes buffer)).length = extraLen buffer data.length :=
    List.length_drop
  simp only [length, Nat.zero_add, List.length_replicate, slice, List.drop_zero, List.take_zero,
    List.nil_append] at copied
  exact copied fits

theorem readFd_data (buffer : Buffer) (stream : Bytes) (readv : Readv) (savedErrno : Int)
    (valid : Valid buffer)
    (may : May buffer stream readv) (some_ : 0 ≤ readv.n) :
    (readFd buffer stream readv savedErrno).1 = readv.n ∧
    (readFd buffer stream readv savedErrno).2.1 = savedErrno ∧
      extraLen buffer readv.n.toNat ≤ kExtraSize ∧
      Same (readFd buffer stream readv savedErrno).2.2
        (append buffer (stream.take readv.n.toNat)) := by
  obtain fails | ⟨_, within, given⟩ := may
  · omega
  · generalize count : readv.n.toNat = n
    have length : (stream.take n).length = n := by
      rw [List.length_take]
      omega
    have extra : extraLen buffer n ≤ kExtraSize := by
      simp only [extraLen, room] at within ⊢
      split at within <;> omega
    have positive : ¬ readv.n < 0 := by omega
    simp only [readFd, if_neg positive, count]
    by_cases fits : n ≤ writeableBytes buffer
    · have whole := append_fits buffer (stream.take n) (by omega)
      have same : ({ (scatter buffer (stream.take n)).1 with
          writeIndex_ := (scatter buffer (stream.take n)).1.writeIndex_ + n } : Buffer) =
            append buffer (stream.take n) := by
        rw [whole, scatter, length, List.take_of_length_le (by omega)]
      rw [if_pos fits, same]
      exact ⟨rfl, rfl, extra, rfl, rfl, rfl, rfl⟩
    · rw [if_neg fits]
      refine ⟨rfl, rfl, extra, ?_⟩
      have appended := scatter_extra buffer (stream.take n) (by rw [length]; exact extra)
      rw [length] at appended
      rw [scatter_fills buffer (stream.take n) valid (by omega), appended]
      have parts := append_append buffer ((stream.take n).take (writeableBytes buffer))
        ((stream.take n).drop (writeableBytes buffer)) valid (by rw [List.length_take]; omega)
        (List.ne_nil_of_length_pos (by rw [List.length_drop]; omega))
      rw [List.take_append_drop] at parts
      exact parts

theorem readFd_error (buffer : Buffer) (stream : Bytes) (readv : Readv) (savedErrno : Int)
    (fails : readv.n = -1) :
    readFd buffer stream readv savedErrno = (-1, readv.errno, buffer) := by
  rw [readFd, fails, if_pos (by decide)]

theorem readFd_valid (buffer : Buffer) (stream : Bytes) (readv : Readv) (savedErrno : Int)
    (valid : Valid buffer)
    (may : May buffer stream readv) : Valid (readFd buffer stream readv savedErrno).2.2 := by
  by_cases some_ : 0 ≤ readv.n
  · obtain ⟨_, _, _, same⟩ := readFd_data buffer stream readv savedErrno valid may some_
    obtain ⟨prepend, ordered, bounded⟩ := append_valid buffer (stream.take readv.n.toNat) valid
    rw [← same.readerIndex_] at prepend ordered
    rw [← same.writeIndex_] at ordered bounded
    rw [← same.size] at bounded
    exact ⟨prepend, ordered, bounded⟩
  · have fails : readv.n = -1 := may.resolve_right fun data => some_ data.1
    rw [readFd_error buffer stream readv savedErrno fails]
    exact valid

/-! Every buffer that the member functions and readFd can bring about. -/

inductive Event where
  | op (op : Op)
  | readFd (stream : Bytes) (readv : Readv)

def step (buffer : Buffer) : Event → Option Buffer
  | .op op => some (ByteBuffer.step buffer op).2
  | .readFd stream readv =>
      if May buffer stream readv then some (readFd buffer stream readv 0).2.2 else none

theorem step_valid (before after : Buffer) (event : Event) (valid : Valid before)
    (stepped : step before event = some after) : Valid after := by
  cases event with
  | readFd stream readv =>
      simp only [step] at stepped
      split at stepped
      · rename_i may
        cases stepped
        exact readFd_valid before stream readv 0 valid may
      · cases stepped
  | op op =>
      cases stepped
      cases op with
      | append data => exact append_valid before data valid
      | retrieve len => exact retrieve_valid before len valid
      | retrieveAll => exact retrieveAll_valid before valid
      | retrieveAsString len => exact retrieve_valid before len valid
      | retrieveAllAsString => exact retrieve_valid before _ valid
      | ensureWriteableBytes len => exact (ensure_spec before len valid).1

theorem run_valid (initialSize : Nat) (events : List Event) (buffer : Buffer)
    (ran : Transition.run step (create initialSize) events = some buffer) : Valid buffer :=
  Transition.run_always step Valid
    (fun before event after valid stepped => step_valid before after event valid stepped)
    (create initialSize) buffer events (create_valid initialSize) ran

theorem readFd_appends (initialSize : Nat) (events : List Event) (buffer : Buffer)
    (ran : Transition.run step (create initialSize) events = some buffer) (stream : Bytes)
    (readv : Readv)
    (savedErrno : Int) (may : May buffer stream readv) :
    let result := readFd buffer stream readv savedErrno
    result.1 = readv.n ∧ Valid result.2.2 ∧
      (0 ≤ readv.n → contents result.2.2 = contents buffer ++ stream.take readv.n.toNat ∧
        result.2.1 = savedErrno ∧
        extraLen buffer readv.n.toNat ≤ kExtraSize ∧
          Same result.2.2 (append buffer (stream.take readv.n.toNat))) ∧
      (readv.n = -1 → result.2.2 = buffer ∧ result.2.1 = readv.errno) := by
  have valid := run_valid initialSize events buffer ran
  intro result
  refine ⟨?_, readFd_valid buffer stream readv savedErrno valid may, fun some_ => ?_,
    fun fails => ?_⟩
  · by_cases some_ : 0 ≤ readv.n
    · exact (readFd_data buffer stream readv savedErrno valid may some_).1
    · have fails : readv.n = -1 := may.resolve_right fun data => some_ data.1
      simp only [result, readFd_error buffer stream readv savedErrno fails, fails]
  · obtain ⟨_, kept, extra, same⟩ := readFd_data buffer stream readv savedErrno valid may some_
    exact ⟨same.contents.trans (contents_append buffer _ valid), kept, extra, same⟩
  · simp only [result, readFd_error buffer stream readv savedErrno fails, and_self]

/-- A buffer without room reads three bytes by way of the stack. -/
theorem readFd_appends_three :
    contents (readFd (append (create 0) [7]) [1, 2, 3, 4] ⟨3, 0⟩ 0).2.2 = [7, 1, 2, 3] := by
  have read := readFd_appends 0 [.op (.append [7])] (append (create 0) [7]) rfl [1, 2, 3, 4]
    ⟨3, 0⟩ 0 (by decide)
  exact (read.2.2.1 (by decide)).1.trans (by decide)

end MuduoChat.ReadFd
