import MuduoChat.ByteMemory
import MuduoChat.Transition

/-!
MyMuduo/Buffer.h. The buffer keeps a vector and two indices; `size_t` values are
naturals, since the length of a real object never wraps them. The abstract
buffer is the queue of its readable bytes. Every operation of the class refines
the queue operation of the same name, whatever path makeSpace takes.
readFd and writeFd are the kernel's side of it and live with their callers.
-/

namespace MuduoChat.ByteBuffer
open ByteMemory

abbrev Bytes := List UInt8

def kCheapPrepend : Nat := 8
def kInitialSize : Nat := 1024

structure Buffer where
  buffer_ : Bytes
  readerIndex_ : Nat
  writeIndex_ : Nat
  deriving DecidableEq

def create (initialSize : Nat) : Buffer :=
  { buffer_ := List.replicate (kCheapPrepend + initialSize) 0
    readerIndex_ := kCheapPrepend
    writeIndex_ := kCheapPrepend }

def readableBytes (buffer : Buffer) : Nat := buffer.writeIndex_ - buffer.readerIndex_
def writeableBytes (buffer : Buffer) : Nat := buffer.buffer_.length - buffer.writeIndex_
def prependableBytes (buffer : Buffer) : Nat := buffer.readerIndex_

/-- `std::string(peek(), len)`. -/
def peek (buffer : Buffer) (len : Nat) : Bytes := (buffer.buffer_.drop buffer.readerIndex_).take len

def retrieveAll (buffer : Buffer) : Buffer :=
  { buffer with readerIndex_ := kCheapPrepend, writeIndex_ := kCheapPrepend }

def retrieve (buffer : Buffer) (len : Nat) : Buffer :=
  if len < readableBytes buffer then { buffer with readerIndex_ := buffer.readerIndex_ + len }
  else retrieveAll buffer

def retrieveAsString (buffer : Buffer) (len : Nat) : Bytes × Buffer :=
  (peek buffer len, retrieve buffer len)

def retrieveAllAsString (buffer : Buffer) : Bytes × Buffer :=
  retrieveAsString buffer (readableBytes buffer)

/-- The test of makeSpace: even with the dead bytes in front there is no room. -/
def mustGrow (buffer : Buffer) (len : Nat) : Prop :=
  writeableBytes buffer + prependableBytes buffer < len + kCheapPrepend

instance (buffer : Buffer) (len : Nat) : Decidable (mustGrow buffer len) :=
  inferInstanceAs (Decidable (_ < _))

def makeSpace (buffer : Buffer) (len : Nat) : Buffer :=
  if mustGrow buffer len then
    { buffer with buffer_ := resize 0 buffer.buffer_ (buffer.writeIndex_ + len) }
  else
    { buffer_ := copyWithin buffer.buffer_ buffer.readerIndex_ kCheapPrepend
        (buffer.writeIndex_ - buffer.readerIndex_)
      readerIndex_ := kCheapPrepend
      writeIndex_ := kCheapPrepend + readableBytes buffer }

def ensureWriteableBytes (buffer : Buffer) (len : Nat) : Buffer :=
  if writeableBytes buffer < len then makeSpace buffer len else buffer

def append (buffer : Buffer) (data : Bytes) : Buffer :=
  let roomy := ensureWriteableBytes buffer data.length
  { roomy with
    buffer_ := copyIn roomy.buffer_ roomy.writeIndex_ data
    writeIndex_ := roomy.writeIndex_ + data.length }

/-! The queue the buffer stands for. -/

def contents (buffer : Buffer) : Bytes :=
  slice buffer.buffer_ buffer.readerIndex_ buffer.writeIndex_

structure Valid (buffer : Buffer) : Prop where
  prepend : kCheapPrepend ≤ buffer.readerIndex_
  ordered : buffer.readerIndex_ ≤ buffer.writeIndex_
  bounded : buffer.writeIndex_ ≤ buffer.buffer_.length

theorem create_valid (initialSize : Nat) : Valid (create initialSize) :=
  ⟨Nat.le_refl _, Nat.le_refl _, by simp [create]⟩

@[simp] theorem contents_create (initialSize : Nat) : contents (create initialSize) = [] := by
  simp [contents, create]

theorem readable_eq_length (buffer : Buffer) (valid : Valid buffer) :
    readableBytes buffer = (contents buffer).length := by
  rw [contents, length_slice _ _ _ valid.bounded, readableBytes]

theorem peek_contents (buffer : Buffer) (len : Nat) (valid : Valid buffer)
    (fits : len ≤ readableBytes buffer) : peek buffer len = (contents buffer).take len := by
  have ordered := valid.ordered
  rw [peek, contents, take_slice]
  simp only [readableBytes] at fits
  omega

theorem retrieveAll_valid (buffer : Buffer) (valid : Valid buffer) : Valid (retrieveAll buffer) :=
  ⟨Nat.le_refl _, Nat.le_refl _,
    Nat.le_trans (Nat.le_trans valid.prepend valid.ordered) valid.bounded⟩

@[simp] theorem contents_retrieveAll (buffer : Buffer) : contents (retrieveAll buffer) = [] := by
  simp [contents, retrieveAll]

theorem retrieve_valid (buffer : Buffer) (len : Nat) (valid : Valid buffer) :
    Valid (retrieve buffer len) := by
  unfold retrieve
  by_cases partly : len < readableBytes buffer
  · rw [if_pos partly]
    have prepend := valid.prepend
    simp only [readableBytes] at partly
    exact ⟨by simp only; omega, by simp only; omega, valid.bounded⟩
  · rw [if_neg partly]
    exact retrieveAll_valid buffer valid

theorem contents_retrieve (buffer : Buffer) (len : Nat) (valid : Valid buffer) :
    contents (retrieve buffer len) = (contents buffer).drop len := by
  unfold retrieve
  by_cases partly : len < readableBytes buffer
  · rw [if_pos partly, contents, contents, drop_slice]
  · rw [if_neg partly, contents_retrieveAll]
    rw [readable_eq_length buffer valid] at partly
    exact (List.drop_eq_nil_of_le (by omega)).symm

/-- makeSpace compacts only when dead bytes lie in front of the readable ones,
so std::copy gets a destination before its source. -/
theorem compaction_forward (buffer : Buffer) (len : Nat) (valid : Valid buffer)
    (tight : writeableBytes buffer < len) (roomy : ¬ mustGrow buffer len) :
    kCheapPrepend < buffer.readerIndex_ := by
  have prepend := valid.prepend
  simp only [mustGrow, prependableBytes] at roomy
  omega

/-- What ensureWriteableBytes does, on each of its three paths. -/
theorem ensure_spec (buffer : Buffer) (len : Nat) (valid : Valid buffer) :
    Valid (ensureWriteableBytes buffer len) ∧
      contents (ensureWriteableBytes buffer len) = contents buffer ∧
      len ≤ writeableBytes (ensureWriteableBytes buffer len) := by
  have prepend := valid.prepend
  have ordered := valid.ordered
  have bounded := valid.bounded
  unfold ensureWriteableBytes
  by_cases tight : writeableBytes buffer < len
  · rw [if_pos tight]
    unfold makeSpace
    by_cases grow : mustGrow buffer len
    · rw [if_pos grow]
      refine ⟨⟨prepend, ordered, by simp⟩, ?_, by simp [writeableBytes]⟩
      exact slice_resize 0 _ _ _ _ bounded (Nat.le_add_right _ _)
    · rw [if_neg grow]
      have forward := compaction_forward buffer len valid tight grow
      have inside : buffer.readerIndex_ + (buffer.writeIndex_ - buffer.readerIndex_) ≤
          buffer.buffer_.length := by omega
      have moved := slice_copyWithin buffer.buffer_ buffer.readerIndex_ kCheapPrepend
        (buffer.writeIndex_ - buffer.readerIndex_) (Nat.le_of_lt forward) inside
      rw [Nat.add_sub_cancel' ordered] at moved
      simp only [mustGrow, writeableBytes, prependableBytes] at grow tight
      refine ⟨⟨Nat.le_refl _, ?_, ?_⟩, moved, ?_⟩ <;>
        simp only [readableBytes, writeableBytes, length_copyWithin] <;> omega
  · rw [if_neg tight]
    exact ⟨valid, rfl, by omega⟩

theorem append_valid (buffer : Buffer) (data : Bytes) (valid : Valid buffer) :
    Valid (append buffer data) := by
  obtain ⟨roomValid, _, room⟩ := ensure_spec buffer data.length valid
  have bounded := roomValid.bounded
  have ordered := roomValid.ordered
  simp only [writeableBytes] at room
  refine ⟨roomValid.prepend, ?_, ?_⟩
  · simp only [append]; omega
  · simp only [append, length_copyIn]; omega

theorem contents_append (buffer : Buffer) (data : Bytes) (valid : Valid buffer) :
    contents (append buffer data) = contents buffer ++ data := by
  obtain ⟨roomValid, same, room⟩ := ensure_spec buffer data.length valid
  have bounded := roomValid.bounded
  simp only [writeableBytes] at room
  rw [← same]
  exact slice_copyIn _ _ _ data roomValid.ordered (by omega)

/-! The operations as one alphabet, with the abstract and the concrete machine
over it. An answer is the string an operation returns, if it returns one. -/

inductive Op where
  | append (data : Bytes)
  | retrieve (len : Nat)
  | retrieveAll
  | retrieveAsString (len : Nat)
  | retrieveAllAsString
  | ensureWriteableBytes (len : Nat)
  deriving DecidableEq

def step (buffer : Buffer) : Op → Option Bytes × Buffer
  | .append data => (none, append buffer data)
  | .retrieve len => (none, retrieve buffer len)
  | .retrieveAll => (none, retrieveAll buffer)
  | .retrieveAsString len => ((retrieveAsString buffer len).map some id)
  | .retrieveAllAsString => ((retrieveAllAsString buffer).map some id)
  | .ensureWriteableBytes len => (none, ensureWriteableBytes buffer len)

/-- The byte queue: data goes in at the end and comes out at the front. -/
def queueStep (queue : Bytes) : Op → Option Bytes × Bytes
  | .append data => (none, queue ++ data)
  | .retrieve len => (none, queue.drop (min len queue.length))
  | .retrieveAll => (none, [])
  | .retrieveAsString len => (some (queue.take len), queue.drop (min len queue.length))
  | .retrieveAllAsString => (some queue, [])
  | .ensureWriteableBytes _ => (none, queue)

/-- retrieveAsString may not ask for more than there is. -/
def InRange (queue : Bytes) : Op → Prop
  | .retrieveAsString len => len ≤ queue.length
  | _ => True

instance (queue : Bytes) (op : Op) : Decidable (InRange queue op) := by
  cases op <;> simp only [InRange] <;> infer_instance

def Represents (queue : Bytes) (buffer : Buffer) : Prop :=
  Valid buffer ∧ contents buffer = queue

theorem drop_min_length (queue : Bytes) (len : Nat) :
    queue.drop (min len queue.length) = queue.drop len := by
  by_cases short : len ≤ queue.length
  · rw [Nat.min_eq_left short]
  · rw [Nat.min_eq_right (by omega), List.drop_length, List.drop_eq_nil_of_le (by omega)]

theorem step_refines (queue : Bytes) (buffer : Buffer) (op : Op)
    (represents : Represents queue buffer) (inRange : InRange queue op) :
    (step buffer op).1 = (queueStep queue op).1 ∧
      Represents (queueStep queue op).2 (step buffer op).2 := by
  obtain ⟨valid, rfl⟩ := represents
  have length := readable_eq_length buffer valid
  cases op with
  | append data => exact ⟨rfl, append_valid buffer data valid, contents_append buffer data valid⟩
  | retrieve len =>
      refine ⟨rfl, retrieve_valid buffer len valid, ?_⟩
      exact (contents_retrieve buffer len valid).trans (drop_min_length _ _).symm
  | retrieveAll => exact ⟨rfl, retrieveAll_valid buffer valid, contents_retrieveAll buffer⟩
  | retrieveAsString len =>
      refine ⟨congrArg some (peek_contents buffer len valid (by rw [length]; exact inRange)),
        retrieve_valid buffer len valid, ?_⟩
      exact (contents_retrieve buffer len valid).trans (drop_min_length _ _).symm
  | retrieveAllAsString =>
      refine ⟨congrArg some ?_, retrieve_valid buffer _ valid, ?_⟩
      · rw [peek_contents buffer _ valid (Nat.le_refl _), length, List.take_length]
      · exact (contents_retrieve buffer _ valid).trans (by simp [queueStep, length])
  | ensureWriteableBytes len =>
      obtain ⟨kept, same, _⟩ := ensure_spec buffer len valid
      exact ⟨rfl, kept, same⟩

/-- Every write of append stays inside the vector. -/
theorem append_in_bounds (buffer : Buffer) (data : Bytes) (valid : Valid buffer) :
    (ensureWriteableBytes buffer data.length).writeIndex_ + data.length ≤
      (ensureWriteableBytes buffer data.length).buffer_.length := by
  obtain ⟨roomValid, _, room⟩ := ensure_spec buffer data.length valid
  have bounded := roomValid.bounded
  simp only [writeableBytes] at room
  omega

/-- From a fresh buffer of any size, over any run of operations: the indices stay
ordered, the readable bytes are the queue's, the strings returned are the
queue's front bytes, the next append writes in bounds and the next compaction
never copies into its own source range. -/
theorem buffer_refines_queue (initialSize : Nat) (ops : List Op)
    (admissible : Transition.Admissible InRange queueStep [] ops) :
    let concrete := Transition.answers step (create initialSize) ops
    let abstract := Transition.answers queueStep [] ops
    Valid concrete.2 ∧ contents concrete.2 = abstract.2 ∧ concrete.1 = abstract.1 ∧
      (∀ data : Bytes, (ensureWriteableBytes concrete.2 data.length).writeIndex_ + data.length ≤
        (ensureWriteableBytes concrete.2 data.length).buffer_.length) ∧
      (∀ len, writeableBytes concrete.2 < len → ¬ mustGrow concrete.2 len →
        ¬ (concrete.2.readerIndex_ ≤ kCheapPrepend ∧ kCheapPrepend < concrete.2.writeIndex_)) := by
  intro concrete abstract
  obtain ⟨sameAnswers, valid, same⟩ := Transition.answers_refine Represents InRange queueStep step
    step_refines [] (create initialSize) ops ⟨create_valid initialSize, contents_create initialSize⟩
    admissible
  refine ⟨valid, same, sameAnswers, fun data => append_in_bounds _ data valid, ?_⟩
  intro len tight roomy inside
  exact Nat.not_le_of_lt (compaction_forward _ len valid tight roomy) inside.1

/-- A buffer of size 0 that grows, is half read, and then compacts. -/
theorem buffer_refines_queue_compacting :
    (Transition.answers step (create 0)
      [.append [1, 2, 3, 4], .retrieveAsString 3, .append [5, 6], .retrieveAllAsString]).1 =
      [none, some [1, 2, 3], none, some [4, 5, 6]] := by
  have refined := buffer_refines_queue 0
    [.append [1, 2, 3, 4], .retrieveAsString 3, .append [5, 6], .retrieveAllAsString]
    (by simp [Transition.Admissible, InRange, queueStep])
  exact refined.2.2.1.trans (by decide)

end MuduoChat.ByteBuffer
