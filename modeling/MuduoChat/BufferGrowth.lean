import MuduoChat.ReadFd

/-!
The memory of a Buffer over a run. makeSpace keeps the dead bytes in front when it grows
the vector, but it grows only when those bytes together with the free end would not have
been enough: they are fewer than the new data. So what a growth leaves is paid for by
the readable bytes, however many bytes have gone through before.
-/

namespace MuduoChat.BufferGrowth
open ByteMemory ByteBuffer

/-- The calls of a stream through the buffer. Data comes in by append or by readFd. -/
inductive Call where
  | append (data : Bytes)
  | readFd (stream : Bytes) (readv : ReadFd.Readv)
  | retrieve (len : Nat)
  | retrieveAll
  | retrieveAsString (len : Nat)

def event : Call → ReadFd.Event
  | .append data => .op (.append data)
  | .readFd stream readv => .readFd stream readv
  | .retrieve len => .op (.retrieve len)
  | .retrieveAll => .op .retrieveAll
  | .retrieveAsString len => .op (.retrieveAsString len)

def step (buffer : Buffer) (call : Call) : Option Buffer := ReadFd.step buffer (event call)

theorem step_valid (before after : Buffer) (call : Call) (valid : Valid before)
    (stepped : step before call = some after) : Valid after :=
  ReadFd.step_valid before after (event call) valid stepped

theorem run_valid (before after : Buffer) (calls : List Call) (valid : Valid before)
    (ran : Transition.run step before calls = some after) : Valid after :=
  Transition.run_always step Valid
    (fun before call after valid stepped =>
      step_valid before after call valid stepped) before after calls valid ran

theorem readFd_step (before after : Buffer) (stream : Bytes) (readv : ReadFd.Readv)
    (stepped : step before (.readFd stream readv) = some after) :
    ReadFd.May before stream readv ∧ after = (ReadFd.readFd before stream readv 0).2.2 := by
  simp only [step, event, ReadFd.step] at stepped
  split at stepped
  · rename_i may
    exact ⟨may, (Option.some.inj stepped).symm⟩
  · cases stepped

/-- What readFd leaves is what append of the delivered bytes leaves, or the buffer as it was. -/
theorem readFd_delivers (before after : Buffer) (stream : Bytes) (readv : ReadFd.Readv)
    (valid : Valid before)
    (stepped : step before (.readFd stream readv) = some after) :
    after = before ∨ ReadFd.Same after (append before (stream.take readv.n.toNat)) := by
  obtain ⟨may, rfl⟩ := readFd_step before after stream readv stepped
  by_cases some_ : 0 ≤ readv.n
  · obtain ⟨_, _, _, same⟩ := ReadFd.readFd_data before stream readv 0 valid may some_
    exact .inr same
  · have fails : readv.n = -1 := may.resolve_right fun data => some_ data.1
    rw [ReadFd.readFd_error before stream readv 0 fails]
    exact .inl rfl

/-! One call. -/

theorem retrieve_size (buffer : Buffer) (len : Nat) :
    (retrieve buffer len).buffer_.length = buffer.buffer_.length := by
  unfold retrieve
  split <;> rfl

theorem readable_append (buffer : Buffer) (data : Bytes) (valid : Valid buffer) :
    readableBytes (append buffer data) = readableBytes buffer + data.length := by
  rw [readable_eq_length _ (append_valid buffer data valid), contents_append buffer data valid,
    List.length_append,
    ← readable_eq_length buffer valid]

theorem append_size (buffer : Buffer) (data : Bytes) (valid : Valid buffer) :
    (append buffer data).buffer_.length ≤
      max buffer.buffer_.length (kCheapPrepend + 2 * readableBytes (append buffer data)) := by
  have ordered := valid.ordered
  have readable := readable_append buffer data valid
  by_cases tight : writeableBytes buffer < data.length
  · have size := (ReadFd.append_tight buffer data tight).2.2
    by_cases grow : mustGrow buffer data.length
    · rw [if_pos grow] at size
      -- the failed test says that fewer than `data.length + kCheapPrepend` bytes lie in front
      simp only [mustGrow, prependableBytes] at grow
      have split : buffer.writeIndex_ = buffer.readerIndex_ + readableBytes buffer := by
        rw [readableBytes]
        omega
      omega
    · rw [if_neg grow] at size
      omega
  · have fits := ReadFd.append_fits buffer data (by omega)
    have size : (append buffer data).buffer_.length = buffer.buffer_.length := by
      rw [fits, length_copyIn]
    omega

theorem step_size (before after : Buffer) (call : Call) (valid : Valid before)
    (stepped : step before call = some after) :
    after.buffer_.length ≤ max before.buffer_.length (kCheapPrepend + 2 * readableBytes after) := by
  cases call with
  | append data =>
      cases stepped
      exact append_size before data valid
  | readFd stream readv =>
      obtain rfl | same := readFd_delivers before after stream readv valid stepped
      · exact Nat.le_max_left _ _
      · have readable : readableBytes after = readableBytes
          (append before (stream.take readv.n.toNat)) := by
          rw [readableBytes, readableBytes, same.readerIndex_, same.writeIndex_]
        rw [same.size, readable]
        exact append_size before _ valid
  | retrieve len =>
      cases stepped
      exact Nat.le_trans (Nat.le_of_eq (retrieve_size before len)) (Nat.le_max_left _ _)
  | retrieveAll =>
      cases stepped
      exact Nat.le_max_left _ _
  | retrieveAsString len =>
      cases stepped
      exact Nat.le_trans (Nat.le_of_eq (retrieve_size before len)) (Nat.le_max_left _ _)

/-! The whole stream. -/

/-- No call of the run leaves more than `backlog` readable bytes. -/
def StaysWithin (backlog : Nat) : Buffer → List Call → Prop :=
  Transition.Guarded step fun before call =>
    ∀ after ∈ step before call, readableBytes after ≤ backlog

instance (backlog : Nat) (buffer : Buffer) (calls : List Call) :
    Decidable (StaysWithin backlog buffer calls) :=
  Transition.decidableGuarded step _ buffer calls

theorem run_size (bound backlog : Nat) (before after : Buffer) (calls : List Call)
    (valid : Valid before)
    (enough : kCheapPrepend + 2 * backlog ≤ bound) (start : before.buffer_.length ≤ bound)
    (within : StaysWithin backlog before calls)
    (ran : Transition.run step before calls = some after) :
    after.buffer_.length ≤ bound := by
  refine (Transition.run_preserves step _
    (fun buffer => Valid buffer ∧ buffer.buffer_.length ≤ bound) ?_
    before after calls within ⟨valid, start⟩ ran).2
  intro now call next kept small stepped
  have readable := small next stepped
  have size := step_size now next call kept.1 stepped
  exact ⟨step_valid now next call kept.1 stepped, by omega⟩

theorem memory_bounded_by_backlog (initialSize backlog : Nat) (calls : List Call) (buffer : Buffer)
    (ran : Transition.run step (create initialSize) calls = some buffer)
    (within : StaysWithin backlog (create initialSize) calls) :
    buffer.buffer_.length ≤ max (kCheapPrepend + initialSize) (kCheapPrepend + 2 * backlog) := by
  have start : (create initialSize).buffer_.length = kCheapPrepend + initialSize :=
    List.length_replicate
  exact run_size _ backlog (create initialSize) buffer calls (create_valid initialSize)
    (Nat.le_max_right _ _)
    (Nat.le_trans (Nat.le_of_eq start) (Nat.le_max_left _ _)) within ran

/-- Eight bytes go through with at most five in the buffer; it grows with dead bytes in front. -/
theorem memory_bounded_by_backlog_five :
    (append (retrieve (append (create 2) [1, 2, 3, 4]) 3) [5, 6, 7, 8]).buffer_.length ≤
      max (kCheapPrepend + 2) (kCheapPrepend + 2 * 5) :=
  memory_bounded_by_backlog 2 5 [.append [1, 2, 3, 4], .retrieve 3, .append [5, 6, 7, 8]] _ rfl
    (by decide)

end MuduoChat.BufferGrowth
