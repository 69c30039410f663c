import MuduoChat.BufferGrowth

/-!
What a reader of a Buffer can see. retrieveAsString builds its string from peek() with
the length it is given, and only retrieve clamps that length to the readable bytes. So a
length that is too large reads on: first the bytes that stand behind writeIndex_, which
are those of earlier messages, and then the memory behind the vector, a parameter here.
-/

namespace MuduoChat.StaleBytes
open ByteMemory ByteBuffer BufferGrowth

/-- `std::string(peek(), len)`, for any length: `behind` is the memory behind the vector. -/
def stringAt (behind : Nat → UInt8) (buffer : Buffer) (len : Nat) : Bytes :=
  (List.range len).map fun offset => (buffer.buffer_[buffer.readerIndex_ + offset]?).getD
    (behind offset)

/-- What one call lets its caller see. -/
structure Seen where
  returned : Option Bytes
  readable : Nat
  removed : Bytes
  deriving DecidableEq

/-- The returned string and the value of readableBytes() after the call. -/
def answer (seen : Seen) : Option Bytes × Nat := (seen.returned, seen.readable)

def returned (behind : Nat → UInt8) (buffer : Buffer) : Call → Option Bytes
  | .retrieveAsString len => some (stringAt behind buffer len)
  | _ => none

def observe (behind : Buffer → Nat → UInt8) (before : Buffer) (call : Call) : Option
    (Seen × Buffer) :=
  (step before call).map fun after =>
    ({ returned := returned (behind before) before call
       readable := readableBytes after
       removed := (contents before).take (readableBytes before - readableBytes after) }, after)

def observeAll (behind : Buffer → Nat → UInt8) : Buffer → List Call → Option (List Seen)
  | _, [] => some []
  | buffer, call :: rest =>
      (observe behind buffer call).bind fun (seen, after) =>
        (observeAll behind after rest).map (seen :: ·)

/-- Each string is just the bytes that its call removes. -/
def Exact (seen : Seen) : Prop := ∀ string ∈ seen.returned, string = seen.removed

instance (seen : Seen) : Decidable (Exact seen) := inferInstanceAs (Decidable (∀ _ ∈ _, _))

/-- No retrieveAsString asks for more than the readable bytes. -/
def Enough (buffer : Buffer) : Call → Prop
  | .retrieveAsString len => len ≤ readableBytes buffer
  | _ => True

instance (buffer : Buffer) : DecidablePred (Enough buffer)
  | .retrieveAsString len => inferInstanceAs (Decidable (len ≤ readableBytes buffer))
  | .append _ | .readFd _ _ | .retrieve _ | .retrieveAll => .isTrue trivial

/-! The readable bytes after a call depend on the readable bytes before it only. -/

def feed (queue : Bytes) : Call → Bytes
  | .append data => queue ++ data
  | .readFd stream readv => queue ++ stream.take readv.n.toNat
  | .retrieve len => queue.drop len
  | .retrieveAll => []
  | .retrieveAsString len => queue.drop len

theorem step_feed (before after : Buffer) (call : Call) (valid : Valid before)
    (stepped : step before call = some after) : contents after = feed (contents before) call := by
  cases call with
  | append data =>
      cases stepped
      exact contents_append before data valid
  | readFd stream readv =>
      obtain ⟨may, rfl⟩ := readFd_step before after stream readv stepped
      by_cases some_ : 0 ≤ readv.n
      · obtain ⟨_, _, _, same⟩ := ReadFd.readFd_data before stream readv 0 valid may some_
        exact same.contents.trans (contents_append before _ valid)
      · have fails : readv.n = -1 := may.resolve_right fun data => some_ data.1
        rw [ReadFd.readFd_error before stream readv 0 fails]
        simp [feed, fails]
  | retrieve len =>
      cases stepped
      exact contents_retrieve before len valid
  | retrieveAll =>
      cases stepped
      exact contents_retrieveAll before
  | retrieveAsString len =>
      cases stepped
      exact contents_retrieve before len valid

/-! The string and the removed bytes. -/

@[simp] theorem length_stringAt (behind : Nat → UInt8) (buffer : Buffer) (len : Nat) :
    (stringAt behind buffer len).length = len := by
  simp [stringAt]

/-- Inside the vector the string is the one of the buffer's own peek. -/
theorem stringAt_peek (behind : Nat → UInt8) (buffer : Buffer) (len : Nat)
    (inside : buffer.readerIndex_ + len ≤ buffer.buffer_.length) :
    stringAt behind buffer len = peek buffer len := by
  apply List.ext_getElem
  · simp only [length_stringAt, peek, List.length_take, List.length_drop]
    omega
  · intro offset before _
    rw [length_stringAt] at before
    have bound : buffer.readerIndex_ + offset < buffer.buffer_.length := by omega
    simp only [stringAt, peek, List.getElem_map, List.getElem_range, List.getElem_take,
      List.getElem_drop,
      List.getElem?_eq_getElem bound, Option.getD_some]

theorem stringAt_contents (behind : Nat → UInt8) (buffer : Buffer) (len : Nat)
    (valid : Valid buffer)
    (enough : len ≤ readableBytes buffer) :
    stringAt behind buffer len = (contents buffer).take len := by
  have bounded := valid.bounded
  have ordered := valid.ordered
  have inside : buffer.readerIndex_ + len ≤ buffer.buffer_.length := by
    rw [readableBytes] at enough
    omega
  rw [stringAt_peek behind buffer len inside, peek_contents buffer len valid enough]

theorem removed_retrieve (buffer : Buffer) (len : Nat) (valid : Valid buffer) :
    (contents buffer).take (readableBytes buffer - readableBytes (retrieve buffer len)) =
    (contents buffer).take len := by
  have before := readable_eq_length buffer valid
  have after := readable_eq_length (retrieve buffer len) (retrieve_valid buffer len valid)
  rw [contents_retrieve buffer len valid, List.length_drop] at after
  by_cases short : len ≤ (contents buffer).length
  · have all : readableBytes buffer - readableBytes (retrieve buffer len) = len := by omega
    rw [all]
  · rw [List.take_of_length_le (by omega), List.take_of_length_le (by omega)]

/-- The string has the length that was asked for, the removed bytes are clamped. -/
theorem exact_iff (behind : Nat → UInt8) (buffer : Buffer) (len : Nat) (valid : Valid buffer) :
    stringAt behind buffer len = (contents buffer).take len ↔ len ≤ readableBytes buffer := by
  constructor
  · -- the two lengths tell them apart
    intro equal
    have lengths := congrArg List.length equal
    rw [length_stringAt, List.length_take, ← readable_eq_length buffer valid] at lengths
    omega
  · exact stringAt_contents behind buffer len valid

/-! One call on two buffers with the same readable bytes. -/

theorem observe_spec (behind : Buffer → Nat → UInt8) (before after : Buffer) (call : Call)
    (seen : Seen)
    (valid : Valid before) (observed : observe behind before call = some (seen, after)) :
    step before call = some after ∧ Valid after ∧ contents after = feed (contents before) call ∧
      seen.readable = (feed (contents before) call).length ∧
        seen.returned = returned (behind before) before call ∧
      (Exact seen ↔ Enough before call) := by
  obtain ⟨next, stepped, same⟩ := Option.map_eq_some_iff.mp observed
  cases same
  have kept := step_valid before after call valid stepped
  have fed := step_feed before after call valid stepped
  refine ⟨stepped, kept, fed, ?_, rfl, ?_⟩
  · rw [← fed]
    exact readable_eq_length after kept
  · cases call with
    | retrieveAsString len =>
        have rest : after = retrieve before len := (Option.some.inj stepped).symm
        have equal := exact_iff (behind before) before len valid
        rw [← removed_retrieve before len valid, ← rest] at equal
        simpa [Exact, returned, Enough] using equal
    | append _ => simp [Exact, returned, Enough]
    | readFd _ _ => simp [Exact, returned, Enough]
    | retrieve _ => simp [Exact, returned, Enough]
    | retrieveAll => simp [Exact, returned, Enough]

theorem returned_same (behindLeft behindRight : Nat → UInt8) (left right : Buffer) (call : Call)
    (validLeft : Valid left) (validRight : Valid right) (same : contents left = contents right)
    (enough : Enough left call) : returned behindLeft left call =
    returned behindRight right call := by
  cases call with
  | retrieveAsString len =>
      have readable : readableBytes left = readableBytes right := by
        rw [readable_eq_length left validLeft, readable_eq_length right validRight, same]
      simp only [Enough] at enough
      rw [returned, returned, stringAt_contents behindLeft left len validLeft enough,
        stringAt_contents behindRight right len validRight (by omega), same]
  | append _ => rfl
  | readFd _ _ => rfl
  | retrieve _ => rfl
  | retrieveAll => rfl

theorem observeAll_cons (behind : Buffer → Nat → UInt8) (buffer : Buffer) (call : Call)
    (rest : List Call)
    (seen : List Seen) (observed : observeAll behind buffer (call :: rest) = some seen) :
    ∃ first after tail, observe behind buffer call = some (first, after) ∧
      observeAll behind after rest = some tail ∧ seen = first :: tail := by
  obtain ⟨⟨first, after⟩, one, more⟩ := Option.bind_eq_some_iff.mp observed
  obtain ⟨tail, others, same⟩ := Option.map_eq_some_iff.mp more
  exact ⟨first, after, tail, one, others, same.symm⟩

/-- The two runs stay on the same readable bytes, whatever is asked for. -/
theorem observeAll_iff (behindLeft behindRight : Buffer → Nat → UInt8) (left right : Buffer)
    (calls : List Call)
    (seenLeft seenRight : List Seen) (validLeft : Valid left) (validRight : Valid right)
    (same : contents left = contents right)
    (observedLeft : observeAll behindLeft left calls = some seenLeft)
    (observedRight : observeAll behindRight right calls = some seenRight) :
    (seenLeft.map answer = seenRight.map answer ∧ (∀ seen ∈ seenLeft, Exact seen) ∧
      ∀ seen ∈ seenRight, Exact seen) ↔
      Transition.Guarded step Enough left calls := by
  induction calls generalizing left right seenLeft seenRight with
  | nil =>
      cases observedLeft
      cases observedRight
      simp [Transition.Guarded]
  | cons call rest ih =>
      obtain ⟨firstLeft, nextLeft, tailLeft, oneLeft, moreLeft, rfl⟩ :=
        observeAll_cons behindLeft left call rest seenLeft observedLeft
      obtain ⟨firstRight, nextRight, tailRight, oneRight, moreRight, rfl⟩ :=
        observeAll_cons behindRight right call rest seenRight observedRight
      obtain ⟨stepped, keptLeft, fedLeft, readableLeft, returnedLeft, exactLeft⟩ :=
        observe_spec behindLeft left nextLeft call firstLeft validLeft oneLeft
      obtain ⟨_, keptRight, fedRight, readableRight, returnedRight, exactRight⟩ :=
        observe_spec behindRight right nextRight call firstRight validRight oneRight
      have tail := ih nextLeft nextRight tailLeft tailRight keptLeft keptRight
        (by rw [fedLeft, fedRight, same]) moreLeft moreRight
      have readable : readableBytes left = readableBytes right := by
        rw [readable_eq_length left validLeft, readable_eq_length right validRight, same]
      have enoughRight : Enough left call → Enough right call := by
        cases call <;> simp [Enough, readable]
      -- the first call decides by its own length, the rest by induction on the same readable bytes
      simp only [Transition.Guarded, stepped, ← tail, List.map_cons, List.cons.injEq,
        List.forall_mem_cons]
      constructor
      · rintro ⟨⟨_, answers⟩, ⟨exact_, othersLeft⟩, _, othersRight⟩
        exact ⟨exactLeft.mp exact_, answers, othersLeft, othersRight⟩
      · rintro ⟨enough, answers, othersLeft, othersRight⟩
        have sameReturned := returned_same (behindLeft left)
          (behindRight right) left right call validLeft validRight
          same enough
        refine ⟨⟨?_, answers⟩, ⟨exactLeft.mpr enough, othersLeft⟩,
          exactRight.mpr (enoughRight enough), othersRight⟩
        rw [answer, answer, returnedLeft, returnedRight, sameReturned, readableLeft, readableRight,
          same]

/-- Any two histories that leave the same readable bytes, and any calls after them. -/
theorem old_bytes_unseen_iff_enough (leftSize rightSize : Nat)
    (leftHistory rightHistory : List Call)
    (left right : Buffer) (ranLeft : Transition.run step (create leftSize) leftHistory = some left)
    (ranRight : Transition.run step (create rightSize) rightHistory = some right)
    (same : contents left = contents right) (behindLeft behindRight : Buffer → Nat → UInt8)
    (calls : List Call)
    (seenLeft seenRight : List Seen)
    (observedLeft : observeAll behindLeft left calls = some seenLeft)
    (observedRight : observeAll behindRight right calls = some seenRight) :
    (seenLeft.map answer = seenRight.map answer ∧ (∀ seen ∈ seenLeft, Exact seen) ∧
      ∀ seen ∈ seenRight, Exact seen) ↔
      Transition.Guarded step Enough left calls :=
  observeAll_iff behindLeft behindRight left right calls seenLeft seenRight
    (run_valid (create leftSize) left leftHistory (create_valid leftSize) ranLeft)
    (run_valid (create rightSize) right rightHistory (create_valid rightSize) ranRight)
    same observedLeft observedRight

/-- A buffer that has carried six other bytes and a fresh one, read in range. -/
theorem old_bytes_unseen_iff_enough_two :
    ∃ seenLeft seenRight,
      observeAll (fun _ _ => 0) (append
        (retrieveAll (append (create 8) [115, 101, 99, 114, 101, 116])) [97, 98])
        [.retrieveAsString 2] = some seenLeft ∧
      observeAll (fun _ _ => 1) (append (create 0) [97, 98]) [.retrieveAsString 2] =
        some seenRight ∧
      seenLeft.map answer = seenRight.map answer := by
  refine ⟨_, _, rfl, rfl, ?_⟩
  exact ((old_bytes_unseen_iff_enough 8 0 [.append [115, 101, 99, 114, 101, 116], .retrieveAll,
    .append [97, 98]]
    [.append [97, 98]] _ _ rfl rfl (by decide) (fun _ _ => 0)
    (fun _ _ => 1) [.retrieveAsString 2] _ _ rfl rfl).mpr
    (by decide)).1

/-- "ab" behind a retrieved "secret" is not the same as "ab" in a fresh buffer: asked for six
bytes, the one returns "abcret", the other one what the vector was filled with; both remove "ab". -/
theorem old_bytes_seen :
    ¬ ∀ (leftSize rightSize : Nat) (leftHistory rightHistory : List Call) (left right : Buffer),
      Transition.run step (create leftSize) leftHistory = some left →
      Transition.run step (create rightSize) rightHistory = some right →
        contents left = contents right →
      ∀ (behindLeft behindRight : Buffer → Nat → UInt8) (calls : List Call)
        (seenLeft seenRight : List Seen),
        observeAll behindLeft left calls = some seenLeft →
          observeAll behindRight right calls = some seenRight →
        seenLeft.map answer = seenRight.map answer ∧ (∀ seen ∈ seenLeft, Exact seen) ∧
          ∀ seen ∈ seenRight, Exact seen := by
  intro always
  have seen := always 8 8 [.append [115, 101, 99, 114, 101, 116], .retrieveAll,
    .append [97, 98]] [.append [97, 98]] _ _
    rfl rfl (by decide) (fun _ _ => 0) (fun _ _ => 0) [.retrieveAsString 6]
    [⟨some [97, 98, 99, 114, 101, 116], 0, [97, 98]⟩] [⟨some [97, 98, 0, 0, 0, 0], 0,
      [97, 98]⟩] rfl rfl
  exact absurd seen.1 (by decide)

end MuduoChat.StaleBytes
