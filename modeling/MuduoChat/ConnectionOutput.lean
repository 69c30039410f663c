import MuduoChat.ByteBuffer
import MuduoChat.EPollPoller

/-!
MyMuduo/TcpConnection.cc, the sending side as it runs on the connection's loop.
A call of `::write` is answered by the kernel with the return value and the
errno the code then reads; the bytes taken go to `accepted`. User callbacks are
recorded as queued functors. A function that would reach LOG_FATAL has no
result. sendInLoop and handleWrite are cut where they read the atomic state_, so
that the threads of ConnectionThreads run the same pieces.
-/

namespace MuduoChat.ConnectionOutput
open ByteBuffer EPollPoller

inductive StateE where
  | kDisconnected
  | kConnecting
  | kConnected
  | kDisconnecting
  deriving DecidableEq

inductive Errno where
  | EWOULDBLOCK
  | EPIPE
  | ECONNRESET
  | other
  deriving DecidableEq

structure WriteAnswer where
  ret : Int
  errno : Errno
  deriving DecidableEq

/-- A user callback put into the loop's queue. -/
inductive Callback where
  | writeComplete
  | highWaterMark (len : Nat)
  deriving DecidableEq

structure TcpConnection (C : Type) where
  state_ : StateE
  channel_ : C
  poller : Poller C
  outputBuffer_ : Buffer
  highWaterMark_ : Nat
  writeCompleteCallback_ : Bool
  highWaterMarkCallback_ : Bool
  queued : List Callback
  accepted : Bytes
  halfClosed : Bool

variable {C : Type} [DecidableEq C]

def isWriting (conn : TcpConnection C) : Bool :=
    EPollPoller.isWriting (conn.poller.channel conn.channel_)

def channelCall (op : ChannelOp) (conn : TcpConnection C) : Option (TcpConnection C) :=
  (EPollPoller.step conn.poller (.call conn.channel_ op)).map fun poller =>
    { conn with poller := poller }

def queueInLoop (callback : Callback) (conn : TcpConnection C) : TcpConnection C :=
  { conn with queued := conn.queued ++ [callback] }

/-- `::write(fd, data, len)`. -/
def write (conn : TcpConnection C) (data : Bytes) (answer : WriteAnswer) : TcpConnection C :=
  { conn with accepted := conn.accepted ++ data.take answer.ret.toNat }

def shutdownInLoop (conn : TcpConnection C) : TcpConnection C :=
  if isWriting conn then conn else { conn with halfClosed := true }

/-- Both places that report that everything has been written. -/
def tellWriteComplete (conn : TcpConnection C) : TcpConnection C :=
  if conn.writeCompleteCallback_ then queueInLoop .writeComplete conn else conn

/-- The direct write of sendInLoop: nwrote, faultError and the connection. -/
def writeDirectly (answer : WriteAnswer) (data : Bytes) (conn : TcpConnection C) :
    Nat × Bool × TcpConnection C :=
  if !isWriting conn && readableBytes conn.outputBuffer_ == 0 then
    let written := write conn data answer
    if 0 < answer.ret then
      let nwrote := answer.ret.toNat
      (nwrote, false, if data.length - nwrote = 0 then tellWriteComplete written else written)
    else (0, answer.errno == .EPIPE || answer.errno == .ECONNRESET, written)
  else (0, false, conn)

def warnHighWater (remaining : Nat) (conn : TcpConnection C) : TcpConnection C :=
  let oldLen := readableBytes conn.outputBuffer_
  if oldLen + remaining ≥ conn.highWaterMark_ ∧ oldLen < conn.highWaterMark_ ∧
      conn.highWaterMarkCallback_ = true then
    queueInLoop (.highWaterMark (oldLen + remaining)) conn
  else conn

/-- The rest of sendInLoop: what the kernel did not take goes to outputBuffer_. -/
def keepRest (rest : Bytes) (conn : TcpConnection C) : Option (TcpConnection C) :=
  let warned := warnHighWater rest.length conn
  let stored := { warned with outputBuffer_ := append warned.outputBuffer_ rest }
  if isWriting stored then some stored else channelCall .enableWriting stored

/-- sendInLoop after its test of state_. -/
def sendOpen (answer : WriteAnswer) (data : Bytes) (conn : TcpConnection C) :
    Option (TcpConnection C) :=
  let direct := writeDirectly answer data conn
  if direct.2.1 = false ∧ 0 < data.length - direct.1 then keepRest (data.drop direct.1) direct.2.2
  else some direct.2.2

def sendInLoop (answer : WriteAnswer) (data : Bytes) (conn : TcpConnection C) :
    Option (TcpConnection C) :=
  if conn.state_ = .kDisconnected then some conn else sendOpen answer data conn

/-- handleWrite up to its test of state_; the flag says that it gets there. -/
def drain (answer : WriteAnswer) (conn : TcpConnection C) : Option (Bool × TcpConnection C) :=
  if isWriting conn then
    let written := write conn (peek conn.outputBuffer_ (readableBytes conn.outputBuffer_)) answer
    if 0 < answer.ret then
      let retrieved :=
        { written with outputBuffer_ := retrieve written.outputBuffer_ answer.ret.toNat }
      if readableBytes retrieved.outputBuffer_ = 0 then
        (channelCall .disableWriting retrieved).map fun quiet => (true, tellWriteComplete quiet)
      else some (false, retrieved)
    else some (false, written)
  else some (false, conn)

def handleWrite (answer : WriteAnswer) (conn : TcpConnection C) : Option (TcpConnection C) :=
  (drain answer conn).map fun result =>
    if result.1 = true ∧ result.2.state_ = .kDisconnecting then shutdownInLoop result.2
    else result.2

/-- A write that does not fail: the kernel takes a non-zero part, or answers
EWOULDBLOCK, or was offered nothing (then errno is whatever it was before). -/
def Healthy (offered : Nat) (answer : WriteAnswer) : Prop :=
  (0 < answer.ret ∧ answer.ret ≤ offered) ∨ (answer.ret = -1 ∧ answer.errno = .EWOULDBLOCK) ∨
    (offered = 0 ∧ answer.ret = 0)

instance (offered : Nat) (answer : WriteAnswer) : Decidable (Healthy offered answer) :=
  inferInstanceAs (Decidable (_ ∨ _ ∨ _))

/-- A write that the kernel does not answer with a reset of the connection. What errno is
after a write of nothing does not matter. -/
def NoFault (offered : Nat) (answer : WriteAnswer) : Prop :=
  answer.ret ≤ offered ∧ (0 < offered → answer.ret ≤ 0 → answer.errno ≠ .EPIPE ∧
    answer.errno ≠ .ECONNRESET)

instance (offered : Nat) (answer : WriteAnswer) : Decidable (NoFault offered answer) :=
  inferInstanceAs (Decidable (_ ∧ _))

theorem healthy_noFault (offered : Nat) (answer : WriteAnswer) (healthy : Healthy offered answer) :
    NoFault offered answer := by
  obtain ⟨positive, within⟩ | ⟨refused, again⟩ | ⟨nothing, zero⟩ := healthy
  · exact ⟨within, fun _ none_ => absurd positive (by omega)⟩
  · exact ⟨by omega, fun _ _ => by simp [again]⟩
  · exact ⟨by omega, fun some_ => absurd some_ (by omega)⟩

/-! The connection's channel on its loop. -/

/-- The channel is known to a consistent poller and its fd is its own. -/
structure OnLoop (conn : TcpConnection C) : Prop where
  registered : Registered conn.poller
  opened : conn.poller.opened (conn.poller.channel conn.channel_).fd = true
  alone : ∀ other, conn.poller.inUse other = true → other ≠ conn.channel_ →
    (conn.poller.channel other).fd ≠ (conn.poller.channel conn.channel_).fd

theorem channel_call_spec (op : ChannelOp) (conn : TcpConnection C) (onLoop : OnLoop conn) :
    ∃ poller, channelCall op conn = some { conn with poller := poller } ∧
      OnLoop { conn with poller := poller } ∧
      poller.channel conn.channel_ = settled (conn.poller.channel conn.channel_) op := by
  obtain ⟨registered, opened, alone⟩ := onLoop
  have stepped := call_spec conn.poller conn.channel_ registered alone opened op
  refine ⟨place conn.poller conn.channel_ (settled (conn.poller.channel conn.channel_) op)
    (issued (conn.poller.channel conn.channel_) op), by rw [channelCall, stepped]; rfl, ?_,
    by simp [place]⟩
  refine ⟨place_registered _ _ _ _ registered (settled_fd _ op) alone (issued_accepted _ op), ?_,
    ?_⟩
  · simpa [place] using opened
  · intro other used different
    simp only [place, Function.update_of_ne different, Function.update_self, settled_fd] at used ⊢
    exact alone other used different

theorem channel_call_onLoop (op : ChannelOp) (conn next : TcpConnection C) (onLoop : OnLoop conn)
    (called : channelCall op conn = some next) :
    OnLoop next ∧ next.state_ = conn.state_ ∧ next.channel_ = conn.channel_ ∧
      next.poller.channel next.channel_ = settled (conn.poller.channel conn.channel_) op := by
  obtain ⟨poller, result, placed, channel⟩ := channel_call_spec op conn onLoop
  rw [result, Option.some.injEq] at called
  subst called
  exact ⟨placed, rfl, rfl, channel⟩

/-! Whatever the kernel answers, the sending side keeps the connection on its loop. -/

/-- Nothing has changed that the poller knows of. -/
def SamePoller (before after : TcpConnection C) : Prop :=
  after.state_ = before.state_ ∧ after.channel_ = before.channel_ ∧ after.poller = before.poller

omit [DecidableEq C] in
theorem samePoller_onLoop (before after : TcpConnection C) (same : SamePoller before after)
    (onLoop : OnLoop before) : OnLoop after := by
  obtain ⟨registered, opened, alone⟩ := onLoop
  obtain ⟨_, channel, poller⟩ := same
  exact ⟨by rw [poller]; exact registered, by rw [poller, channel]; exact opened,
    by rw [poller, channel]; exact alone⟩

omit [DecidableEq C] in
theorem tell_samePoller (conn : TcpConnection C) : SamePoller conn (tellWriteComplete conn) := by
  unfold tellWriteComplete
  split <;> exact ⟨rfl, rfl, rfl⟩

omit [DecidableEq C] in
theorem direct_samePoller (answer : WriteAnswer) (data : Bytes) (conn : TcpConnection C) :
    SamePoller conn (writeDirectly answer data conn).2.2 := by
  unfold writeDirectly
  simp only
  split
  · split
    · split
      · exact tell_samePoller (write conn data answer)
      · exact ⟨rfl, rfl, rfl⟩
    · exact ⟨rfl, rfl, rfl⟩
  · exact ⟨rfl, rfl, rfl⟩

/-- A call that ends in one channel operation, or in none. -/
theorem onLoop_of_call (op : ChannelOp) (conn stored next : TcpConnection C) (onLoop : OnLoop conn)
    (same : SamePoller conn stored) (finished : stored = next ∨ channelCall op stored = some next) :
    OnLoop next ∧ next.state_ = conn.state_ ∧ next.channel_ = conn.channel_ := by
  have placed := samePoller_onLoop conn stored same onLoop
  rcases finished with rfl | called
  · exact ⟨placed, same.1, same.2.1⟩
  · obtain ⟨kept, state, channel, _⟩ := channel_call_onLoop op stored next placed called
    exact ⟨kept, state.trans same.1, channel.trans same.2.1⟩

theorem send_open_onLoop (answer : WriteAnswer) (data : Bytes) (conn next : TcpConnection C)
    (onLoop : OnLoop conn) (sent : sendOpen answer data conn = some next) :
    OnLoop next ∧ next.state_ = conn.state_ ∧ next.channel_ = conn.channel_ := by
  have direct := direct_samePoller answer data conn
  unfold sendOpen at sent
  generalize writeDirectly answer data conn = result at direct sent
  by_cases left : result.2.1 = false ∧ 0 < data.length - result.1
  · simp only [left, and_self, if_true, keepRest] at sent
    have warned : SamePoller result.2.2
        (warnHighWater (data.drop result.1).length result.2.2) := by
      unfold warnHighWater
      simp only
      split <;> exact ⟨rfl, rfl, rfl⟩
    have stored := And.intro (warned.1.trans direct.1)
      (And.intro (warned.2.1.trans direct.2.1) (warned.2.2.trans direct.2.2))
    split at sent
    · refine onLoop_of_call .enableWriting conn _ next onLoop ?_ (Or.inl (Option.some.inj sent))
      exact stored
    · refine onLoop_of_call .enableWriting conn _ next onLoop ?_ (Or.inr sent)
      exact stored
  · simp only [left, if_false, Option.some.injEq] at sent
    exact onLoop_of_call .enableWriting conn _ next onLoop direct (Or.inl sent)

theorem drain_onLoop (answer : WriteAnswer) (conn : TcpConnection C)
    (result : Bool × TcpConnection C)
    (onLoop : OnLoop conn) (drained : drain answer conn = some result) :
    OnLoop result.2 ∧ result.2.state_ = conn.state_ ∧ result.2.channel_ = conn.channel_ := by
  unfold drain at drained
  by_cases writing : isWriting conn = true
  · simp only [writing, if_true] at drained
    by_cases wrote : 0 < answer.ret
    · simp only [wrote, if_true] at drained
      split at drained
      · simp only [Option.map_eq_some_iff] at drained
        obtain ⟨quiet, called, rfl⟩ := drained
        have same : SamePoller conn
            { write conn (peek conn.outputBuffer_ (readableBytes conn.outputBuffer_)) answer
            with outputBuffer_ := retrieve conn.outputBuffer_ answer.ret.toNat } := ⟨rfl, rfl, rfl⟩
        obtain ⟨kept, state, channel⟩ := onLoop_of_call .disableWriting conn _ quiet onLoop same
          (Or.inr called)
        have told := tell_samePoller quiet
        exact ⟨samePoller_onLoop quiet _ told kept, told.1.trans state, told.2.1.trans channel⟩
      · simp only [Option.some.injEq] at drained
        subst drained
        exact ⟨samePoller_onLoop conn _ ⟨rfl, rfl, rfl⟩ onLoop, rfl, rfl⟩
    · simp only [wrote, if_false, Option.some.injEq] at drained
      subst drained
      exact ⟨samePoller_onLoop conn _ ⟨rfl, rfl, rfl⟩ onLoop, rfl, rfl⟩
  · simp only [writing, Bool.false_eq_true, if_false, Option.some.injEq] at drained
    subst drained
    exact ⟨onLoop, rfl, rfl⟩

/-! The mask of an open connection, and the byte stream through it. -/

/-- The channel asks for EPOLLOUT exactly while bytes wait in outputBuffer_. -/
def interestOf (waiting : Bytes) : Events :=
  if waiting = [] then kReadEvent else kReadEvent ||| kWriteEvent

/-! The four masks that occur. -/

theorem write_added : kReadEvent ||| kWriteEvent ≠ kNoneEvent := by decide

theorem write_dropped : (kReadEvent ||| kWriteEvent) &&& ~~~kWriteEvent = kReadEvent := by decide

theorem read_kept : kReadEvent ≠ kNoneEvent := by decide

theorem interestOf_writing (waiting : Bytes) :
    (interestOf waiting &&& kWriteEvent != 0) = decide (waiting ≠ []) := by
  cases waiting with
  | nil => decide
  | cons byte rest =>
      have shown : interestOf (byte :: rest) = kReadEvent ||| kWriteEvent := rfl
      have both : ((kReadEvent ||| kWriteEvent) &&& kWriteEvent != 0) = true := by decide
      rw [shown, both]
      simp

/-- A connection on its loop between two calls. `sent` is all the data passed to
sendInLoop so far. -/
structure Streaming (sent : Bytes) (conn : TcpConnection C) : Prop extends OnLoop conn where
  added : (conn.poller.channel conn.channel_).index = .kAdded
  events : (conn.poller.channel conn.channel_).events = interestOf (contents conn.outputBuffer_)
  valid : Valid conn.outputBuffer_
  stream : conn.accepted ++ contents conn.outputBuffer_ = sent

omit [DecidableEq C] in
theorem streaming_writing (sent : Bytes) (conn : TcpConnection C)
    (streaming : Streaming sent conn) :
    isWriting conn = decide (contents conn.outputBuffer_ ≠ []) := by
  rw [isWriting, EPollPoller.isWriting, streaming.events, interestOf_writing]

theorem readable_zero (buffer : Buffer) (valid : Valid buffer) :
    readableBytes buffer = 0 ↔ contents buffer = [] := by
  rw [readable_eq_length buffer valid, List.length_eq_zero_iff]

/-- The fields that the sending side leaves alone. -/
def SameState (before after : TcpConnection C) : Prop :=
  after.state_ = before.state_ ∧ after.halfClosed = before.halfClosed ∧
    after.channel_ = before.channel_

/-! A callback in the queue changes nothing else. -/

omit [DecidableEq C] in
theorem tell_shape (conn : TcpConnection C) :
    ∃ queued, tellWriteComplete conn = { conn with queued := queued } := by
  unfold tellWriteComplete
  split <;> exact ⟨_, rfl⟩

omit [DecidableEq C] in
theorem warn_shape (remaining : Nat) (conn : TcpConnection C) :
    ∃ queued, warnHighWater remaining conn = { conn with queued := queued } := by
  unfold warnHighWater
  simp only
  split <;> exact ⟨_, rfl⟩

omit [DecidableEq C] in
theorem streaming_queued (sent : Bytes) (conn : TcpConnection C) (queued : List Callback)
    (streaming : Streaming sent conn) : Streaming sent { conn with queued := queued } := by
  obtain ⟨⟨registered, opened, alone⟩, added, events, valid, stream⟩ := streaming
  exact ⟨⟨registered, opened, alone⟩, added, events, valid, stream⟩

omit [DecidableEq C] in
/-- The direct write keeps the stream. A fault can only be the stale errno of a
write of nothing. -/
theorem write_directly_spec (answer : WriteAnswer) (data sent : Bytes) (conn : TcpConnection C)
    (streaming : Streaming sent conn) (noFault : NoFault data.length answer) :
    let direct := writeDirectly answer data conn
    (direct.2.1 = false ∨ data = []) ∧ direct.1 ≤ data.length ∧
      Streaming (sent ++ data.take direct.1) direct.2.2 ∧ SameState conn direct.2.2 := by
  obtain ⟨onLoop, added, events, valid, stream⟩ := streaming
  unfold writeDirectly
  by_cases idle : (!isWriting conn && readableBytes conn.outputBuffer_ == 0) = true
  · simp only [idle, if_true]
    have empty : contents conn.outputBuffer_ = [] := by
      simp only [Bool.and_eq_true, beq_iff_eq] at idle
      exact (readable_zero _ valid).mp idle.2
    by_cases wrote : 0 < answer.ret
    · have within : answer.ret.toNat ≤ data.length := by
        have bound := noFault.1
        omega
      have taken : conn.accepted ++ data.take answer.ret.toNat ++ contents conn.outputBuffer_ =
          sent ++ data.take answer.ret.toNat := by
        rw [← stream, empty, List.append_nil, List.append_nil]
      have written : Streaming (sent ++ data.take answer.ret.toNat) (write conn data answer) :=
        ⟨⟨onLoop.1, onLoop.2, onLoop.3⟩, added, events, valid, taken⟩
      obtain ⟨queued, told⟩ := tell_shape (write conn data answer)
      simp only [wrote, if_true, told]
      refine ⟨Or.inl trivial, within, ?_, ?_⟩
      · split
        · exact streaming_queued _ _ queued written
        · exact written
      · split <;> exact ⟨rfl, rfl, rfl⟩
    · have nothing : answer.ret.toNat = 0 := by omega
      simp only [wrote, if_false, write, nothing, List.take_zero, List.append_nil]
      refine ⟨?_, Nat.zero_le _, ⟨onLoop, added, events, valid, stream⟩, ⟨rfl, rfl, rfl⟩⟩
      by_cases noData : data = []
      · exact Or.inr noData
      · obtain ⟨pipe, reset⟩ := noFault.2 (List.length_pos_iff.mpr noData) (by omega)
        exact Or.inl (by simp [pipe, reset])
  · simp only [idle, Bool.false_eq_true, if_false, List.take_zero, List.append_nil]
    exact ⟨Or.inl trivial, Nat.zero_le _, ⟨onLoop, added, events, valid, stream⟩, ⟨rfl, rfl, rfl⟩⟩

theorem keep_rest_spec (rest sent : Bytes) (conn : TcpConnection C)
    (streaming : Streaming sent conn)
    (some_left : rest ≠ []) : ∃ next, keepRest rest conn = some next ∧
      Streaming (sent ++ rest) next ∧ SameState conn next := by
  have writing := streaming_writing sent conn streaming
  obtain ⟨onLoop, added, events, valid, stream⟩ := streaming
  have grown := contents_append conn.outputBuffer_ rest valid
  have filled : contents (append conn.outputBuffer_ rest) ≠ [] := by simp [grown, some_left]
  have whole : conn.accepted ++ contents (append conn.outputBuffer_ rest) = sent ++ rest := by
    rw [grown, ← stream, List.append_assoc]
  have mask : interestOf (contents (append conn.outputBuffer_ rest)) =
      kReadEvent ||| kWriteEvent := if_neg filled
  obtain ⟨queued, warned⟩ := warn_shape rest.length conn
  have sameFlag : isWriting
      { conn with queued := queued, outputBuffer_ := append conn.outputBuffer_ rest } =
      isWriting conn := rfl
  simp only [keepRest, warned, sameFlag]
  by_cases waiting : contents conn.outputBuffer_ = []
  · rw [writing]
    simp only [waiting, ne_eq, not_true_eq_false, decide_false, Bool.false_eq_true, if_false]
    obtain ⟨poller, called, placed, channel⟩ := channel_call_spec .enableWriting
      { conn with queued := queued, outputBuffer_ := append conn.outputBuffer_ rest }
      ⟨onLoop.1, onLoop.2, onLoop.3⟩
    simp only [waiting, interestOf, if_true] at events
    refine ⟨_, called, ⟨placed, ?_, ?_, append_valid _ _ valid, whole⟩, ⟨rfl, rfl, rfl⟩⟩
    · simp only [channel, settled, nextEvents, events, write_added, and_false, if_false]
    · simp only [channel, settled, nextEvents, events, mask]
  · rw [writing]
    simp only [waiting, ne_eq, not_false_eq_true, decide_true, if_true]
    simp only [waiting, interestOf, if_false] at events
    refine ⟨_, rfl, ⟨⟨onLoop.1, onLoop.2, onLoop.3⟩, added, ?_, append_valid _ _ valid, whole⟩,
      ⟨rfl, rfl, rfl⟩⟩
    simp only [mask, events]

theorem send_open_spec (answer : WriteAnswer) (data sent : Bytes) (conn : TcpConnection C)
    (streaming : Streaming sent conn) (noFault : NoFault data.length answer) :
    ∃ next, sendOpen answer data conn = some next ∧ Streaming (sent ++ data) next ∧
      SameState conn next := by
  obtain ⟨fault, within, direct, same⟩ :=
    write_directly_spec answer data sent conn streaming noFault
  unfold sendOpen
  generalize writeDirectly answer data conn = result at fault within direct same ⊢
  by_cases left : result.2.1 = false ∧ 0 < data.length - result.1
  · simp only [left, and_self, if_true]
    have someLeft : data.drop result.1 ≠ [] := by
      intro nothing
      have length := congrArg List.length nothing
      simp only [List.length_drop, List.length_nil] at length
      omega
    obtain ⟨next, kept, stored, sameRest⟩ := keep_rest_spec _ _ _ direct someLeft
    rw [List.append_assoc, List.take_append_drop] at stored
    exact ⟨next, kept, stored, sameRest.1.trans same.1, sameRest.2.1.trans same.2.1,
      sameRest.2.2.trans same.2.2⟩
  · rw [if_neg left]
    have all : data.take result.1 = data := by
      rcases fault with clean | noData
      · apply List.take_of_length_le
        by_contra short
        exact left ⟨clean, by omega⟩
      · simp [noData]
    rw [all] at direct
    exact ⟨_, rfl, direct, same⟩

omit [DecidableEq C] in
theorem direct_nothing (answer : WriteAnswer) (conn : TcpConnection C) :
    (writeDirectly answer [] conn).2.2.accepted = conn.accepted := by
  obtain ⟨queued, shape⟩ := tell_shape (write conn [] answer)
  unfold writeDirectly
  simp only [List.length_nil, Nat.zero_sub, if_true, shape]
  split
  · split <;> simp [write]
  · rfl

theorem send_nothing (answer : WriteAnswer) (conn : TcpConnection C) :
    sendOpen answer [] conn = some (writeDirectly answer [] conn).2.2 := by
  simp [sendOpen]

theorem drain_spec (answer : WriteAnswer) (sent : Bytes) (conn : TcpConnection C)
    (streaming : Streaming sent conn) :
    ∃ emptied next, drain answer conn = some (emptied, next) ∧ Streaming sent next ∧
      SameState conn next ∧
      (emptied = true → contents next.outputBuffer_ = []) := by
  have writing := streaming_writing sent conn streaming
  obtain ⟨onLoop, added, events, valid, stream⟩ := streaming
  unfold drain
  by_cases waiting : contents conn.outputBuffer_ = []
  · rw [writing]
    simp only [waiting, ne_eq, not_true_eq_false, decide_false, Bool.false_eq_true, if_false]
    exact ⟨false, conn, rfl, ⟨onLoop, added, events, valid, stream⟩, ⟨rfl, rfl, rfl⟩, by simp⟩
  · rw [writing]
    simp only [waiting, ne_eq, not_false_eq_true, decide_true, if_true]
    -- the kernel is offered the whole buffer and takes a prefix; the rest stays at the front
    have offered : peek conn.outputBuffer_ (readableBytes conn.outputBuffer_) =
        contents conn.outputBuffer_ := by
      rw [peek_contents _ _ valid (Nat.le_refl _), readable_eq_length _ valid, List.take_length]
    by_cases wrote : 0 < answer.ret
    · simp only [wrote, if_true, write, offered]
      have left := contents_retrieve conn.outputBuffer_ answer.ret.toNat valid
      have leftValid := retrieve_valid conn.outputBuffer_ answer.ret.toNat valid
      have whole : conn.accepted ++ (contents conn.outputBuffer_).take answer.ret.toNat ++
          contents (retrieve conn.outputBuffer_ answer.ret.toNat) = sent := by
        rw [left, List.append_assoc, List.take_append_drop, stream]
      simp only [waiting, interestOf, if_false] at events
      by_cases emptied : readableBytes (retrieve conn.outputBuffer_ answer.ret.toNat) = 0
      · simp only [emptied, if_true]
        have empty := (readable_zero _ leftValid).mp emptied
        obtain ⟨poller, called, placed, channel⟩ := channel_call_spec .disableWriting
          { conn with
            accepted := conn.accepted ++ (contents conn.outputBuffer_).take answer.ret.toNat
            outputBuffer_ := retrieve conn.outputBuffer_ answer.ret.toNat }
          ⟨onLoop.1, onLoop.2, onLoop.3⟩
        obtain ⟨queued, told⟩ := tell_shape { conn with
          accepted := conn.accepted ++ (contents conn.outputBuffer_).take answer.ret.toNat
          outputBuffer_ := retrieve conn.outputBuffer_ answer.ret.toNat
          poller := poller }
        simp only [called, Option.map_some, told]
        refine ⟨true, _, rfl, streaming_queued _ _ queued ⟨placed, ?_, ?_, leftValid, whole⟩,
          ⟨rfl, rfl, rfl⟩, fun _ => empty⟩
        · simp only [channel, settled, nextEvents, events, write_dropped, read_kept, and_false,
            if_false]
        · simp only [channel, settled, nextEvents, events, interestOf, empty, if_true,
            write_dropped]
      · simp only [emptied, if_false, Option.some.injEq, Prod.mk.injEq]
        have filled : contents (retrieve conn.outputBuffer_ answer.ret.toNat) ≠ [] :=
          fun empty => emptied ((readable_zero _ leftValid).mpr empty)
        refine ⟨false, _, ⟨rfl, rfl⟩, ⟨⟨onLoop.1, onLoop.2, onLoop.3⟩, added, ?_, leftValid, whole⟩,
          ⟨rfl, rfl, rfl⟩, by simp⟩
        simp only [events, interestOf, filled, if_false]
    · have nothing : answer.ret.toNat = 0 := by omega
      simp only [wrote, if_false, write, nothing, List.take_zero, List.append_nil]
      exact ⟨false, _, rfl, ⟨onLoop, added, events, valid, stream⟩, ⟨rfl, rfl, rfl⟩, by simp⟩

/-! The connection's life on its loop between connectEstablished and a close.
shutdown() comes in two parts: what the caller does and the queued functor. -/

def shutdown (conn : TcpConnection C) : TcpConnection C :=
  if conn.state_ = .kConnected then { conn with state_ := .kDisconnecting } else conn

inductive LoopCall where
  | sendInLoop (data : Bytes) (answer : WriteAnswer)
  | handleWrite (answer : WriteAnswer)
  | shutdown
  | shutdownInLoop
  deriving DecidableEq

def step (conn : TcpConnection C) : LoopCall → Option (TcpConnection C)
  | .sendInLoop data answer => sendInLoop answer data conn
  | .handleWrite answer => handleWrite answer conn
  | .shutdown => some (shutdown conn)
  | .shutdownInLoop => some (shutdownInLoop conn)

/-- No write of the call fails. -/
def Accepting (conn : TcpConnection C) : LoopCall → Prop
  | .sendInLoop data answer => Healthy data.length answer
  | .handleWrite answer => Healthy (readableBytes conn.outputBuffer_) answer
  | _ => True

instance (conn : TcpConnection C) (call : LoopCall) : Decidable (Accepting conn call) := by
  cases call <;> simp only [Accepting] <;> infer_instance

/-- The data passed to sendInLoop, in call order. -/
def passed : List LoopCall → Bytes
  | [] => []
  | .sendInLoop data _ :: rest => data ++ passed rest
  | _ :: rest => passed rest

/-- connectEstablished has run and nothing has been sent. -/
structure Established (conn : TcpConnection C) : Prop extends OnLoop conn where
  alive : conn.state_ ≠ .kDisconnected
  added : (conn.poller.channel conn.channel_).index = .kAdded
  events : (conn.poller.channel conn.channel_).events = kReadEvent
  buffer : conn.outputBuffer_ = create kInitialSize
  accepted : conn.accepted = []

omit [DecidableEq C] in
theorem established_streaming (conn : TcpConnection C) (established : Established conn) :
    Streaming [] conn := by
  obtain ⟨onLoop, _, added, events, buffer, accepted⟩ := established
  have nothing : contents conn.outputBuffer_ = [] := by rw [buffer, contents_create]
  exact ⟨onLoop, added, by rw [events, nothing]; rfl, by rw [buffer]; exact create_valid _,
    by rw [accepted, nothing]; rfl⟩

omit [DecidableEq C] in
theorem streaming_state (sent : Bytes) (conn : TcpConnection C) (state : StateE) (closed : Bool)
    (streaming : Streaming sent conn) :
    Streaming sent { conn with state_ := state, halfClosed := closed } := by
  obtain ⟨⟨registered, opened, alone⟩, added, events, valid, stream⟩ := streaming
  exact ⟨⟨registered, opened, alone⟩, added, events, valid, stream⟩

omit [DecidableEq C] in
theorem shutdownInLoop_streaming (sent : Bytes) (conn : TcpConnection C)
    (streaming : Streaming sent conn) :
    Streaming sent (shutdownInLoop conn) ∧ (shutdownInLoop conn).state_ = conn.state_ := by
  unfold shutdownInLoop
  split
  · exact ⟨streaming, rfl⟩
  · exact ⟨streaming_state sent conn conn.state_ true streaming, rfl⟩

theorem step_streaming (sent : Bytes) (conn : TcpConnection C) (call : LoopCall)
    (streaming : Streaming sent conn) (alive : conn.state_ ≠ .kDisconnected)
    (noFault : ∀ data answer, call = .sendInLoop data answer → NoFault data.length answer) :
    ∃ next, step conn call = some next ∧ Streaming (sent ++ passed [call]) next ∧
      next.state_ ≠ .kDisconnected := by
  cases call with
  | sendInLoop data answer =>
      obtain ⟨next, stepped, kept, same⟩ := send_open_spec answer data sent conn streaming
        (noFault data answer rfl)
      refine ⟨next, by rw [step, sendInLoop, if_neg alive, stepped], ?_,
        by rw [same.1]; exact alive⟩
      simpa [passed] using kept
  | handleWrite answer =>
      obtain ⟨emptied, next, drained, kept, same, _⟩ := drain_spec answer sent conn streaming
      have still : next.state_ ≠ .kDisconnected := by rw [same.1]; exact alive
      obtain ⟨closed, sameState⟩ := shutdownInLoop_streaming sent next kept
      simp only [step, handleWrite, drained, Option.map_some, passed, List.append_nil]
      refine ⟨_, rfl, ?_, ?_⟩
      · split
        · exact closed
        · exact kept
      · split
        · rw [sameState]; exact still
        · exact still
  | shutdown =>
      simp only [step, shutdown, passed, List.append_nil]
      refine ⟨_, rfl, ?_, ?_⟩
      · split
        · exact streaming_state sent conn .kDisconnecting conn.halfClosed streaming
        · exact streaming
      · split
        · simp
        · exact alive
  | shutdownInLoop =>
      obtain ⟨closed, sameState⟩ := shutdownInLoop_streaming sent conn streaming
      simp only [step, passed, List.append_nil]
      exact ⟨_, rfl, closed, by rw [sameState]; exact alive⟩

theorem passed_cons (call : LoopCall) (rest : List LoopCall) :
    passed (call :: rest) = passed [call] ++ passed rest := by
  cases call <;> simp [passed]

theorem run_streaming (trace : List LoopCall) (sent : Bytes) (conn : TcpConnection C)
    (streaming : Streaming sent conn) (alive : conn.state_ ≠ .kDisconnected)
    (accepting : Transition.Guarded step Accepting conn trace) :
    ∃ after, Transition.run step conn trace = some after ∧
      Streaming (sent ++ passed trace) after := by
  induction trace generalizing conn sent with
  | nil => exact ⟨conn, rfl, by simpa [passed] using streaming⟩
  | cons call rest ih =>
      have noFault : ∀ data answer, call = .sendInLoop data answer → NoFault data.length answer :=
        by
        rintro data answer rfl
        exact healthy_noFault data.length answer accepting.1
      obtain ⟨next, stepped, kept, still⟩ := step_streaming sent conn call streaming alive noFault
      obtain ⟨after, ran, final⟩ := ih _ next kept still
        (Transition.guarded_tail step Accepting conn next call rest accepting stepped)
      refine ⟨after, (Transition.run_cons step conn after call rest).mpr ⟨next, stepped, ran⟩, ?_⟩
      rw [passed_cons, ← List.append_assoc]
      exact final

/-- Over every run of sends, writability events and shutdowns whose writes do not
fail: no call fails, the bytes the kernel took followed by those still buffered are
the data sent in call order, and the kernel watches the fd for EPOLLOUT, as the
channel does, iff bytes are buffered. -/
theorem outgoing_stream (conn : TcpConnection C) (trace : List LoopCall)
    (established : Established conn)
    (accepting : Transition.Guarded step Accepting conn trace) :
    ∃ after, Transition.run step conn trace = some after ∧
      after.accepted ++ contents after.outputBuffer_ = passed trace ∧
      (isWriting after = true ↔ contents after.outputBuffer_ ≠ []) ∧
      ∃ events, after.poller.interest (after.poller.channel after.channel_).fd =
        some ⟨events, after.channel_⟩ ∧
        (events &&& kWriteEvent ≠ 0 ↔ contents after.outputBuffer_ ≠ []) := by
  obtain ⟨after, ran, final⟩ := run_streaming trace [] conn (established_streaming conn established)
    established.alive accepting
  have writing := streaming_writing _ after final
  obtain ⟨onLoop, added, events, _, stream⟩ := final
  have watched := interest_of_index after.poller after.channel_ onLoop.registered onLoop.alone
  rw [if_pos added, events] at watched
  have asked := interestOf_writing (contents after.outputBuffer_)
  refine ⟨after, ran, stream, by rw [writing, decide_eq_true_iff], _, watched, ?_⟩
  rw [← bne_iff_ne, asked, decide_eq_true_iff]

/-- One connection of the loop, on fd 7. -/
def established : TcpConnection Unit where
  state_ := .kConnected
  channel_ := ()
  poller :=
    { channel := fun _ => ⟨7, kReadEvent, .kAdded⟩
      channels_ := Function.update (fun _ => none) 7 (some ())
      interest := Function.update (fun _ => none) 7 (some ⟨kReadEvent, ()⟩)
      opened := fun fd => fd == 7
      inUse := fun _ => true
      calls := [⟨.add, 7, true⟩] }
  outputBuffer_ := create kInitialSize
  highWaterMark_ := 64 * 1024 * 1024
  writeCompleteCallback_ := false
  highWaterMarkCallback_ := false
  queued := []
  accepted := []
  halfClosed := false

theorem established_holds : Established established := by
  refine ⟨⟨⟨?_, ?_, ?_, ?_⟩, rfl, ?_⟩, by decide, rfl, rfl, rfl, rfl⟩
  · intro fd event
    by_cases here : fd = 7
    · subst here
      simp only [established, Function.update_self, Option.some.injEq, true_and]
      exact ⟨fun same => ⟨(), same.symm⟩, fun ⟨_, same⟩ => same.symm⟩
    · simp [established, eq_comm, here]
  · intro fd c
    by_cases here : fd = 7
    · subst here; simp [established]
    · simp [established, eq_comm, here]
  · intro c; simp [established]
  · intro call member; simp_all [established]
  · intro other used different; exact absurd rfl different

/-- A write cut by the kernel, a send behind it, a refused write, and the rest. -/
theorem outgoing_stream_partial :
    ∃ after, Transition.run step established
        [.sendInLoop [1, 2, 3] ⟨1, .other⟩, .sendInLoop [4] ⟨-1, .EWOULDBLOCK⟩,
          .handleWrite ⟨-1, .EWOULDBLOCK⟩,
          .handleWrite ⟨2, .other⟩] = some after ∧
      after.accepted ++ contents after.outputBuffer_ = [1, 2, 3, 4] := by
  obtain ⟨after, ran, stream, _⟩ := outgoing_stream established
    [.sendInLoop [1, 2, 3] ⟨1, .other⟩, .sendInLoop [4] ⟨-1, .EWOULDBLOCK⟩,
      .handleWrite ⟨-1, .EWOULDBLOCK⟩,
      .handleWrite ⟨2, .other⟩] established_holds (by decide +kernel)
  exact ⟨after, ran, stream⟩

end MuduoChat.ConnectionOutput
