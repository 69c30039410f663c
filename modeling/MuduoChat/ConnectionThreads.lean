import MuduoChat.ConnectionOutput
import MuduoChat.Interleaving

/-!
One TcpConnection of MyMuduo/TcpConnection.cc between its loop thread and any
number of other threads. Each read and each write of the atomic state_, and each
append to pendingFunctors_, is one operation; what only the loop thread touches
(channel_, outputBuffer_, the poller) is one operation between two of those. The
loop runs one job at a time: an epoll event, a functor of the batch swapped out
of pendingFunctors_, connectEstablished, connectDestroyed, or a user callback's
send() and shutdown(). A callback comes last in its handler, or finds
kDisconnected, where send() and shutdown() do nothing, so the calls it makes are
loop jobs of their own. An event is handled as the poll has reported it, whatever
has become of the channel since. `removed`, `passed` and `shutdownCalled` are
records for the statements; the code does not keep them.
-/

namespace MuduoChat.ConnectionThreads
open ByteBuffer EPollPoller ConnectionOutput Interleaving

def EPOLLERR : Events := 0x008
def EPOLLHUP : Events := 0x010

/-- A task of this connection in pendingFunctors_. -/
inductive Functor where
  | sendInLoop (data : Bytes)
  | shutdownInLoop
  deriving DecidableEq

/-- `reported` is what the last poll found for the channel, until its handleEvent. -/
structure Shared (C : Type) where
  conn : TcpConnection C
  reported : Option Events
  pendingFunctors_ : List Functor
  functors : List Functor
  busy : Bool
  removed : Bool
  passed : Bytes
  shutdownCalled : Bool

inductive Op where
  | loadState
  | setState (state : StateE)
  | queueInLoop (functor : Functor)
  | channel (op : ChannelOp)
  | sendOpen (data : Bytes)
  | drain
  | shutdownInLoop
  | leave
  deriving DecidableEq

abbrev Res : Op → Type
  | .loadState => StateE
  | .drain => Bool
  | _ => Unit

variable {C : Type} [DecidableEq C]

def perform (answer : WriteAnswer) : (op : Op) → Shared C → Option (Res op × Shared C)
  | .loadState, shared => some (shared.conn.state_, shared)
  | .setState state, shared => some ((),
      { shared with conn := { shared.conn with state_ := state } })
  | .queueInLoop functor, shared =>
      some ((), { shared with pendingFunctors_ := shared.pendingFunctors_ ++ [functor] })
  | .channel op, shared => (channelCall op shared.conn).map fun conn =>
      ((), { shared with conn := conn, removed := shared.removed || decide (op = .remove) })
  | .sendOpen data, shared => (sendOpen answer data shared.conn).map fun conn =>
      ((), { shared with conn := conn })
  | .drain, shared => (drain answer shared.conn).map fun result =>
      (result.1, { shared with conn := result.2 })
  | .shutdownInLoop, shared => some ((), { shared with conn := shutdownInLoop shared.conn })
  | .leave, shared => some ((), { shared with busy := false })

/-! The functions of TcpConnection.cc, operation by operation. -/

abbrev Task := Prog Op Res

def loadState : Task StateE := call Op.loadState
def setState (state : StateE) : Task Unit := call (Op.setState state)
def queueInLoop (functor : Functor) : Task Unit := call (Op.queueInLoop functor)
def channel (op : ChannelOp) : Task Unit := call (Op.channel op)

def sendInLoop (data : Bytes) : Task Unit := do
  let state ← loadState
  if state = .kDisconnected then pure () else call (Op.sendOpen data)

/-- `inLoop` is the answer of isInloopThread() for the calling thread. -/
def send (inLoop : Bool) (buf : Bytes) : Task Unit := do
  let state ← loadState
  if state = .kConnected then
    if inLoop then sendInLoop buf else queueInLoop (.sendInLoop buf)
  else pure ()

def shutdown (inLoop : Bool) : Task Unit := do
  let state ← loadState
  if state = .kConnected then do
    setState .kDisconnecting
    if inLoop then call Op.shutdownInLoop else queueInLoop .shutdownInLoop
  else pure ()

def connectEstablished : Task Unit := do
  setState .kConnected
  channel .enableReading

def connectDestroyed : Task Unit := do
  let state ← loadState
  if state = .kConnected then do
    setState .kDisconnected
    channel .disableAll
    channel .remove
  else channel .remove

def handleWrite : Task Unit := do
  let emptied ← call Op.drain
  if emptied then do
    let state ← loadState
    if state = .kDisconnecting then call Op.shutdownInLoop else pure ()
  else pure ()

def handleClose : Task Unit := do
  setState .kDisconnected
  channel .disableAll

/-- `n` is what readFd returned. A message callback or handleError has no effect
on the connection itself. A call that the message callback makes is a job of the
loop before the event: nothing of the event has touched the connection yet. -/
def handleRead (n : Int) : Task Unit := if n = 0 then handleClose else pure ()

def whenever (reported : Bool) (callback : Task Unit) : Task Unit := if reported then callback
    else pure ()

/-- Channel::handleEventWithGuard. -/
def handleEvent (revents : Events) (n : Int) : Task Unit := do
  whenever (revents &&& EPOLLHUP != 0 && revents &&& EPOLLIN == 0) handleClose
  whenever (revents &&& EPOLLIN != 0) (handleRead n)
  whenever (revents &&& EPOLLOUT != 0) handleWrite

/-! What threads start: calls of users, and the jobs of the loop. -/

inductive Job where
  | send (inLoop : Bool) (buf : Bytes)
  | shutdown (inLoop : Bool)
  | connectEstablished
  | connectDestroyed
  | poll (revents : Events)
  | handleEvent (revents : Events) (n : Int)
  | swap
  | functor (functor : Functor)
  deriving DecidableEq

def onLoop : Job → Bool
  | .send inLoop _ => inLoop
  | .shutdown inLoop => inLoop
  | .connectEstablished => true
  | .connectDestroyed => true
  | .poll _ => false
  | .handleEvent _ _ => true
  | .swap => false
  | .functor _ => true

/-- A loop job ends with the loop thread free for the next one. -/
def whole (job : Job) (body : Task Unit) : Task Unit := do
  body
  if onLoop job then call Op.leave else pure ()

def program (job : Job) : Task Unit :=
  whole job <|
    match job with
    | .send inLoop buf => send inLoop buf
    | .shutdown inLoop => shutdown inLoop
    | .connectEstablished => connectEstablished
    | .connectDestroyed => connectDestroyed
    | .poll _ => pure ()
    | .handleEvent revents n => handleEvent revents n
    | .swap => pure ()
    | .functor (.sendInLoop data) => sendInLoop data
    | .functor .shutdownInLoop => call Op.shutdownInLoop

/-- epoll_wait reports the events asked for, and EPOLLHUP and EPOLLERR always. -/
def Reported (conn : TcpConnection C) (revents : Events) : Prop :=
  ∃ events, conn.poller.interest (conn.poller.channel conn.channel_).fd =
    some ⟨events, conn.channel_⟩ ∧
    revents &&& ~~~(events ||| EPOLLHUP ||| EPOLLERR) = 0

instance (conn : TcpConnection C) (revents : Events) : Decidable (Reported conn revents) :=
  match held : conn.poller.interest (conn.poller.channel conn.channel_).fd with
  | none => isFalse fun ⟨_, found, _⟩ => by simp [held] at found
  | some event =>
      if same : event.ptr = conn.channel_ ∧
        revents &&& ~~~(event.events ||| EPOLLHUP ||| EPOLLERR) = 0 then
        isTrue ⟨event.events, by rw [held, ← same.1], same.2⟩
      else isFalse fun ⟨events, found, masked⟩ => same (by
        rw [held, Option.some.injEq] at found
        subst found
        exact ⟨rfl, masked⟩)

/-- How a job starts, where it can. The loop polls between two batches, and swaps
the queue when the events of the poll have been handled. -/
def enter : Job → Shared C → Option (Shared C)
  | .send _ buf, shared => some { shared with passed := shared.passed ++ buf }
  | .shutdown _, shared => some { shared with shutdownCalled := true }
  | .connectEstablished, shared => if shared.conn.state_ = .kConnecting then some shared else none
  | .connectDestroyed, shared => if shared.conn.state_ = .kConnecting then none else some shared
  | .poll revents, shared =>
      if Reported shared.conn revents ∧ shared.functors = [] ∧ shared.reported = none ∧
        shared.busy = false then
        some { shared with reported := some revents }
      else none
  | .handleEvent revents _, shared =>
      if shared.reported = some revents then some { shared with reported := none } else none
  | .swap, shared =>
      if shared.functors = [] ∧ shared.reported = none ∧ shared.busy = false then
        some { shared with functors := shared.pendingFunctors_, pendingFunctors_ := [] }
      else none
  | .functor functor, shared =>
      match shared.functors with
      | [] => none
      | next :: rest => if next = functor then some { shared with functors := rest } else none

def launch (job : Job) (shared : Shared C) : Option (Shared C) :=
  if onLoop job then
    if shared.busy then none
    else (enter job shared).map fun entered => { entered with busy := true }
  else enter job shared

/-- No job touches the connection when it starts, and none brings a task of its own. -/
theorem enter_frame (job : Job) (shared after : Shared C)
    (entered : enter job shared = some after) :
    after.conn = shared.conn ∧ after.removed = shared.removed ∧ after.busy = shared.busy ∧
      ∀ functor ∈ after.functors ++ after.pendingFunctors_,
        functor ∈ shared.functors ++ shared.pendingFunctors_ := by
  have kept : ∀ functor ∈ shared.functors ++ shared.pendingFunctors_,
      functor ∈ shared.functors ++ shared.pendingFunctors_ := fun _ member => member
  cases job with
  | send _ buf =>
      cases entered
      exact ⟨rfl, rfl, rfl, kept⟩
  | shutdown _ =>
      cases entered
      exact ⟨rfl, rfl, rfl, kept⟩
  | swap =>
      simp only [enter] at entered
      split at entered
      · cases entered
        exact ⟨rfl, rfl, rfl, by simp +contextual⟩
      · cases entered
  | functor task =>
      simp only [enter] at entered
      cases waiting : shared.functors with
      | nil => simp [waiting] at entered
      | cons next rest =>
          simp only [waiting] at entered
          split at entered
          · cases entered
            exact ⟨rfl, rfl, rfl, fun functor member => List.mem_cons_of_mem _ member⟩
          · cases entered
  | _ =>
      simp only [enter] at entered
      split at entered <;> cases entered
      exact ⟨rfl, rfl, rfl, kept⟩

/-- A job starts with its own effect and, on the loop, takes the idle loop thread. -/
theorem launch_entered (job : Job) (shared after : Shared C)
    (launched : launch job shared = some after) :
    ∃ entered, enter job shared = some entered ∧
      after = { entered with busy := if onLoop job then true else entered.busy } ∧
      (onLoop job = true → shared.busy = false) := by
  unfold launch at launched
  cases looping : onLoop job with
  | false => exact ⟨after, by simpa [looping] using launched, rfl, by simp⟩
  | true =>
      cases idle : shared.busy with
      | true => simp [looping, idle] at launched
      | false =>
          simp only [looping, idle, if_true, Bool.false_eq_true, if_false,
            Option.map_eq_some_iff] at launched
          obtain ⟨entered, ran, rfl⟩ := launched
          exact ⟨entered, ran, rfl, fun _ => rfl⟩

def threads : System (Shared C) Job Op Res WriteAnswer where
  program := program
  launch := launch
  perform := perform

abbrev Threads (C : Type) := Pool (Shared C) Job Op Res

end MuduoChat.ConnectionThreads
