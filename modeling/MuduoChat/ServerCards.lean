import MuduoChat.TcpServer

/-!
What is seen of a connection in the table and in the queues is its card. User code
in a callback and writes move no card. What else the server relies on (the state
of each connection at each point of its life, the names in the table, the
pointers that user code has been given) is its base, which holds also in the
middle of a handler.
-/

namespace MuduoChat.TcpServer
open EPollPoller (kReadEvent kWriteEvent kNoneEvent EPOLLIN EPOLLOUT Events settled isWriting)
open ConnectionThreads (EPOLLHUP)
open ConnectionLife

/-- User code has been passed the connection. -/
def opened (life : Life) : Prop := life ≠ .absent ∧ life ≠ .created

def upThenMessages (count : Nat) : List Report := .connection true :: List.replicate count .message

/-- What the connection is at each point of its life. -/
def Fits (conn : TcpConnection) : Prop :=
  match conn.life with
  | .absent => conn.channel_.index = .kNew ∧ conn.reports = [] ∧ conn.loop_ = 0
  | .created => conn.state_ = .kConnecting ∧ conn.channel_.index = .kNew ∧
      conn.channel_.events = kNoneEvent ∧
      conn.reports = []
  | .established => (conn.state_ = .kConnected ∨ conn.state_ = .kDisconnecting) ∧
      conn.channel_.index = .kAdded ∧
      (conn.channel_.events = kReadEvent ∨ conn.channel_.events = kReadEvent ||| kWriteEvent) ∧
      ∃ count, conn.reports = upThenMessages count
  | .closed => conn.state_ = .kDisconnected ∧ conn.channel_.index = .kDeleted ∧
      conn.channel_.events = kNoneEvent ∧
      ∃ count, conn.reports = upThenMessages count ++ [.connection false]
  | .destroyed => conn.state_ = .kDisconnected ∧ conn.channel_.index = .kNew ∧
      conn.channel_.events = kNoneEvent ∧
      ∃ count, conn.reports = upThenMessages count ++ [.connection false]

section Connections
variable (conn : TcpConnection)

theorem established_fits (created : conn.life = .created) (fits : Fits conn) :
    Fits (established conn) := by
  simp only [Fits, created] at fits
  obtain ⟨_, index, events, reports⟩ := fits
  refine ⟨Or.inl rfl, ?_, Or.inl ?_, 0, ?_⟩
  · simp [established, lived, connectionCallback, channel, setState, settled, index]
  · simp [established, lived, connectionCallback, channel, setState, settled,
      EPollPoller.nextEvents, events, kNoneEvent]
  · simp [established, lived, connectionCallback, channel, setState, reports, upThenMessages]

theorem disconnected_fits (established : conn.life = .established) (fits : Fits conn) :
    Fits (disconnected conn) := by
  simp only [Fits, established] at fits
  obtain ⟨_, index, _, count, reports⟩ := fits
  refine ⟨rfl, ?_, ?_, count, ?_⟩
  · simp [lived, disconnected, connectionCallback, channel, setState, settled,
      EPollPoller.nextEvents, index]
  · simp [lived, disconnected, connectionCallback, channel, setState, settled,
      EPollPoller.nextEvents]
  · simp [lived, disconnected, connectionCallback, channel, setState, reports]

/-- connectDestroyed of a connection that is already closed only takes the channel out. -/
theorem removed_fits (closed : conn.life = .closed) (fits : Fits conn) : Fits (removed conn) := by
  simp only [Fits, closed] at fits
  obtain ⟨state, _, events, count, reports⟩ := fits
  exact ⟨state, rfl, by simp [removed, lived, channel, settled, events], count, reports⟩

theorem message_fits (established : conn.life = .established) (fits : Fits conn) :
    Fits (messageCallback conn) := by
  simp only [Fits, established, messageCallback] at fits ⊢
  obtain ⟨state, index, events, count, reports⟩ := fits
  refine ⟨state, index, events, count + 1, ?_⟩
  rw [reports, upThenMessages, upThenMessages, List.replicate_succ', List.cons_append]

/-- A connection that is not disconnected is watched for reading, so asking for more keeps it
added. -/
theorem enableWriting_fits (rest : Bool) (open_ : opened conn.life)
    (connected : conn.state_ ≠ .kDisconnected)
    (fits : Fits conn) : Fits (enableWriting rest conn) := by
  unfold enableWriting
  split
  · cases life : conn.life with
    | absent => exact absurd life open_.1
    | created => exact absurd life open_.2
    | established =>
        simp only [Fits, life, channel] at fits ⊢
        obtain ⟨state, index, events, reports⟩ := fits
        have written : settled conn.channel_ .enableWriting =
            { conn.channel_ with events := kReadEvent ||| kWriteEvent, index := .kAdded } := by
          rcases events with events | events <;>
            simp [settled, EPollPoller.nextEvents, events, index] <;> decide
        rw [written]
        exact ⟨state, rfl, Or.inr rfl, reports⟩
    | closed =>
        simp only [Fits, life] at fits
        exact absurd fits.1 connected
    | destroyed =>
        simp only [Fits, life] at fits
        exact absurd fits.1 connected
  · exact fits

theorem disableWriting_fits (writing : isWriting conn.channel_ = true) (fits : Fits conn)
    (open_ : opened conn.life) :
    Fits (channel .disableWriting conn) := by
  cases life : conn.life with
  | absent => exact absurd life open_.1
  | created => exact absurd life open_.2
  | established =>
      simp only [Fits, life, channel] at fits ⊢
      obtain ⟨state, index, events, reports⟩ := fits
      have quiet : settled conn.channel_ .disableWriting =
          { conn.channel_ with events := kReadEvent, index := .kAdded } := by
        rcases events with events | events <;>
          simp [settled, EPollPoller.nextEvents, events, index] <;> decide
      rw [quiet]
      exact ⟨state, rfl, Or.inl rfl, reports⟩
  | closed =>
      simp only [Fits, life] at fits
      simp [isWriting, fits.2.2.1, kNoneEvent] at writing
  | destroyed =>
      simp only [Fits, life] at fits
      simp [isWriting, fits.2.2.1, kNoneEvent] at writing

theorem shutdownWrite_fits (fits : Fits conn) : Fits (shutdownWrite conn) := by
  unfold shutdownWrite
  split <;> exact fits

/-- shutdown() of a connected connection. -/
theorem disconnecting_fits (connected : conn.state_ = .kConnected) (open_ : opened conn.life)
    (fits : Fits conn) :
    Fits (setState .kDisconnecting conn) := by
  cases life : conn.life with
  | absent => exact absurd life open_.1
  | created => exact absurd life open_.2
  | established =>
      simp only [Fits, life, setState] at fits ⊢
      exact ⟨Or.inr trivial, fits.2⟩
  | closed =>
      simp only [Fits, life] at fits
      simp [connected] at fits
  | destroyed =>
      simp only [Fits, life] at fits
      simp [connected] at fits

end Connections

/-! What user code and writes may do: nothing that shows on a card. -/

structure Steady (before after : Server) : Prop where
  same : after = { before with conns := after.conns, loops := after.loops, users := after.users }
  conns : ∀ id, (after.conns id).loop_ = (before.conns id).loop_ ∧
    (after.conns id).life = (before.conns id).life ∧
    (after.conns id).removed = (before.conns id).removed ∧
    (after.conns id).taken = (before.conns id).taken
  fits : ∀ id, Fits (before.conns id) → Fits (after.conns id)
  loops : ∀ loop, ∃ more, after.loops loop =
      { before.loops loop with pendingFunctors_ := (before.loops loop).pendingFunctors_ ++ more } ∧
    ∀ task ∈ more, ∃ id, task = .callback id ∧ (before.conns id).loop_ = loop ∧
      opened (before.conns id).life
  users : ∃ more, after.users = before.users ++ more ∧
    ∀ user ∈ more, opened (before.conns user.id).life

/-- What user code relies on: every pointer it has been given is to an opened connection. -/
structure Ready (server : Server) : Prop where
  fits : ∀ id, Fits (server.conns id)
  held : ∀ user ∈ server.users, opened (server.conns user.id).life

section Callbacks
variable (server : Server)

theorem steady_refl : Steady server server := by
  constructor
  · rfl
  · exact fun id => ⟨rfl, rfl, rfl, rfl⟩
  · exact fun id fits => fits
  · exact fun loop => ⟨[], by simp, by simp⟩
  · exact ⟨[], by simp, by simp⟩

theorem steady_trans (before middle after : Server) (first : Steady before middle)
    (second : Steady middle after) :
    Steady before after := by
  have life : ∀ id, (middle.conns id).loop_ = (before.conns id).loop_ ∧
      (middle.conns id).life = (before.conns id).life :=
    fun id => ⟨(first.conns id).1, (first.conns id).2.1⟩
  constructor
  · rw [second.same, first.same]
  · intro id
    obtain ⟨loop, alive, removed, taken⟩ := first.conns id
    obtain ⟨loop', alive', removed', taken'⟩ := second.conns id
    exact ⟨loop'.trans loop, alive'.trans alive, removed'.trans removed, taken'.trans taken⟩
  · exact fun id fits => second.fits id (first.fits id fits)
  · intro loop
    obtain ⟨more, queued, callbacks⟩ := first.loops loop
    obtain ⟨more', queued', callbacks'⟩ := second.loops loop
    refine ⟨more ++ more', by rw [queued', queued]; simp, fun task member => ?_⟩
    rcases List.mem_append.mp member with early | late
    · exact callbacks task early
    · obtain ⟨id, named, here, open_⟩ := callbacks' task late
      exact ⟨id, named, by rw [← here, (life id).1], by rw [← (life id).2]; exact open_⟩
  · obtain ⟨more, users, open_⟩ := first.users
    obtain ⟨more', users', open'⟩ := second.users
    refine ⟨more ++ more', by rw [users', users, List.append_assoc], fun user member => ?_⟩
    rcases List.mem_append.mp member with early | late
    · exact open_ user early
    · rw [← (life user.id).2]
      exact open' user late

theorem steady_ready (after : Server) (steady : Steady server after) (ready : Ready server) :
    Ready after := by
  constructor
  · exact fun id => steady.fits id (ready.fits id)
  · obtain ⟨more, users, open_⟩ := steady.users
    intro user member
    rw [users] at member
    rw [(steady.conns user.id).2.1]
    rcases List.mem_append.mp member with old | new
    · exact ready.held user old
    · exact open_ user new

theorem steady_opened (after : Server) (steady : Steady server after) (id : Nat)
    (open_ : opened (server.conns id).life) : opened (after.conns id).life := by
  rw [(steady.conns id).2.1]
  exact open_

/-- A change of one connection that its card does not show. -/
theorem setConn_steady (id : Nat) (change : TcpConnection → TcpConnection)
    (quiet : (change (server.conns id)).loop_ = (server.conns id).loop_ ∧
      (change (server.conns id)).life = (server.conns id).life ∧
      (change (server.conns id)).removed = (server.conns id).removed ∧
      (change (server.conns id)).taken = (server.conns id).taken)
    (fits : Fits (server.conns id) → Fits (change (server.conns id))) :
    Steady server (setConn server id change) := by
  constructor
  · rfl
  · intro other
    by_cases same : other = id
    · subst same
      simpa [setConn] using quiet
    · simp [setConn, Function.update_of_ne same]
  · intro other
    by_cases same : other = id
    · subst same
      simpa [setConn] using fits
    · simp [setConn, Function.update_of_ne same]
  · exact fun loop => ⟨[], by simp [setConn], by simp⟩
  · exact ⟨[], by simp [setConn], by simp⟩

theorem tell_steady (loop id : Nat) (told : Bool) (here : (server.conns id).loop_ = loop)
    (open_ : opened (server.conns id).life) : Steady server (tell server loop id told) := by
  cases told with
  | false => exact steady_refl server
  | true =>
      constructor
      · rfl
      · exact fun other => ⟨rfl, rfl, rfl, rfl⟩
      · exact fun other fits => fits
      · intro other
        by_cases same : other = loop
        · subst same
          exact ⟨[.callback id], by simp [tell, queueInLoop, setLoop], by simpa using ⟨here, open_⟩⟩
        · exact ⟨[], by simp [tell, queueInLoop, setLoop, Function.update_of_ne same], by simp⟩
      · exact ⟨[], by simp [tell, queueInLoop, setLoop], by simp⟩

theorem shutdownWrite_steady (id : Nat) : Steady server (setConn server id shutdownWrite) := by
  apply setConn_steady server id shutdownWrite
  · unfold shutdownWrite
    split <;> exact ⟨rfl, rfl, rfl, rfl⟩
  · exact shutdownWrite_fits _

theorem sendInLoop_steady (loop id : Nat) (rest told : Bool) (here : (server.conns id).loop_ = loop)
    (open_ : opened (server.conns id).life) :
    Steady server (sendInLoop server loop id rest told) := by
  unfold sendInLoop
  split
  · exact steady_refl server
  · rename_i connected
    have wrote : Steady server (setConn server id (enableWriting rest)) := by
      apply setConn_steady server id
      · unfold enableWriting
        split <;> exact ⟨rfl, rfl, rfl, rfl⟩
      · exact enableWriting_fits _ rest open_ connected
    refine steady_trans _ _ _ wrote (tell_steady _ loop id told ?_ ?_)
    · rw [(wrote.conns id).1, here]
    · exact steady_opened server _ wrote id open_

theorem permitted_opened (loop self id : Nat) (ready : Ready server)
    (open_ : opened (server.conns self).life)
    (allowed : permitted server loop self id) : opened (server.conns id).life := by
  rcases allowed.2 with rfl | ⟨user, member, rfl⟩
  · exact open_
  · exact ready.held user member

theorem call_steady (loop self : Nat) (next : Call) (ready : Ready server)
    (open_ : opened (server.conns self).life) :
    Steady server (call server loop self next) := by
  cases next with
  | send id rest told =>
      simp only [call]
      split
      · rename_i allowed
        exact sendInLoop_steady server loop id rest told allowed.1.1
          (permitted_opened server loop self id ready open_ allowed.1)
      · exact steady_refl server
  | shutdown id =>
      simp only [call]
      split
      · rename_i allowed
        have usable := permitted_opened server loop self id ready open_ allowed.1
        apply setConn_steady server id
        · simp only [shutdownWrite]
          split <;> exact ⟨rfl, rfl, rfl, rfl⟩
        · exact fun fits => shutdownWrite_fits _ (disconnecting_fits _ allowed.2 usable fits)
      · exact steady_refl server
  | keep id =>
      simp only [call]
      split
      · rename_i allowed
        have usable := permitted_opened server loop self id ready open_ allowed
        constructor
        · rfl
        · exact fun other => ⟨rfl, rfl, rfl, rfl⟩
        · exact fun other fits => fits
        · exact fun other => ⟨[], by simp, by simp⟩
        · exact ⟨[⟨id, .holding⟩], rfl, by simpa using usable⟩
      · exact steady_refl server

theorem callAll_steady (loop self : Nat) (calls : List Call) (ready : Ready server)
    (open_ : opened (server.conns self).life) : Steady server (callAll server loop self calls) := by
  induction calls generalizing server with
  | nil => exact steady_refl server
  | cons next rest ih =>
      have first := call_steady server loop self next ready open_
      have tail := ih (call server loop self next) (steady_ready server _ first ready)
        (steady_opened server _ first self open_)
      exact steady_trans _ _ _ first tail

end Callbacks

/-! What no handler or functor touches. -/

/-- Handlers and functors only append to queues and to the pointers user code has been given. -/
structure Within (before after : Server) : Prop where
  stage : after.stage = before.stage
  threads : after.numThreads = before.numThreads
  loops : ∀ loop, ∃ more, after.loops loop =
    { before.loops loop with pendingFunctors_ := (before.loops loop).pendingFunctors_ ++ more }
  users : ∃ more, after.users = before.users ++ more
  used : before.stage ≠ .destroyed → after.deadUse = before.deadUse

section Frames
variable (server : Server)

theorem within_refl : Within server server :=
    ⟨rfl, rfl, fun _ => ⟨[], by simp⟩, ⟨[], by simp⟩, fun _ => rfl⟩

theorem within_trans (before middle after : Server) (first : Within before middle)
    (second : Within middle after) :
    Within before after := by
  constructor
  · rw [second.stage, first.stage]
  · rw [second.threads, first.threads]
  · intro loop
    obtain ⟨more, queued⟩ := first.loops loop
    obtain ⟨more', queued'⟩ := second.loops loop
    exact ⟨more ++ more', by rw [queued', queued]; simp⟩
  · obtain ⟨more, users⟩ := first.users
    obtain ⟨more', users'⟩ := second.users
    exact ⟨more ++ more', by rw [users', users, List.append_assoc]⟩
  · intro present
    rw [second.used (by rw [first.stage]; exact present), first.used present]

theorem conn_within (id : Nat) (change : TcpConnection → TcpConnection) :
    Within server (setConn server id change) :=
  ⟨rfl, rfl, fun _ => ⟨[], by simp [setConn]⟩, ⟨[], by simp [setConn]⟩, fun _ => rfl⟩

theorem queue_within (loop : Nat) (task : Task) : Within server (queueInLoop server loop task) := by
  refine ⟨rfl, rfl, fun other => ?_, ⟨[], by simp [queueInLoop, setLoop]⟩, fun _ => rfl⟩
  by_cases same : other = loop
  · subst same
    exact ⟨[task], by simp [queueInLoop, setLoop]⟩
  · exact ⟨[], by simp [queueInLoop, setLoop, Function.update_of_ne same]⟩

theorem tell_within (loop id : Nat) (told : Bool) : Within server (tell server loop id told) := by
  unfold tell
  split
  · exact queue_within server loop _
  · exact within_refl server

theorem sendInLoop_within (loop id : Nat) (rest told : Bool) :
    Within server (sendInLoop server loop id rest told) := by
  unfold sendInLoop
  split
  · exact within_refl server
  · exact within_trans _ _ _ (conn_within server id _) (tell_within _ loop id told)

theorem callAll_within (loop self : Nat) (calls : List Call) :
    Within server (callAll server loop self calls) := by
  induction calls generalizing server with
  | nil => exact within_refl server
  | cons next rest ih =>
      apply within_trans _ _ _ _ (ih (call server loop self next))
      cases next with
      | send id rest told =>
          simp only [call]
          split
          · exact sendInLoop_within server loop id rest told
          · exact within_refl server
      | shutdown id =>
          simp only [call]
          split
          · exact conn_within server id _
          · exact within_refl server
      | keep id =>
          simp only [call]
          split
          · exact ⟨rfl, rfl, fun _ => ⟨[], by simp⟩, ⟨_, rfl⟩, fun _ => rfl⟩
          · exact within_refl server

theorem connectEstablished_within (loop id : Nat) (choice : Choice) :
    Within server (connectEstablished server loop id choice) :=
  within_trans _ _ _ (conn_within server id _) (callAll_within _ loop id _)

theorem connectDestroyed_within (loop id : Nat) (choice : Choice) :
    Within server (connectDestroyed server loop id choice) := by
  unfold connectDestroyed
  split
  · have told := within_trans _ _ _ (conn_within server id disconnected)
      (callAll_within _ loop id choice.calls)
    exact within_trans _ _ _ told (conn_within _ id removed)
  · exact conn_within server id removed

theorem touch_within : Within server (touch server) := by
  refine ⟨rfl, rfl, fun _ => ⟨[], by simp [touch]⟩, ⟨[], by simp [touch]⟩, fun present => ?_⟩
  simp [touch, present]

theorem removeConnectionInLoop_within (id : Nat) :
    Within server (removeConnectionInLoop server id) := by
  have erased : Within (touch server) (erase (touch server) id) :=
    ⟨rfl, rfl, fun _ => ⟨[], by simp [erase]⟩, ⟨[], by simp [erase]⟩, fun _ => rfl⟩
  apply within_trans _ _ _ (touch_within server)
  apply within_trans _ _ _ erased
  exact within_trans _ _ _ (conn_within _ id _) (queue_within _ _ _)

theorem handleClose_within (loop id : Nat) (choice : Choice) :
    Within server (handleClose server loop id choice) := by
  have told := within_trans _ _ _ (conn_within server id disconnected)
    (callAll_within _ loop id choice.calls)
  unfold handleClose removeConnection
  apply within_trans _ _ _ told
  split
  · exact removeConnectionInLoop_within _ id
  · exact within_trans _ _ _ (touch_within _) (queue_within _ _ _)

theorem handleRead_within (loop id : Nat) (choice : Choice) :
    Within server (handleRead server loop id choice) := by
  unfold handleRead
  split
  · exact within_trans _ _ _ (conn_within server id _) (callAll_within _ loop id _)
  · split
    · exact handleClose_within server loop id choice
    · exact within_refl server

theorem handleWrite_within (loop id : Nat) (choice : Choice) :
    Within server (handleWrite server loop id choice) := by
  unfold handleWrite
  split
  · have quiet := within_trans _ _ _ (conn_within server id (channel .disableWriting))
      (tell_within _ loop id choice.told)
    simp only
    split
    · exact within_trans _ _ _ quiet (conn_within _ id _)
    · exact quiet
  · exact within_refl server

theorem whenever_within (reported : Bool) (callback : Server → Server)
    (within : ∀ current, Within current (callback current)) :
    Within server (whenever server reported callback) := by
  unfold whenever
  split
  · exact within server
  · exact within_refl server

theorem handleEvent_within (loop id : Nat) (revents : Events) (choice : Choice) :
    Within server (handleEvent server loop id revents choice) := by
  unfold handleEvent
  apply within_trans _ _ _ _ (whenever_within _ _ _
    fun current => handleWrite_within current loop id choice)
  apply within_trans _ _ _ _ (whenever_within _ _ _
    fun current => handleRead_within current loop id choice)
  exact whenever_within server _ _ fun current => handleClose_within current loop id choice

theorem newConnection_within (choice : Choice) : Within server (newConnection server choice) := by
  have inserted : Within server (insertConnection server choice) := by
    unfold insertConnection getNextLoop erase
    split <;> exact ⟨rfl, rfl, fun _ => ⟨[], by simp⟩, ⟨[], by simp⟩, fun _ => rfl⟩
  unfold newConnection
  simp only
  split
  · exact within_trans _ _ _ inserted (connectEstablished_within _ 0 _ choice)
  · exact within_trans _ _ _ inserted (queue_within _ _ _)

theorem runTask_within (loop : Nat) (choice : Choice) (task : Task) :
    Within server (runTask server loop choice task) := by
  cases task with
  | connectEstablished id => exact connectEstablished_within server loop id choice
  | connectDestroyed id => exact connectDestroyed_within server loop id choice
  | removeConnectionInLoop id => exact removeConnectionInLoop_within server id
  | sendInLoop id => exact sendInLoop_within server loop id _ _
  | shutdownInLoop id => exact conn_within server id _
  | callback id => exact callAll_within server loop id _
  | other => exact within_refl server

theorem handle_within (loop : Nat) (choice : Choice) (event : Event) (after : Server)
    (handled : handle server loop choice event = some after) : Within server after := by
  cases event with
  | acceptor =>
      simp only [handle] at handled
      split at handled
      · cases handled
        exact touch_within server
      · split at handled
        · cases handled
          exact newConnection_within server choice
        · cases handled
  | connection id revents =>
      simp only [handle] at handled
      split at handled
      · cases handled
      · cases handled
        exact handleEvent_within server loop id revents choice
  | other =>
      cases handled
      exact within_refl server

end Frames

/-! The card of a connection. -/

def tokenOf (id : Nat) : Task → Option Token
  | .connectEstablished other => if other = id then some .establish else none
  | .removeConnectionInLoop other => if other = id then some .remove else none
  | .connectDestroyed other => if other = id then some .destroy else none
  | _ => none

theorem tokenOf_destroy (id : Nat) (task : Task) (token : tokenOf id task = some .destroy) :
    task = .connectDestroyed id := by
  cases task <;> simp only [tokenOf] at token <;> grind

def leftTasks : Phase → List Task
  | .running left => left
  | _ => []

def leftEvents : Phase → List Event
  | .dispatching left => left
  | _ => []

/-- The functors a loop has still to run. -/
def waiting (loop : EventLoop) : List Task := leftTasks loop.phase ++ loop.pendingFunctors_

def mapped (server : Server) (id : Nat) : Bool :=
    decide ((connName server id, id) ∈ server.connections_)

def tokens (id : Nat) (loop : EventLoop) : List Token := (waiting loop).filterMap (tokenOf id)

def events (id : Nat) (loop : EventLoop) : Nat := (leftEvents loop.phase).countP fun event =>
    eventOf event == some id

def card (server : Server) (id : Nat) : Card where
  loop := (server.conns id).loop_
  life := (server.conns id).life
  mapped := mapped server id
  removed := (server.conns id).removed
  waits := fun loop => tokens id (server.loops loop)
  left := fun loop => events id (server.loops loop)
  ended := fun loop => decide (loop ≠ 0 ∧ (server.loops loop).phase = .outside)

section Cards
variable (server : Server)

theorem connName_injective (left right : Nat)
    (same : connName server left = connName server right) : left = right := by
  have digits : toString left = toString right := by
    have texts := congrArg String.toList same
    simp only [connName, String.toList_append, List.append_cancel_left_eq] at texts
    exact String.toList_inj.mp texts
  have value := congrArg (fun text : String => Nat.ofDigitChars 10 text.toList 0) digits
  simpa [Nat.toList_repr, Nat.toString_eq_repr] using value

theorem card_steady (after : Server) (steady : Steady server after) (id : Nat) :
    card after id = card server id := by
  obtain ⟨loop, life, removed, _⟩ := steady.conns id
  have table : mapped after id = mapped server id := by rw [steady.same]; rfl
  have queue : ∀ other, tokens id (after.loops other) = tokens id (server.loops other) := by
    intro other
    obtain ⟨more, queued, callbacks⟩ := steady.loops other
    have none_ : more.filterMap (tokenOf id) = [] := by
      rw [List.filterMap_eq_nil_iff]
      intro task member
      obtain ⟨self, rfl, _⟩ := callbacks task member
      rfl
    rw [queued, tokens, waiting, ← List.append_assoc, List.filterMap_append, none_, List.append_nil]
    rfl
  have left : ∀ other, events id (after.loops other) = events id (server.loops other) := by
    intro other
    obtain ⟨more, queued, _⟩ := steady.loops other
    rw [queued]
    rfl
  have phases : ∀ other, (after.loops other).phase = (server.loops other).phase := by
    intro other
    obtain ⟨more, queued, _⟩ := steady.loops other
    rw [queued]
  simp only [card, loop, life, removed, table, queue, left, phases]

/-- A change of one connection shows on its own card only. -/
theorem card_setConn (id : Nat) (change : TcpConnection → TcpConnection) (other : Nat) :
    card (setConn server id change) other =
      if other = id then
        { card server id with
          loop := (change (server.conns id)).loop_
          life := (change (server.conns id)).life
          removed := (change (server.conns id)).removed }
      else card server other := by
  by_cases same : other = id
  · subst same
    simp only [if_true, card, setConn, Function.update_self]
    rfl
  · simp only [same, if_false, card, setConn, Function.update_of_ne same]
    rfl

theorem card_queue (loop : Nat) (task : Task) (id : Nat) :
    card (queueInLoop server loop task) id =
      { card server id with
        waits := Function.update (card server id).waits loop
          ((card server id).waits loop ++ (tokenOf id task).toList) } := by
  have waits : ∀ other, tokens id ((queueInLoop server loop task).loops other) =
      Function.update (card server id).waits loop
        ((card server id).waits loop ++ (tokenOf id task).toList) other := by
    intro other
    by_cases same : other = loop
    · subst same
      simp only [queueInLoop, setLoop, Function.update_self, card, tokens, waiting]
      rw [← List.append_assoc, List.filterMap_append]
      cases found : tokenOf id task <;> simp [found]
    · simp [queueInLoop, setLoop, Function.update_of_ne same, card]
  have left : ∀ other, events id ((queueInLoop server loop task).loops other) = events id
      (server.loops other) :=
    setLoop_same server loop _ (events id) rfl
  have phases : ∀ other, ((queueInLoop server loop task).loops other).phase =
      (server.loops other).phase :=
    setLoop_same server loop _ (·.phase) rfl
  simp only [card, waits, left, phases]
  rfl

/-- A loop that goes on in its lists without touching its queue. -/
theorem card_setPhase (loop : Nat) (phase : Phase) (id : Nat)
    (going : (server.loops loop).phase ≠ .outside)
    (goes : phase ≠ .outside) :
    card (setPhase server loop phase) id =
      { card server id with
        waits := Function.update (card server id).waits loop
          ((leftTasks phase ++ (server.loops loop).pendingFunctors_).filterMap (tokenOf id))
        left := Function.update (card server id).left loop
          ((leftEvents phase).countP fun event => eventOf event == some id) } := by
  have waits : ∀ other, tokens id ((setPhase server loop phase).loops other) =
      Function.update (card server id).waits loop
        ((leftTasks phase ++ (server.loops loop).pendingFunctors_).filterMap (tokenOf id)) other :=
          by
    intro other
    by_cases same : other = loop
    · subst same
      simp [setPhase, setLoop, tokens, waiting]
    · simp [setPhase, setLoop, Function.update_of_ne same, card]
  have left : ∀ other, events id ((setPhase server loop phase).loops other) =
      Function.update (card server id).left loop
        ((leftEvents phase).countP fun event => eventOf event == some id) other := by
    intro other
    by_cases same : other = loop
    · subst same
      simp [setPhase, setLoop, events]
    · simp [setPhase, setLoop, Function.update_of_ne same, card]
  have ended : ∀ other, (((setPhase server loop phase).loops other).phase = .outside) =
      ((server.loops other).phase = .outside) :=
    setLoop_same server loop _ (fun old => old.phase = .outside) (by simp [going, goes])
  simp only [card, waits, left, ended]
  rfl

end Cards

/-! What holds of the server besides its cards, also in the middle of a handler. -/

structure Base (server : Server) : Prop where
  ready : Ready server
  ids : ∀ id, (server.conns id).life = .absent ↔ id = 0 ∨ server.nextConnId_ ≤ id
  pool : ∀ id, (server.conns id).loop_ ≤ server.numThreads
  names : ∀ entry ∈ server.connections_, entry.1 = connName server entry.2
  distinct : (server.connections_.map Prod.snd).Nodup
  bound : ∀ loop, ∀ task ∈ waiting (server.loops loop), ∀ id, task = .sendInLoop id ∨
    task = .callback id →
    (server.conns id).loop_ = loop ∧ opened (server.conns id).life
  batch : ∀ loop left, (server.loops loop).phase = .running left →
    left <:+ (server.loops loop).functors
  listed : server.stage = .alive → ∀ loop left, (server.loops loop).phase = .dispatching left →
    ∀ id revents,
    .connection id revents ∈ (server.loops loop).activeChannels_ →
      (server.conns id).loop_ = loop ∧ opened (server.conns id).life ∧
        (server.conns id).life ≠ .destroyed
  robin : server.next_ < server.numThreads ∨ server.numThreads = 0
  first : 0 < server.nextConnId_
  working : server.stage = .alive → ∀ loop, loop ≠ 0 → (server.loops loop).phase ≠ .outside

section Bases
variable (server : Server)

theorem steady_base (after : Server) (steady : Steady server after) (base : Base server) :
    Base after := by
  have life : ∀ id, (after.conns id).loop_ = (server.conns id).loop_ ∧
      (after.conns id).life = (server.conns id).life :=
    fun id => ⟨(steady.conns id).1, (steady.conns id).2.1⟩
  constructor
  case ready => exact steady_ready server after steady base.ready
  case ids =>
    intro id
    rw [(life id).2, steady.same]
    exact base.ids id
  case pool =>
    intro id
    rw [(life id).1, steady.same]
    exact base.pool id
  case names =>
    rw [steady.same]
    exact base.names
  case distinct =>
    rw [steady.same]
    exact base.distinct
  case bound =>
    intro loop task member id named
    obtain ⟨more, queued, callbacks⟩ := steady.loops loop
    rw [(life id).1, (life id).2]
    rw [queued] at member
    simp only [waiting, ← List.append_assoc] at member
    rcases List.mem_append.mp member with old | new
    · exact base.bound loop task old id named
    · obtain ⟨self, rfl, here, open_⟩ := callbacks task new
      rcases named with bad | good
      · cases bad
      · cases good
        exact ⟨here, open_⟩
  case batch =>
    intro loop left phase
    obtain ⟨more, queued, _⟩ := steady.loops loop
    rw [queued] at phase ⊢
    exact base.batch loop left phase
  case listed =>
    intro alive loop left phase id revents active
    obtain ⟨more, queued, _⟩ := steady.loops loop
    rw [queued] at phase active
    rw [(life id).1, (life id).2]
    have stage : server.stage = .alive := by rw [steady.same] at alive; exact alive
    exact base.listed stage loop left phase id revents active
  case robin =>
    rw [steady.same]
    exact base.robin
  case first =>
    rw [steady.same]
    exact base.first
  case working =>
    intro alive loop pool
    obtain ⟨more, queued, _⟩ := steady.loops loop
    rw [queued]
    exact base.working (by rw [steady.same] at alive; exact alive) loop pool

/-- A connection goes on in its life. -/
theorem setConn_base (id : Nat) (change : TcpConnection → TcpConnection) (base : Base server)
    (loop : (change (server.conns id)).loop_ = (server.conns id).loop_)
    (fits : Fits (change (server.conns id)))
    (present : (change (server.conns id)).life = .absent ↔ (server.conns id).life = .absent)
    (later : opened (server.conns id).life → opened (change (server.conns id)).life)
    (destroyed : server.stage = .alive → (change (server.conns id)).life = .destroyed →
      ∀ loop left, (server.loops loop).phase = .dispatching left → ∀ revents,
        .connection id revents ∉ (server.loops loop).activeChannels_) : Base
          (setConn server id change) := by
  have opens : ∀ other, opened (server.conns other).life →
      opened ((setConn server id change).conns other).life := by
    intro other open_
    by_cases same : other = id
    · subst same
      simpa [setConn] using later open_
    · simpa [setConn, Function.update_of_ne same] using open_
  have loops : ∀ other, ((setConn server id change).conns other).loop_ =
      (server.conns other).loop_ := by
    intro other
    by_cases same : other = id
    · subst same
      simpa [setConn] using loop
    · simp [setConn, Function.update_of_ne same]
  constructor
  case ready =>
    constructor
    · intro other
      by_cases same : other = id
      · subst same
        simpa [setConn] using fits
      · simpa [setConn, Function.update_of_ne same] using base.ready.fits other
    · exact fun user member => opens user.id (base.ready.held user member)
  case ids =>
    intro other
    by_cases same : other = id
    · subst same
      simp only [setConn, Function.update_self, present]
      exact base.ids other
    · simpa [setConn, Function.update_of_ne same] using base.ids other
  case pool =>
    intro other
    rw [loops]
    exact base.pool other
  case names => exact base.names
  case distinct => exact base.distinct
  case bound =>
    intro place task member other named
    rw [loops]
    obtain ⟨here, open_⟩ := base.bound place task member other named
    exact ⟨here, opens other open_⟩
  case batch => exact base.batch
  case listed =>
    intro alive place left phase other revents active
    obtain ⟨here, open_, unfinished⟩ := base.listed alive place left phase other revents active
    refine ⟨(loops other).trans here, opens other open_, ?_⟩
    by_cases same : other = id
    · subst same
      simp only [setConn, Function.update_self]
      exact fun gone => destroyed alive gone place left phase revents active
    · simpa [setConn, Function.update_of_ne same] using unfinished
  case robin => exact base.robin
  case first => exact base.first
  case working => exact base.working

theorem queue_base (loop : Nat) (task : Task) (base : Base server)
    (bound : ∀ id, task = .sendInLoop id ∨ task = .callback id →
      (server.conns id).loop_ = loop ∧ opened (server.conns id).life) : Base
        (queueInLoop server loop task) := by
  have phases : ∀ other, ((queueInLoop server loop task).loops other).phase =
      (server.loops other).phase ∧
      ((queueInLoop server loop task).loops other).functors = (server.loops other).functors ∧
      ((queueInLoop server loop task).loops other).activeChannels_ =
        (server.loops other).activeChannels_ :=
    fun other => ⟨setLoop_same server loop _ (·.phase) rfl other,
      setLoop_same server loop _ (·.functors) rfl other,
      setLoop_same server loop _ (·.activeChannels_) rfl other⟩
  constructor
  case ready => exact ⟨base.ready.fits, base.ready.held⟩
  case ids => exact base.ids
  case pool => exact base.pool
  case names => exact base.names
  case distinct => exact base.distinct
  case bound =>
    intro other queued member id named
    by_cases same : other = loop
    · subst same
      simp only [queueInLoop, setLoop, Function.update_self, waiting, ← List.append_assoc] at member
      rcases List.mem_append.mp member with old | new
      · exact base.bound other queued old id named
      · rw [List.mem_singleton] at new
        subst new
        exact bound id named
    · simp only [queueInLoop, setLoop, Function.update_of_ne same] at member
      exact base.bound other queued member id named
  case batch =>
    intro other left phase
    obtain ⟨same, functors, _⟩ := phases other
    rw [functors]
    exact base.batch other left (by rw [← same]; exact phase)
  case listed =>
    intro alive other left phase id revents active
    obtain ⟨same, _, channels⟩ := phases other
    rw [channels] at active
    exact base.listed alive other left (by rw [← same]; exact phase) id revents active
  case robin => exact base.robin
  case first => exact base.first
  case working =>
    intro alive other pool
    rw [(phases other).1]
    exact base.working alive other pool

/-- A loop goes on in its lists: what is left of a batch or of the active channels gets less. -/
theorem setPhase_base (loop : Nat) (phase : Phase) (base : Base server)
    (fewer : ∀ task ∈ leftTasks phase, task ∈ waiting (server.loops loop))
    (batch : ∀ left, phase = .running left → left <:+ (server.loops loop).functors)
    (listed : ∀ left, phase = .dispatching left → ∃ before,
      (server.loops loop).phase = .dispatching before)
    (goes : phase ≠ .outside) :
    Base (setPhase server loop phase) := by
  constructor
  case ready => exact ⟨base.ready.fits, base.ready.held⟩
  case ids => exact base.ids
  case pool => exact base.pool
  case names => exact base.names
  case distinct => exact base.distinct
  case bound =>
    intro other task member id named
    by_cases same : other = loop
    · subst same
      simp only [setPhase, setLoop, Function.update_self, waiting] at member
      rcases List.mem_append.mp member with left | queued
      · exact base.bound other task (fewer task left) id named
      · exact base.bound other task (List.mem_append_right _ queued) id named
    · simp only [setPhase, setLoop, Function.update_of_ne same] at member
      exact base.bound other task member id named
  case batch =>
    intro other left now
    by_cases same : other = loop
    · subst same
      simp only [setPhase, setLoop, Function.update_self] at now ⊢
      exact batch left now
    · simp only [setPhase, setLoop, Function.update_of_ne same] at now ⊢
      exact base.batch other left now
  case listed =>
    intro alive other left now id revents active
    by_cases same : other = loop
    · subst same
      simp only [setPhase, setLoop, Function.update_self] at now active
      obtain ⟨before, was⟩ := listed left now
      exact base.listed alive other before was id revents active
    · simp only [setPhase, setLoop, Function.update_of_ne same] at now active
      exact base.listed alive other left now id revents active
  case robin => exact base.robin
  case first => exact base.first
  case working =>
    intro alive other pool
    by_cases same : other = loop
    · subst same
      simpa [setPhase, setLoop] using goes
    · simpa [setPhase, setLoop, Function.update_of_ne same] using base.working alive other pool

/-- Nothing in the base speaks about the records, and the table may lose entries. -/
theorem table_base (connections : List (String × Nat)) (deadUse deadRun : Bool) (base : Base server)
    (fewer : connections.Sublist server.connections_) :
    Base { server with connections_ := connections, deadUse := deadUse, deadRun := deadRun } := by
  obtain ⟨ready, ids, pool, names, distinct, bound, batch, listed, robin, first, working⟩ := base
  exact ⟨⟨ready.fits, ready.held⟩, ids, pool, fun entry member => names entry (fewer.subset member),
    (fewer.map Prod.snd).nodup distinct, bound, batch, listed, robin, first, working⟩

end Bases

end MuduoChat.TcpServer
