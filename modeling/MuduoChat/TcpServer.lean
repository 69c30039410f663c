import MuduoChat.ConnectionLife
import MuduoChat.ConnectionThreads

/-!
MyMuduo/TcpServer.cc with its loops: the base loop is loop 0, the loops of the
thread pool are 1 to `numThreads`. A TcpConnection is named by the nextConnId_ it
was created with. One step is one event handled, one functor run, one access of
another thread, or one step of a destructor. A handler or functor is one step,
because all it touches belongs to its loop's thread except the queue of the one
loop it may append to. Whether a write leaves bytes over, what read() returns and
what user callbacks call is chosen by the environment. `reports`, `life`,
`removed`, `taken`, `deadUse` and `deadRun` are records for the statements.
-/

namespace MuduoChat.TcpServer
open EPollPoller (Channel ChannelOp Events EPOLLIN EPOLLOUT kNoneEvent isWriting settled)
open ConnectionOutput (StateE)
open ConnectionThreads (EPOLLERR EPOLLHUP)
open ConnectionLife (Life)

/-- What the user's callbacks were told about a connection. -/
inductive Report where
  | connection (connected : Bool)
  | message
  deriving DecidableEq

structure TcpConnection where
  loop_ : Nat
  state_ : StateE
  channel_ : Channel
  halfClosed : Bool
  reports : List Report
  life : Life
  removed : Bool
  taken : Bool
  deriving DecidableEq

/-- A functor. `callback` stands for a writeCompleteCallback_ or a
highWaterMarkCallback_; `other` is one of the user's own. -/
inductive Task where
  | connectEstablished (id : Nat)
  | connectDestroyed (id : Nat)
  | removeConnectionInLoop (id : Nat)
  | sendInLoop (id : Nat)
  | shutdownInLoop (id : Nat)
  | callback (id : Nat)
  | other
  deriving DecidableEq

/-- The channels epoll_wait reports: the acceptor's, a connection's, or one of the user's. -/
inductive Event where
  | acceptor
  | connection (id : Nat) (revents : Events)
  | other
  deriving DecidableEq

/-- Where the thread is in EventLoop::loop(), with what is left of the list it goes through. -/
inductive Phase where
  | outside
  | testing
  | polling
  | dispatching (left : List Event)
  | running (left : List Task)
  deriving DecidableEq

structure EventLoop where
  quit_ : Bool
  pendingFunctors_ : List Task
  activeChannels_ : List Event
  functors : List Task
  phase : Phase
  deriving DecidableEq

/-- What another thread does with the TcpConnectionPtr it holds. -/
inductive Doing where
  | holding
  | sending
  | shuttingDown
  | shutDown
  deriving DecidableEq

structure User where
  id : Nat
  doing : Doing
  deriving DecidableEq

/-- How far the destructor has come; the lists are what it has still to go through. -/
inductive Stage where
  | alive
  | resetting (left : List Nat)
  | quitting (left : List Nat)
  | joining (loop : Nat) (left : List Nat)
  | destroyed
  deriving DecidableEq

structure Server where
  name_ : String
  ipPort_ : String
  nextConnId_ : Nat
  connections_ : List (String × Nat)
  numThreads : Nat
  next_ : Nat
  conns : Nat → TcpConnection
  loops : Nat → EventLoop
  users : List User
  stage : Stage
  deadUse : Bool
  deadRun : Bool

/-- A call of user code in a callback. `rest` says that the write left bytes over,
`told` that it queued a user callback. -/
inductive Call where
  | send (id : Nat) (rest told : Bool)
  | shutdown (id : Nat)
  | keep (id : Nat)
  deriving DecidableEq

structure Choice where
  n : Int := 0
  sockfd : Int := 0
  rest : Bool := false
  told : Bool := false
  calls : List Call := []
  deriving DecidableEq

/-! Who holds a TcpConnectionPtr. -/

/-- The connection a functor is bound to, and whether it holds it: shutdown() binds `this`. -/
def bound : Task → Option Nat
  | .connectEstablished id | .connectDestroyed id | .removeConnectionInLoop id => some id
  | .sendInLoop id | .shutdownInLoop id | .callback id => some id
  | .other => none

def owns (id : Nat) (task : Task) : Bool := bound task == some id && task != .shutdownInLoop id

def held (id : Nat) (loop : EventLoop) : Nat := (loop.pendingFunctors_ ++ loop.functors).countP
    (owns id)

/-- The owners of a connection: the table, functors of any loop, and user threads. -/
def useCount (server : Server) (id : Nat) : Nat :=
  server.connections_.countP (·.2 == id) +
    ((List.range (server.numThreads + 1)).map fun loop => held id (server.loops loop)).sum +
    server.users.countP (·.id == id)

/-! TcpConnection.cc on one connection. -/

def setState (state : StateE) (conn : TcpConnection) : TcpConnection :=
    { conn with state_ := state }

def channel (op : ChannelOp) (conn : TcpConnection) : TcpConnection :=
  { conn with channel_ := settled conn.channel_ op }

def connectionCallback (conn : TcpConnection) : TcpConnection :=
  { conn with reports := conn.reports ++ [.connection (conn.state_ == .kConnected)] }

def messageCallback (conn : TcpConnection) : TcpConnection :=
    { conn with reports := conn.reports ++ [.message] }

def lived (life : Life) (conn : TcpConnection) : TcpConnection := { conn with life := life }

def shutdownWrite (conn : TcpConnection) : TcpConnection :=
  if isWriting conn.channel_ then conn else { conn with halfClosed := true }

/-- What connectEstablished does before user code runs. -/
def established (conn : TcpConnection) : TcpConnection :=
  lived .established (connectionCallback (channel .enableReading (setState .kConnected conn)))

/-- What handleClose, and connectDestroyed of a connected one, do before user code runs. -/
def disconnected (conn : TcpConnection) : TcpConnection :=
  lived .closed (connectionCallback (channel .disableAll (setState .kDisconnected conn)))

def removed (conn : TcpConnection) : TcpConnection := lived .destroyed (channel .remove conn)

def enableWriting (rest : Bool) (conn : TcpConnection) : TcpConnection :=
  if rest && !isWriting conn.channel_ then channel .enableWriting conn else conn

section Steps
variable (server : Server)

def setConn (id : Nat) (change : TcpConnection → TcpConnection) : Server :=
  { server with conns := Function.update server.conns id (change (server.conns id)) }

def setLoop (loop : Nat) (change : EventLoop → EventLoop) : Server :=
  { server with loops := Function.update server.loops loop (change (server.loops loop)) }

/-- What a change of one loop leaves alone, it leaves alone in every loop. -/
theorem setLoop_same {α : Type} (loop : Nat) (change : EventLoop → EventLoop) (part : EventLoop → α)
    (kept : part (change (server.loops loop)) = part (server.loops loop)) (place : Nat) :
    part ((setLoop server loop change).loops place) = part (server.loops place) := by
  by_cases here : place = loop
  · subst here
    simp only [setLoop, Function.update_self, kept]
  · simp only [setLoop, Function.update_of_ne here]

def setPhase (loop : Nat) (phase : Phase) : Server := setLoop server loop fun old =>
    { old with phase := phase }

def queueInLoop (loop : Nat) (task : Task) : Server :=
  setLoop server loop fun old => { old with pendingFunctors_ := old.pendingFunctors_ ++ [task] }

/-- The user callback a write may queue. -/
def tell (loop id : Nat) (told : Bool) : Server :=
  if told then queueInLoop server loop (.callback id) else server

/-! User code in a callback: it calls connections of the same loop, which it was
passed or holds. -/

def sendInLoop (loop id : Nat) (rest told : Bool) : Server :=
  if (server.conns id).state_ = .kDisconnected then server
  else tell (setConn server id (enableWriting rest)) loop id told

def permitted (loop self id : Nat) : Prop :=
  (server.conns id).loop_ = loop ∧ (id = self ∨ ∃ user ∈ server.users, user.id = id)

instance (loop self id : Nat) :
    Decidable (permitted server loop self id) := inferInstanceAs (Decidable (_ ∧ _))

def call (loop self : Nat) : Call → Server
  | .send id rest told =>
      if permitted server loop self id ∧ (server.conns id).state_ = .kConnected then
        sendInLoop server loop id rest told
      else server
  | .shutdown id =>
      if permitted server loop self id ∧ (server.conns id).state_ = .kConnected then
        setConn server id fun conn => shutdownWrite (setState .kDisconnecting conn)
      else server
  | .keep id =>
      if permitted server loop self id then
        { server with users := server.users ++ [⟨id, .holding⟩] } else server

def callAll (loop self : Nat) (calls : List Call) : Server :=
  calls.foldl (fun current next => call current loop self next) server

/-! The handlers and functors. `loop` is the loop whose thread runs them. -/

def connectEstablished (loop id : Nat) (choice : Choice) : Server :=
  callAll (setConn server id established) loop id choice.calls

def connectDestroyed (loop id : Nat) (choice : Choice) : Server :=
  if (server.conns id).state_ = .kConnected then
    setConn (callAll (setConn server id disconnected) loop id choice.calls) id removed
  else setConn server id removed

def connName (id : Nat) : String := server.name_ ++ "-" ++ server.ipPort_ ++ "#" ++ toString id

/-- A use of the TcpServer object. -/
def touch : Server := { server with deadUse := server.deadUse || server.stage == .destroyed }

def erase (id : Nat) : Server :=
  { server with connections_ := server.connections_.filter (·.1 ≠ connName server id) }

def removeConnectionInLoop (id : Nat) : Server :=
  let erased := setConn (erase (touch server) id) id fun conn => { conn with removed := true }
  queueInLoop erased (server.conns id).loop_ (.connectDestroyed id)

def removeConnection (loop id : Nat) : Server :=
  if loop = 0 then removeConnectionInLoop server id
  else queueInLoop (touch server) 0 (.removeConnectionInLoop id)

def handleClose (loop id : Nat) (choice : Choice) : Server :=
  removeConnection (callAll (setConn server id disconnected) loop id choice.calls) loop id

def handleRead (loop id : Nat) (choice : Choice) : Server :=
  if 0 < choice.n then callAll (setConn server id messageCallback) loop id choice.calls
  else if choice.n = 0 then handleClose server loop id choice
  else server

/-- `choice.rest` says that outputBuffer_ is not empty after the write. -/
def handleWrite (loop id : Nat) (choice : Choice) : Server :=
  if isWriting (server.conns id).channel_ ∧ choice.rest = false then
    let quiet := tell (setConn server id (channel .disableWriting)) loop id choice.told
    if (server.conns id).state_ = .kDisconnecting then setConn quiet id shutdownWrite else quiet
  else server

def whenever (reported : Bool) (callback : Server → Server) : Server :=
  if reported then callback server else server

/-- Channel::handleEventWithGuard; handleError only logs. -/
def handleEvent (loop id : Nat) (revents : Events) (choice : Choice) : Server :=
  let hung := whenever server (revents &&& EPOLLHUP != 0 && revents &&& EPOLLIN == 0) fun current =>
    handleClose current loop id choice
  let read := whenever hung (revents &&& EPOLLIN != 0) fun current =>
    handleRead current loop id choice
  whenever read (revents &&& EPOLLOUT != 0) fun current => handleWrite current loop id choice

/-- EventLoopThreadPool::getNextLoop. -/
def getNextLoop : Nat × Server :=
  if server.numThreads = 0 then (0, server)
  else
    let next := server.next_ + 1
    (server.next_ + 1, { server with next_ := if server.numThreads ≤ next then 0 else next })

/-- The TcpConnection is constructed and put into the table. -/
def insertConnection (choice : Choice) : Server :=
  let ioLoop := (getNextLoop server).1
  let id := server.nextConnId_
  let conn : TcpConnection :=
    ⟨ioLoop, .kConnecting, ⟨choice.sockfd, kNoneEvent, .kNew⟩, false, [], .created, false, false⟩
  let erased := erase (getNextLoop server).2 id
  { erased with
    nextConnId_ := id + 1
    conns := Function.update erased.conns id conn
    connections_ := erased.connections_ ++ [(connName server id, id)] }

def newConnection (choice : Choice) : Server :=
  let ioLoop := (getNextLoop server).1
  let inserted := insertConnection server choice
  if ioLoop = 0 then connectEstablished inserted 0 server.nextConnId_ choice
  else queueInLoop inserted ioLoop (.connectEstablished server.nextConnId_)

def runTask (loop : Nat) (choice : Choice) : Task → Server
  | .connectEstablished id => connectEstablished server loop id choice
  | .connectDestroyed id => connectDestroyed server loop id choice
  | .removeConnectionInLoop id => removeConnectionInLoop server id
  | .sendInLoop id => sendInLoop server loop id choice.rest choice.told
  | .shutdownInLoop id => setConn server id shutdownWrite
  | .callback id => callAll server loop id choice.calls
  | .other => server

/-! EventLoop::loop() of a loop, and the destructor on the base loop's thread. -/

/-- The base loop's thread is in the destructor while that runs. -/
def free (loop : Nat) : Prop :=
  loop ≤ server.numThreads ∧ (loop = 0 → server.stage = .alive ∨ server.stage = .destroyed)

instance (loop : Nat) : Decidable (free server loop) := inferInstanceAs (Decidable (_ ∧ _))

/-- The thread of the pool that leaves loop() destroys its EventLoop. -/
def leaveLoop (loop : Nat) : Server :=
  setLoop server loop fun old =>
    { old with phase := .outside,
               pendingFunctors_ := if loop = 0 then old.pendingFunctors_ else [] }

/-- epoll_wait reports a channel of the loop once, for events asked for, EPOLLHUP or EPOLLERR. -/
def Reported (loop : Nat) : Event → Prop
  | .acceptor => loop = 0 ∧ server.stage = .alive
  | .connection id revents => (server.conns id).loop_ = loop ∧
      (server.conns id).channel_.index = .kAdded ∧
      revents &&& ~~~((server.conns id).channel_.events ||| EPOLLHUP ||| EPOLLERR) = 0
  | .other => True

instance (loop : Nat) : (event : Event) → Decidable (Reported server loop event)
  | .acceptor => inferInstanceAs (Decidable (_ ∧ _))
  | .connection _ _ => inferInstanceAs (Decidable (_ ∧ _ ∧ _))
  | .other => isTrue trivial

def eventOf : Event → Option Nat
  | .connection id _ => some id
  | _ => none

def poll (loop : Nat) (active : List Event) : Server :=
  setLoop server loop fun old =>
    { old with activeChannels_ := active, phase := .dispatching active }

/-- A channel whose connection is gone has no handleEvent to call; the acceptor's
channel is a part of the server. -/
def handle (loop : Nat) (choice : Choice) : Event → Option Server
  | .acceptor =>
      if server.stage = .destroyed then some (touch server)
      else if server.stage = .alive ∧ server.nextConnId_ < 2 ^ 31 then
        some (newConnection server choice)
      else none
  | .connection id revents =>
      if useCount server id = 0 then none else some (handleEvent server loop id revents choice)
  | .other => some server

def swap (loop : Nat) : Server :=
  let batch := (server.loops loop).pendingFunctors_
  let swapped := setLoop server loop fun old =>
    { old with functors := batch, pendingFunctors_ := [], phase := .running batch }
  { swapped with conns := fun id =>
      { server.conns id with taken :=
                               (server.conns id).taken || decide (.connectDestroyed id ∈ batch) } }

/-- The record of a functor that runs for a connection without owners. -/
def checkOwner (task : Task) : Server :=
  { server with deadRun := server.deadRun || (bound task).any fun id => useCount server id == 0 }

/-- The functors vector goes out of scope. -/
def finish (loop : Nat) : Server := setLoop server loop fun old =>
    { old with functors := [], phase := .testing }

/-- The destructor can be called outside loop(), in a handler of a channel of the
user's, or in a functor of the user's. -/
def callSite : Option Server :=
  match (server.loops 0).phase with
  | .outside => some server
  | .dispatching (.other :: left) => some (setPhase server 0 (.dispatching left))
  | .running (.other :: left) => some (setPhase server 0 (.running left))
  | _ => none

/-- One turn of the destructor's loop: the table gives its pointer up. -/
def resetItem (id : Nat) (choice : Choice) : Server :=
  let taken := { server with connections_ := server.connections_.filter (·.2 ≠ id) }
  if (server.conns id).loop_ = 0 then connectDestroyed taken 0 id choice
  else queueInLoop taken (server.conns id).loop_ (.connectDestroyed id)

/-- The next step of the destructor: the table, then quit() and join() for each thread of the
pool. -/
def destructor (choice : Choice) : Option Server :=
  match server.stage with
  | .resetting (id :: left) => some { resetItem server id choice with stage := .resetting left }
  | .resetting [] => some { server with stage := .quitting (List.range' 1 server.numThreads) }
  | .quitting (loop :: left) =>
      some { setLoop server loop fun old => { old with quit_ := true }
        with stage := .joining loop left }
  | .joining loop left =>
      if (server.loops loop).phase = .outside then some { server with stage := .quitting left }
      else none
  | .quitting [] => some { server with stage := .destroyed }
  | _ => none

/-! A thread that holds a TcpConnectionPtr: it reads state_, stores it and queues
one after the other, and drops the pointer when it is not in a call. -/

def setUser (user id : Nat) (doing : Doing) : Server :=
    { server with users := server.users.set user ⟨id, doing⟩ }

def enter (user id : Nat) (doing : Doing) : Server :=
  if (server.conns id).state_ = .kConnected then setUser server user id doing else server

/-- The next step of send() or shutdown() outside the connection's loop. -/
def advance (user id : Nat) : Doing → Option Server
  | .holding => none
  | .sending => some (queueInLoop (setUser server user id .holding) (server.conns id).loop_
      (.sendInLoop id))
  | .shuttingDown => some (setConn (setUser server user id .shutDown) id (setState .kDisconnecting))
  | .shutDown => some (queueInLoop (setUser server user id .holding) (server.conns id).loop_
      (.shutdownInLoop id))

end Steps

inductive Action where
  | loop
  | test (loop : Nat)
  | poll (loop : Nat) (active : List Event)
  | handle (loop : Nat) (choice : Choice)
  | swap (loop : Nat)
  | functor (loop : Nat) (choice : Choice)
  | finish (loop : Nat)
  | quitBase
  | queueOther
  | copy (user : Nat)
  | drop (user : Nat)
  | send (user : Nat)
  | shutdown (user : Nat)
  | advance (user : Nat)
  | destroy (order : List Nat)
  | destructor (choice : Choice)
  deriving DecidableEq

/-- The thread of a loop goes on. -/
def loopStep (server : Server) (loop : Nat) (action : Action) : Option Server :=
  match action, (server.loops loop).phase with
  | .loop, .outside =>
      if loop = 0 then
        some (setLoop server 0 fun old => { old with quit_ := false, phase := .testing }) else none
  | .test _, .testing =>
      some (if (server.loops loop).quit_ then
        leaveLoop server loop else setPhase server loop .polling)
  | .poll _ active, .polling =>
      if (active.filterMap eventOf).Nodup ∧ ∀ event ∈ active, Reported server loop event then
        some (poll server loop active)
      else none
  | .handle _ choice, .dispatching (event :: left) =>
      handle (setPhase server loop (.dispatching left)) loop choice event
  | .swap _, .dispatching [] => some (swap server loop)
  | .functor _ choice, .running (task :: left) =>
      some (runTask (setPhase (checkOwner server task) loop (.running left)) loop choice task)
  | .finish _, .running [] => some (finish server loop)
  | _, _ => none

/-- A thread that holds a pointer goes on. -/
def userStep (server : Server) (user : Nat) (action : Action) : Option Server :=
  (server.users[user]?).bind fun owner =>
    match action, owner.doing with
    | .copy _, .holding => some { server with users := server.users ++ [owner] }
    | .drop _, .holding => some { server with users := server.users.eraseIdx user }
    | .send _, .holding => some (enter server user owner.id .sending)
    | .shutdown _, .holding => some (enter server user owner.id .shuttingDown)
    | .advance _, doing => advance server user owner.id doing
    | _, _ => none

def step (server : Server) (action : Action) : Option Server :=
  match action with
  | .loop => if free server 0 then loopStep server 0 action else none
  | .test loop | .poll loop _ | .handle loop _ | .swap loop | .functor loop _ | .finish loop =>
      if free server loop then loopStep server loop action else none
  | .quitBase => some (setLoop server 0 fun old => { old with quit_ := true })
  | .queueOther => some (queueInLoop server 0 .other)
  | .copy user | .drop user | .send user | .shutdown user | .advance user =>
      userStep server user action
  | .destroy order =>
      if server.stage = .alive ∧ order.Perm (server.connections_.map Prod.snd) then
        (callSite server).map fun called => { called with stage := .resetting order }
      else none
  | .destructor choice => destructor server choice

/-- After start(): the threads of the pool are in loop(), the base loop is not yet. -/
def started (name ipPort : String) (numThreads : Nat) : Server where
  name_ := name
  ipPort_ := ipPort
  nextConnId_ := 1
  connections_ := []
  numThreads := numThreads
  next_ := 0
  conns := fun _ => ⟨0, .kConnecting, ⟨-1, kNoneEvent, .kNew⟩, false, [], .absent, false, false⟩
  loops := fun loop => ⟨false, [], [], [], if loop = 0 then .outside else .testing⟩
  users := []
  stage := .alive
  deadUse := false
  deadRun := false

/-! Whose step an action is. -/

def loopOf : Action → Option Nat
  | .loop => some 0
  | .test loop | .poll loop _ | .handle loop _ | .swap loop | .functor loop _ | .finish loop =>
      some loop
  | _ => none

def userOf : Action → Option Nat
  | .copy user | .drop user | .send user | .shutdown user | .advance user => some user
  | _ => none

/-- The steps of a loop's thread, each with what it finds in the loop's lists. -/
inductive LoopStep (server : Server) (loop : Nat) : Action → Server → Prop where
  | loop (base : loop = 0) (phase : (server.loops loop).phase = .outside) :
      LoopStep server loop .loop (setLoop server 0
        fun old => { old with quit_ := false, phase := .testing })
  | leave (index : Nat) (phase : (server.loops loop).phase = .testing)
      (quitting : (server.loops loop).quit_ = true) :
      LoopStep server loop (.test index) (leaveLoop server loop)
  | test (index : Nat) (phase : (server.loops loop).phase = .testing) :
      LoopStep server loop (.test index) (setPhase server loop .polling)
  | poll (index : Nat) (active : List Event) (phase : (server.loops loop).phase = .polling)
      (distinct : (active.filterMap eventOf).Nodup)
        (reported : ∀ event ∈ active, Reported server loop event) :
      LoopStep server loop (.poll index active) (poll server loop active)
  | handle (index : Nat) (choice : Choice) (event : Event) (left : List Event) (after : Server)
      (phase : (server.loops loop).phase = .dispatching (event :: left))
      (handled : handle (setPhase server loop (.dispatching left)) loop choice event = some after) :
      LoopStep server loop (.handle index choice) after
  | swap (index : Nat) (phase : (server.loops loop).phase = .dispatching []) :
      LoopStep server loop (.swap index) (swap server loop)
  | functor (index : Nat) (choice : Choice) (task : Task) (left : List Task)
      (phase : (server.loops loop).phase = .running (task :: left)) :
      LoopStep server loop (.functor index choice)
        (runTask (setPhase (checkOwner server task) loop (.running left)) loop choice task)
  | finish (index : Nat) (phase : (server.loops loop).phase = .running []) :
      LoopStep server loop (.finish index) (finish server loop)

theorem loopStep_cases (server : Server) (loop : Nat) (action : Action) (after : Server)
    (stepped : loopStep server loop action = some after) : LoopStep server loop action after := by
  cases action <;> cases phase : (server.loops loop).phase <;>
    simp only [loopStep, phase] at stepped <;>
    try cases stepped
  case loop.outside =>
    split at stepped
    · rename_i base
      cases stepped
      exact .loop base phase
    · cases stepped
  case test.testing index =>
    split
    · rename_i quitting
      exact .leave index phase quitting
    · exact .test index phase
  case poll.polling index active =>
    split at stepped
    · rename_i told
      cases stepped
      exact .poll index active phase told.1 told.2
    · cases stepped
  case handle.dispatching index choice left =>
    cases left with
    | nil => cases stepped
    | cons event left => exact .handle index choice event left after phase stepped
  case swap.dispatching index left =>
    cases left with
    | nil =>
        cases stepped
        exact .swap index phase
    | cons event left => cases stepped
  case functor.running index choice left =>
    cases left with
    | nil => cases stepped
    | cons task left =>
        cases stepped
        exact .functor index choice task left phase
  case finish.running index left =>
    cases left with
    | nil =>
        cases stepped
        exact .finish index phase
    | cons task left => cases stepped

theorem advance_cases (server : Server) (user id : Nat) (doing : Doing) (after : Server)
    (advanced : advance server user id doing = some after) :
    (doing = .sending ∧
        after = queueInLoop (setUser server user id .holding) (server.conns id).loop_
          (.sendInLoop id)) ∨
      (doing = .shuttingDown ∧ after = setConn (setUser server user id .shutDown) id
        (setState .kDisconnecting)) ∨
      (doing = .shutDown ∧
        after = queueInLoop (setUser server user id .holding) (server.conns id).loop_
          (.shutdownInLoop id)) := by
  cases doing with
  | holding => cases advanced
  | sending => exact Or.inl ⟨rfl, (Option.some.inj advanced).symm⟩
  | shuttingDown => exact Or.inr (Or.inl ⟨rfl, (Option.some.inj advanced).symm⟩)
  | shutDown => exact Or.inr (Or.inr ⟨rfl, (Option.some.inj advanced).symm⟩)

/-- A thread that holds a pointer copies or drops it, enters a call if the connection is up, or
goes on in one. -/
theorem userStep_cases (server : Server) (user : Nat) (action : Action) (after : Server)
    (stepped : userStep server user action = some after) :
    ∃ owner, server.users[user]? = some owner ∧
      (after = { server with users := server.users ++ [owner] } ∨
        ((∃ index, action = .drop index) ∧
          after = { server with users := server.users.eraseIdx user }) ∨
        (after = server ∨ ∃ doing, after = setUser server user owner.id doing) ∨
        ((∃ index, action = .advance index) ∧
          advance server user owner.id owner.doing = some after)) := by
  simp only [userStep, Option.bind_eq_some_iff] at stepped
  obtain ⟨owner, found, stepped⟩ := stepped
  have entered : ∀ doing, enter server user owner.id doing = server ∨
      ∃ next, enter server user owner.id doing = setUser server user owner.id next := by
    intro doing
    unfold enter
    split
    · exact Or.inr ⟨doing, rfl⟩
    · exact Or.inl rfl
  refine ⟨owner, found, ?_⟩
  cases action with
  | copy index =>
      cases doing : owner.doing <;> simp only [doing] at stepped <;> cases stepped
      exact Or.inl rfl
  | drop index =>
      cases doing : owner.doing <;> simp only [doing] at stepped <;> cases stepped
      exact Or.inr (Or.inl ⟨⟨index, rfl⟩, rfl⟩)
  | send index =>
      cases doing : owner.doing <;> simp only [doing] at stepped <;> cases stepped
      exact Or.inr (Or.inr (Or.inl (entered .sending)))
  | shutdown index =>
      cases doing : owner.doing <;> simp only [doing] at stepped <;> cases stepped
      exact Or.inr (Or.inr (Or.inl (entered .shuttingDown)))
  | advance index => exact Or.inr (Or.inr (Or.inr ⟨⟨index, rfl⟩, stepped⟩))
  | _ => cases stepped

theorem step_cases (server : Server) (action : Action) (after : Server)
    (stepped : step server action = some after) :
    (∃ loop, loopOf action = some loop ∧ free server loop ∧
      loopStep server loop action = some after) ∨
    (∃ user, userOf action = some user ∧ userStep server user action = some after) ∨
    (action = .quitBase ∧ after = setLoop server 0 fun old => { old with quit_ := true }) ∨
    (action = .queueOther ∧ after = queueInLoop server 0 .other) ∨
    (∃ order called, action = .destroy order ∧ server.stage = .alive ∧
      order.Perm (server.connections_.map Prod.snd) ∧ callSite server = some called ∧
      after = { called with stage := .resetting order }) ∨
    ∃ choice, action = .destructor choice ∧ destructor server choice = some after := by
  have own : ∀ loop, loopOf action = some loop →
      (if free server loop then loopStep server loop action else none) = some after →
      ∃ loop, loopOf action = some loop ∧ free server loop ∧
        loopStep server loop action = some after := by
    intro loop turn taken
    split at taken
    · rename_i allowed
      exact ⟨loop, turn, allowed, taken⟩
    · cases taken
  cases action with
  | loop => exact Or.inl (own 0 rfl stepped)
  | test loop => exact Or.inl (own loop rfl stepped)
  | poll loop active => exact Or.inl (own loop rfl stepped)
  | handle loop choice => exact Or.inl (own loop rfl stepped)
  | swap loop => exact Or.inl (own loop rfl stepped)
  | functor loop choice => exact Or.inl (own loop rfl stepped)
  | finish loop => exact Or.inl (own loop rfl stepped)
  | copy user => exact Or.inr (Or.inl ⟨user, rfl, stepped⟩)
  | drop user => exact Or.inr (Or.inl ⟨user, rfl, stepped⟩)
  | send user => exact Or.inr (Or.inl ⟨user, rfl, stepped⟩)
  | shutdown user => exact Or.inr (Or.inl ⟨user, rfl, stepped⟩)
  | advance user => exact Or.inr (Or.inl ⟨user, rfl, stepped⟩)
  | quitBase => exact Or.inr (Or.inr (Or.inl ⟨rfl, (Option.some.inj stepped).symm⟩))
  | queueOther => exact Or.inr (Or.inr (Or.inr (Or.inl ⟨rfl, (Option.some.inj stepped).symm⟩)))
  | destroy order =>
      simp only [step] at stepped
      split at stepped
      · rename_i allowed
        obtain ⟨called, site, same⟩ := Option.map_eq_some_iff.mp stepped
        exact Or.inr (Or.inr (Or.inr (Or.inr
          (Or.inl ⟨order, called, rfl, allowed.1, allowed.2, site, same.symm⟩))))
      · cases stepped
  | destructor choice => exact Or.inr (Or.inr (Or.inr (Or.inr (Or.inr ⟨choice, rfl, stepped⟩))))

end MuduoChat.TcpServer
