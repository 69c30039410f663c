import MuduoChat.RoundRobin
import MuduoChat.ServerLifecycle
import MuduoChat.Transition

/-!
Which loop a connection gets. TcpServer::newConnection asks getNextLoop once for
each connection, and nothing else moves a connection or the turn, whatever handlers,
user code, other threads and the destructor do. So a server deals its connections
to its loops in turn.
-/

namespace MuduoChat.TcpServer
open RoundRobin

/-- EventLoopThreadPool::getAllLoops: the loops connections can be given to. -/
def getAllLoops (server : Server) : List Nat :=
  if server.numThreads = 0 then [0] else List.range' 1 server.numThreads

/-- What decides where connections go, and where they are. -/
structure Assignment where
  numThreads : Nat
  next_ : Nat
  nextConnId_ : Nat
  loop_ : Nat → Nat

def assignment (server : Server) : Assignment :=
  ⟨server.numThreads, server.next_, server.nextConnId_, fun id => (server.conns id).loop_⟩

/-- What an accept does to it. -/
def accepted (server : Server) : Assignment :=
  { assignment server with
    next_ := (getNextLoop server).2.next_
    nextConnId_ := server.nextConnId_ + 1
    loop_ := Function.update (assignment server).loop_ server.nextConnId_ (getNextLoop server).1 }

/-! Nothing but an accept changes the assignment. -/

section Frames
variable (server : Server)

theorem setConn_assignment (id : Nat) (change : TcpConnection → TcpConnection)
    (kept : (change (server.conns id)).loop_ = (server.conns id).loop_) :
    assignment (setConn server id change) = assignment server := by
  have places : (fun other => ((setConn server id change).conns other).loop_) =
      fun other => (server.conns other).loop_ := by
    funext other
    by_cases same : other = id
    · subst same
      simpa [setConn] using kept
    · simp [setConn, Function.update_of_ne same]
  unfold assignment
  rw [places]
  rfl

theorem shutdownWrite_loop (conn : TcpConnection) : (shutdownWrite conn).loop_ = conn.loop_ := by
  unfold shutdownWrite
  split <;> rfl

theorem enableWriting_loop (rest : Bool) (conn : TcpConnection) :
    (enableWriting rest conn).loop_ = conn.loop_ := by
  unfold enableWriting
  split <;> rfl

theorem tell_assignment (loop id : Nat) (told : Bool) :
    assignment (tell server loop id told) = assignment server := by
  cases told <;> rfl

theorem sendInLoop_assignment (loop id : Nat) (rest told : Bool) :
    assignment (sendInLoop server loop id rest told) = assignment server := by
  unfold sendInLoop
  split
  · rfl
  · rw [tell_assignment]
    exact setConn_assignment server id _ (enableWriting_loop rest _)

theorem call_assignment (loop self : Nat) (next : Call) :
    assignment (call server loop self next) = assignment server := by
  cases next with
  | send id rest told =>
      simp only [call]
      split
      · exact sendInLoop_assignment server loop id rest told
      · rfl
  | shutdown id =>
      simp only [call]
      split
      · exact setConn_assignment server id _ (shutdownWrite_loop _)
      · rfl
  | keep id =>
      simp only [call]
      split <;> rfl

theorem callAll_assignment (loop self : Nat) (calls : List Call) :
    assignment (callAll server loop self calls) = assignment server := by
  induction calls generalizing server with
  | nil => rfl
  | cons next rest ih =>
      exact (ih (call server loop self next)).trans (call_assignment server loop self next)

theorem connectEstablished_assignment (loop id : Nat) (choice : Choice) :
    assignment (connectEstablished server loop id choice) = assignment server :=
  (callAll_assignment _ loop id choice.calls).trans (setConn_assignment server id established rfl)

theorem disconnected_assignment (loop id : Nat) (choice : Choice) :
    assignment (callAll (setConn server id disconnected) loop id choice.calls) =
      assignment server :=
  (callAll_assignment _ loop id choice.calls).trans (setConn_assignment server id disconnected rfl)

theorem connectDestroyed_assignment (loop id : Nat) (choice : Choice) :
    assignment (connectDestroyed server loop id choice) = assignment server := by
  unfold connectDestroyed
  split
  · exact (setConn_assignment _ id removed rfl).trans
      (disconnected_assignment server loop id choice)
  · exact setConn_assignment server id removed rfl

theorem removeConnectionInLoop_assignment (id : Nat) :
    assignment (removeConnectionInLoop server id) = assignment server :=
  setConn_assignment (erase (touch server) id) id (fun conn => { conn with removed := true }) rfl

theorem removeConnection_assignment (loop id : Nat) :
    assignment (removeConnection server loop id) = assignment server := by
  unfold removeConnection
  split
  · exact removeConnectionInLoop_assignment server id
  · rfl

theorem handleClose_assignment (loop id : Nat) (choice : Choice) :
    assignment (handleClose server loop id choice) = assignment server :=
  (removeConnection_assignment _ loop id).trans (disconnected_assignment server loop id choice)

theorem handleRead_assignment (loop id : Nat) (choice : Choice) :
    assignment (handleRead server loop id choice) = assignment server := by
  unfold handleRead
  split
  · exact (callAll_assignment _ loop id choice.calls).trans
      (setConn_assignment server id messageCallback rfl)
  · split
    · exact handleClose_assignment server loop id choice
    · rfl

theorem handleWrite_assignment (loop id : Nat) (choice : Choice) :
    assignment (handleWrite server loop id choice) = assignment server := by
  have quiet : assignment (tell (setConn server id (channel .disableWriting)) loop id choice.told) =
      assignment server := (tell_assignment _ loop id choice.told).trans
        (setConn_assignment server id _ rfl)
  simp only [handleWrite]
  split
  · split
    · exact (setConn_assignment _ id _ (shutdownWrite_loop _)).trans quiet
    · exact quiet
  · rfl

theorem whenever_assignment (reported : Bool) (callback : Server → Server)
    (kept : ∀ current, assignment (callback current) = assignment current) :
    assignment (whenever server reported callback) = assignment server := by
  unfold whenever
  split
  · exact kept server
  · rfl

theorem handleEvent_assignment (loop id : Nat) (revents : EPollPoller.Events) (choice : Choice) :
    assignment (handleEvent server loop id revents choice) = assignment server := by
  simp only [handleEvent]
  rw [whenever_assignment _ _ _ fun current => handleWrite_assignment current loop id choice,
    whenever_assignment _ _ _ fun current => handleRead_assignment current loop id choice,
    whenever_assignment _ _ _ fun current => handleClose_assignment current loop id choice]

theorem runTask_assignment (loop : Nat) (choice : Choice) (task : Task) :
    assignment (runTask server loop choice task) = assignment server := by
  cases task with
  | connectEstablished id => exact connectEstablished_assignment server loop id choice
  | connectDestroyed id => exact connectDestroyed_assignment server loop id choice
  | removeConnectionInLoop id => exact removeConnectionInLoop_assignment server id
  | sendInLoop id => exact sendInLoop_assignment server loop id choice.rest choice.told
  | shutdownInLoop id => exact setConn_assignment server id _ (shutdownWrite_loop _)
  | callback id => exact callAll_assignment server loop id choice.calls
  | other => rfl

theorem insertConnection_assignment (choice : Choice) :
    assignment (insertConnection server choice) = accepted server := by
  have places : (fun id => ((insertConnection server choice).conns id).loop_) =
      Function.update (assignment server).loop_ server.nextConnId_ (getNextLoop server).1 := by
    funext id
    by_cases same : id = server.nextConnId_
    · subst same
      simp [insertConnection]
    · have kept : (getNextLoop server).2.conns = server.conns := by rw [nextLoop_frame]
      simp [insertConnection, erase, assignment, Function.update_of_ne same, kept]
  have threads : (insertConnection server choice).numThreads = server.numThreads := by
    have kept : (getNextLoop server).2.numThreads = server.numThreads := by rw [nextLoop_frame]
    exact kept
  unfold assignment at *
  rw [places, threads]
  rfl

theorem newConnection_assignment (choice : Choice) :
    assignment (newConnection server choice) = accepted server := by
  simp only [newConnection]
  split
  · exact (connectEstablished_assignment _ 0 _ choice).trans
      (insertConnection_assignment server choice)
  · exact insertConnection_assignment server choice

theorem setPhase_accepted (loop : Nat) (phase : Phase) :
    accepted (setPhase server loop phase) = accepted server := by
  have threads : (setPhase server loop phase).numThreads = server.numThreads := rfl
  have turn : (setPhase server loop phase).next_ = server.next_ := rfl
  unfold accepted getNextLoop
  rw [threads, turn]
  split <;> rfl

theorem loopStep_assignment (loop : Nat) (action : Action) (after : Server)
    (stepped : loopStep server loop action = some after) :
    assignment after = assignment server ∨ assignment after = accepted server := by
  cases loopStep_cases server loop action after stepped with
  | loop | leave | test | poll | swap | finish => exact Or.inl rfl
  | handle index choice event left after phase handled =>
      cases event with
      -- the one channel whose handler asks getNextLoop
      | acceptor =>
          simp only [handle] at handled
          split at handled
          · cases handled
            exact Or.inl rfl
          · split at handled
            · cases handled
              exact Or.inr ((newConnection_assignment _ choice).trans
                (setPhase_accepted server loop (.dispatching left)))
            · cases handled
      | connection id revents =>
          simp only [handle] at handled
          split at handled
          · cases handled
          · cases handled
            exact Or.inl (handleEvent_assignment _ loop id revents choice)
      | other =>
          cases handled
          exact Or.inl rfl
  | functor index choice task left phase => exact Or.inl (runTask_assignment _ loop choice task)

theorem userStep_assignment (user : Nat) (action : Action) (after : Server)
    (stepped : userStep server user action = some after) :
    assignment after = assignment server := by
  obtain ⟨owner, _, rfl | ⟨_, rfl⟩ | (rfl | ⟨doing, rfl⟩) | ⟨_, advanced⟩⟩ :=
    userStep_cases server user action after stepped
  · rfl
  · rfl
  · rfl
  · rfl
  · rcases advance_cases server user owner.id owner.doing after advanced with ⟨_, rfl⟩ | ⟨_, rfl⟩ |
      ⟨_, rfl⟩
    · rfl
    · exact setConn_assignment (setUser server user owner.id .shutDown) owner.id
        (setState .kDisconnecting) rfl
    · rfl

theorem resetItem_assignment (id : Nat) (choice : Choice) :
    assignment (resetItem server id choice) = assignment server := by
  simp only [resetItem]
  split
  · exact connectDestroyed_assignment _ 0 id choice
  · rfl

theorem destructor_assignment (choice : Choice) (after : Server)
    (stepped : destructor server choice = some after) :
    assignment after = assignment server := by
  unfold destructor at stepped
  split at stepped
  · cases stepped
    exact resetItem_assignment server _ choice
  · cases stepped
    rfl
  · cases stepped
    rfl
  · split at stepped
    · cases stepped
      rfl
    · cases stepped
  · cases stepped
    rfl
  · cases stepped

theorem callSite_assignment (called : Server) (site : callSite server = some called) :
    assignment called = assignment server := by
  unfold callSite at site
  split at site
  · cases site
    rfl
  · cases site
    rfl
  · cases site
    rfl
  · cases site

/-- A step leaves the assignment alone or is an accept. -/
theorem step_assignment (action : Action) (after : Server)
    (stepped : step server action = some after) :
    assignment after = assignment server ∨ assignment after = accepted server := by
  rcases step_cases server action after stepped with ⟨loop, _, _, taken⟩ | ⟨user, _, taken⟩ |
      ⟨rfl, rfl⟩ |
    ⟨rfl, rfl⟩ | ⟨order, called, rfl, _, _, site, rfl⟩ | ⟨choice, rfl, taken⟩
  · exact loopStep_assignment server loop action after taken
  · exact Or.inl (userStep_assignment server user action after taken)
  · exact Or.inl rfl
  · exact Or.inl rfl
  · exact Or.inl (callSite_assignment server called site)
  · exact Or.inl (destructor_assignment server choice after taken)

end Frames

/-! The server is a dealer of connections. -/

def dealer (now : Assignment) : Dealer Nat where
  seats := if now.numThreads = 0 then [0] else List.range' 1 now.numThreads
  next := now.next_
  dealt := now.nextConnId_ - 1
  place := fun item => now.loop_ (item + 1)

/-- The accepted connections of a loop. -/
def load (server : Server) (loop : Nat) : Nat :=
  Nat.count (fun item => (server.conns (item + 1)).loop_ = loop) (server.nextConnId_ - 1)

theorem getAllLoops_nodup (server : Server) : (getAllLoops server).Nodup := by
  unfold getAllLoops
  split
  · exact List.nodup_singleton 0
  · exact List.nodup_range'

/-- getNextLoop is a dealer's turn. -/
theorem accepted_deals (server : Server) (first : 0 < server.nextConnId_)
    (fair : Fair (dealer (assignment server))) :
    Deals (dealer (assignment server)) (dealer (accepted server)) := by
  have number : server.nextConnId_ - 1 + 1 = server.nextConnId_ := by omega
  have turn : server.next_ = (server.nextConnId_ - 1) %
      (dealer (assignment server)).seats.length := fair.turn
  -- without a pool the base loop is the only seat, and next_ stays 0
  have idle : server.numThreads = 0 → server.next_ = 0 := by
    intro none_
    simpa [dealer, assignment, none_, Nat.mod_one] using turn
  -- next_ wraps, so loops_[next_] is never out of range
  have robin : server.numThreads ≠ 0 → server.next_ < server.numThreads := by
    intro some_
    have seats : (dealer (assignment server)).seats.length = server.numThreads := by
      simp [dealer, assignment, some_]
    rw [turn, seats]
    exact Nat.mod_lt _ (Nat.pos_of_ne_zero some_)
  constructor
  case seats => rfl
  case dealt =>
    simp only [dealer, accepted, assignment]
    omega
  case given =>
    simp only [dealer, accepted, assignment, number, Function.update_self]
    by_cases none_ : server.numThreads = 0
    · simp [getNextLoop, none_, idle none_]
    · simp [getNextLoop, none_, robin none_, Nat.add_comm]
  case kept =>
    intro item old
    have other : item + 1 ≠ server.nextConnId_ := by
      simp only [dealer, assignment] at old
      omega
    simp only [dealer, accepted, Function.update_of_ne other]
  case next =>
    by_cases none_ : server.numThreads = 0
    · simp [dealer, accepted, assignment, getNextLoop, none_, idle none_]
    · simp [dealer, accepted, assignment, getNextLoop, none_]

structure Dealing (numThreads : Nat) (server : Server) : Prop where
  pool : server.numThreads = numThreads
  first : 0 < server.nextConnId_
  fair : Fair (dealer (assignment server))

theorem started_dealing (name ipPort : String) (numThreads : Nat) :
    Dealing numThreads (started name ipPort numThreads) := by
  refine ⟨rfl, Nat.one_pos, ?_, ?_⟩
  · exact (Nat.zero_mod _).symm
  · exact fun item none_ => absurd none_ (Nat.not_lt_zero item)

theorem step_dealing (numThreads : Nat) (server : Server) (action : Action) (after : Server)
    (dealing : Dealing numThreads server) (stepped : step server action = some after) :
    Dealing numThreads after := by
  obtain ⟨pool, first, fair⟩ := dealing
  rcases step_assignment server action after stepped with same | accept
  · have threads : after.numThreads = server.numThreads := congrArg Assignment.numThreads same
    have ids : after.nextConnId_ = server.nextConnId_ := congrArg Assignment.nextConnId_ same
    exact ⟨threads.trans pool, ids ▸ first, same ▸ fair⟩
  · have threads : after.numThreads = server.numThreads := congrArg Assignment.numThreads accept
    have ids : after.nextConnId_ = server.nextConnId_ + 1 := congrArg Assignment.nextConnId_ accept
    refine ⟨threads.trans pool, by omega, ?_⟩
    rw [accept]
    exact deals_fair _ _ fair (accepted_deals server first fair)

/-- The connections accepted before a step are accepted after it, on the loops they were given. -/
theorem step_stays (server : Server) (action : Action) (after : Server)
    (stepped : step server action = some after)
    (id : Nat) (known : Accepted server id) :
    Accepted after id ∧ (after.conns id).loop_ = (server.conns id).loop_ := by
  obtain ⟨positive, bounded⟩ := known
  rcases step_assignment server action after stepped with same | accept
  · have ids : after.nextConnId_ = server.nextConnId_ := congrArg Assignment.nextConnId_ same
    exact ⟨⟨positive, ids ▸ bounded⟩, congrFun (congrArg Assignment.loop_ same) id⟩
  · have ids : after.nextConnId_ = server.nextConnId_ + 1 := congrArg Assignment.nextConnId_ accept
    have place : (after.conns id).loop_ = (accepted server).loop_ id :=
      congrFun (congrArg Assignment.loop_ accept) id
    refine ⟨⟨positive, by omega⟩, ?_⟩
    -- an accept places the new id only
    have other : id ≠ server.nextConnId_ := by omega
    exact place.trans (Function.update_of_ne other _ _)

/-- The connections are dealt to the loops in turn. -/
structure InTurn (server : Server) : Prop where
  placed : ∀ id, Accepted server id →
    (getAllLoops server)[(id - 1) % (getAllLoops server).length]? = some (server.conns id).loop_
  share : ∀ index loop, (getAllLoops server)[index]? = some loop →
    load server loop = (server.nextConnId_ - 1) / (getAllLoops server).length +
      if index < (server.nextConnId_ - 1) % (getAllLoops server).length then 1 else 0
  balanced : ∀ loop ∈ getAllLoops server, ∀ other ∈ getAllLoops server, load server loop ≤
    load server other + 1

theorem dealing_inTurn (numThreads : Nat) (server : Server) (dealing : Dealing numThreads server) :
    InTurn server := by
  have distinct : (dealer (assignment server)).seats.Nodup := getAllLoops_nodup server
  constructor
  case placed =>
    intro id known
    have number : id - 1 + 1 = id := by
      have positive := known.1
      omega
    have placed := dealing.fair.placed (id - 1) (Nat.sub_lt_sub_right known.1 known.2)
    simp only [dealer, number] at placed
    exact placed
  case share => exact fun index loop here => fair_share _ dealing.fair distinct index loop here
  case balanced =>
    exact fun loop seated other otherSeated =>
      fair_balanced _ dealing.fair distinct loop other seated otherSeated

/-- In every run, destruction included, the connections are dealt to the loops in turn, and stay
there. -/
theorem connections_in_turn (name ipPort : String) (numThreads : Nat) (trace : List Action)
    (last : Server)
    (ran : Transition.run step (started name ipPort numThreads) trace = some last) :
    last.numThreads = numThreads ∧ InTurn last ∧
      ∀ (rest : List Action) (later : Server), Transition.run step last rest = some later →
        ∀ id, Accepted last id →
        Accepted later id ∧ (later.conns id).loop_ = (last.conns id).loop_ := by
  have dealing := Transition.run_always step (Dealing numThreads)
    (fun before action after dealing stepped =>
      step_dealing numThreads before action after dealing stepped)
    _ last trace (started_dealing name ipPort numThreads) ran
  refine ⟨dealing.pool, dealing_inTurn numThreads last dealing, fun rest later continued => ?_⟩
  apply Transition.run_always step
    (fun now => ∀ id, Accepted last id → Accepted now id ∧
      (now.conns id).loop_ = (last.conns id).loop_)
  · intro before action after stays stepped id known
    obtain ⟨still, same⟩ := stays id known
    obtain ⟨kept, place⟩ := step_stays before action after stepped id still
    exact ⟨kept, place.trans same⟩
  · exact fun id known => ⟨known, rfl⟩
  · exact continued

/-- Three connections and two loops: the first loop gets the first and the third. -/
def threeAccepts : List Action :=
  [.loop, .test 0, .poll 0 [.acceptor], .handle 0 { sockfd := 5 }, .swap 0, .finish 0,
    .test 0, .poll 0 [.acceptor], .handle 0 { sockfd := 6 }, .swap 0, .finish 0,
    .test 0, .poll 0 [.acceptor], .handle 0 { sockfd := 7 }]

theorem connections_in_turn_two :
    ∃ last, Transition.run step (started "chat" "0:9000" 2) threeAccepts = some last ∧
    last.numThreads = 2 ∧ InTurn last ∧ (load last 1, load last 2) = (2, 1) := by
  have reached : (Transition.run step (started "chat" "0:9000" 2) threeAccepts).map
      (fun last => (load last 1, load last 2)) = some (2, 1) := by decide +kernel
  obtain ⟨last, ran, loads⟩ := Option.map_eq_some_iff.mp reached
  obtain ⟨pool, turns, _⟩ := connections_in_turn "chat" "0:9000" 2 threeAccepts last ran
  exact ⟨last, ran, pool, turns, loads⟩

end MuduoChat.TcpServer
