import MuduoChat.LiveServer

/-!
The destructor of the TcpServer, begun in any state a server can live in. While it
goes through the table and joins the pool, the loops of the pool and the threads go
on; after it the base loop may go on too. What is left of the server then is closed,
unless a functor comes too late or a connection is left half closed.
-/

namespace MuduoChat.TcpServer
open EPollPoller (Events)
open ConnectionLife

/-! Once the destructor has begun, nobody else touches the table. -/

/-- The table, and the record of the server's use, are as before. -/
def Aloof (before after : Server) : Prop :=
  after.connections_ = before.connections_ ∧ after.deadUse = before.deadUse

section Handlers
variable (server : Server)

theorem aloof_trans (before middle after : Server) (first : Aloof before middle)
    (second : Aloof middle after) :
    Aloof before after :=
  ⟨second.1.trans first.1, second.2.trans first.2⟩

theorem tell_aloof (loop id : Nat) (told : Bool) : Aloof server (tell server loop id told) := by
  unfold tell
  split <;> exact ⟨rfl, rfl⟩

theorem sendInLoop_aloof (loop id : Nat) (rest told : Bool) :
    Aloof server (sendInLoop server loop id rest told) := by
  unfold sendInLoop
  split
  · exact ⟨rfl, rfl⟩
  · exact tell_aloof (setConn server id (enableWriting rest)) loop id told

theorem callAll_aloof (loop self : Nat) (calls : List Call) :
    Aloof server (callAll server loop self calls) := by
  induction calls generalizing server with
  | nil => exact ⟨rfl, rfl⟩
  | cons next rest ih =>
      apply aloof_trans _ _ _ _ (ih (call server loop self next))
      cases next with
      | send id rest told =>
          simp only [call]
          split
          · exact sendInLoop_aloof server loop id rest told
          · exact ⟨rfl, rfl⟩
      | shutdown id =>
          simp only [call]
          split <;> exact ⟨rfl, rfl⟩
      | keep id =>
          simp only [call]
          split <;> exact ⟨rfl, rfl⟩

theorem connectDestroyed_aloof (loop id : Nat) (choice : Choice) :
    Aloof server (connectDestroyed server loop id choice) := by
  unfold connectDestroyed
  split
  · exact callAll_aloof (setConn server id disconnected) loop id choice.calls
  · exact ⟨rfl, rfl⟩

/-- A close on a loop of the pool leaves the table to the base loop. -/
theorem handleClose_aloof (loop id : Nat) (choice : Choice) (pool : loop ≠ 0)
    (present : server.stage ≠ .destroyed) :
    Aloof server (handleClose server loop id choice) := by
  have told := callAll_aloof (setConn server id disconnected) loop id choice.calls
  have within := callAll_within (setConn server id disconnected) loop id choice.calls
  unfold handleClose removeConnection
  rw [if_neg pool]
  refine ⟨told.1, ?_⟩
  have stage : (callAll
      (setConn server id disconnected) loop id choice.calls).stage ≠ .destroyed := by
    rw [within.stage]
    exact present
  exact ((touch_within _).used stage).trans told.2

theorem handleRead_aloof (loop id : Nat) (choice : Choice) (pool : loop ≠ 0)
    (present : server.stage ≠ .destroyed) :
    Aloof server (handleRead server loop id choice) := by
  unfold handleRead
  split
  · exact callAll_aloof (setConn server id messageCallback) loop id choice.calls
  · split
    · exact handleClose_aloof server loop id choice pool present
    · exact ⟨rfl, rfl⟩

theorem handleWrite_aloof (loop id : Nat) (choice : Choice) :
    Aloof server (handleWrite server loop id choice) := by
  unfold handleWrite
  split
  · have told := tell_aloof (setConn server id (channel .disableWriting)) loop id choice.told
    simp only
    split <;> exact told
  · exact ⟨rfl, rfl⟩

theorem handleEvent_aloof (loop id : Nat) (revents : Events) (choice : Choice) (pool : loop ≠ 0)
    (present : server.stage ≠ .destroyed) :
    Aloof server (handleEvent server loop id revents choice) := by
  have reported : ∀ current told (callback : Server → Server),
      (∀ next : Server, Within next (callback next)) →
      (∀ next : Server, next.stage = server.stage → Aloof next (callback next)) →
        current.stage = server.stage →
      Aloof current (whenever current told callback) ∧
        (whenever current told callback).stage = server.stage := by
    intro current told callback within aloof stage
    unfold whenever
    split
    · exact ⟨aloof current stage, (within current).stage.trans stage⟩
    · exact ⟨⟨rfl, rfl⟩, stage⟩
  unfold handleEvent
  have hung :=
    reported server
      (revents &&& ConnectionThreads.EPOLLHUP != 0 && revents &&& EPollPoller.EPOLLIN == 0) _
    (fun next => handleClose_within next loop id choice)
    (fun next stage => handleClose_aloof next loop id choice pool
      (by rw [stage]; exact present)) rfl
  have read := reported _ (revents &&& EPollPoller.EPOLLIN != 0) _
    (fun next => handleRead_within next loop id choice)
    (fun next stage => handleRead_aloof next loop id choice pool
      (by rw [stage]; exact present)) hung.2
  have wrote := reported _ (revents &&& EPollPoller.EPOLLOUT != 0) _
    (fun next => handleWrite_within next loop id choice)
    (fun next _ => handleWrite_aloof next loop id choice) read.2
  exact aloof_trans _ _ _ (aloof_trans _ _ _ hung.1 read.1) wrote.1

/-- removeConnectionInLoop, the one functor that uses the server. -/
def removal : Task → Bool
  | .removeConnectionInLoop _ => true
  | _ => false

theorem runTask_aloof (loop : Nat) (choice : Choice) (task : Task) (other : removal task = false) :
    Aloof server (runTask server loop choice task) := by
  cases task with
  | connectEstablished id =>
      exact callAll_aloof (setConn server id established) loop id choice.calls
  | connectDestroyed id => exact connectDestroyed_aloof server loop id choice
  | removeConnectionInLoop id => cases other
  | sendInLoop id => exact sendInLoop_aloof server loop id choice.rest choice.told
  | shutdownInLoop id => exact ⟨rfl, rfl⟩
  | callback id => exact callAll_aloof server loop id choice.calls
  | other => exact ⟨rfl, rfl⟩

/-- A thread that holds a pointer touches no list that a loop goes through either. -/
theorem userStep_aloof (user : Nat) (action : Action) (after : Server)
    (stepped : userStep server user action = some after) :
    Aloof server after ∧ ∀ loop, (after.loops loop).phase = (server.loops loop).phase := by
  obtain ⟨owner, _, rfl | ⟨_, rfl⟩ | (rfl | ⟨doing, rfl⟩) | ⟨_, advanced⟩⟩ :=
    userStep_cases server user action after stepped
  · exact ⟨⟨rfl, rfl⟩, fun _ => rfl⟩
  · exact ⟨⟨rfl, rfl⟩, fun _ => rfl⟩
  · exact ⟨⟨rfl, rfl⟩, fun _ => rfl⟩
  · exact ⟨⟨rfl, rfl⟩, fun _ => rfl⟩
  · have queued : ∀ task, ∀ loop, ((queueInLoop (setUser server user owner.id .holding)
        (server.conns owner.id).loop_ task).loops loop).phase = (server.loops loop).phase := by
      intro task loop
      by_cases own : loop = (server.conns owner.id).loop_
      · subst own
        simp [queueInLoop, setLoop, setUser]
      · simp [queueInLoop, setLoop, setUser, Function.update_of_ne own]
    rcases advance_cases server user owner.id owner.doing after advanced with ⟨_, rfl⟩ | ⟨_, rfl⟩ |
        ⟨_, rfl⟩
    · exact ⟨⟨rfl, rfl⟩, queued _⟩
    · exact ⟨⟨rfl, rfl⟩, fun _ => rfl⟩
    · exact ⟨⟨rfl, rfl⟩, queued _⟩

end Handlers

/-! The state of the destruction. -/

/-- The table has been gone through. -/
def torn : Stage → Bool
  | .alive | .resetting _ => false
  | _ => true

/-- The loops of the pool that are still to be joined. -/
def unjoined : Stage → List Nat
  | .quitting left => left
  | .joining loop left => loop :: left
  | _ => []

/-- What a loop has left in its lists uses neither the server, its acceptor included,
nor a connection's channel. -/
def Settled (phase : Phase) : Prop :=
  (∀ task ∈ leftTasks phase, removal task = false) ∧ ∀ event ∈ leftEvents phase, event = .other

instance (phase : Phase) : Decidable (Settled phase) := inferInstanceAs (Decidable (_ ∧ _))

structure Closing (server : Server) : Prop where
  orderly : Orderly server
  reset : ∀ left, server.stage = .resetting left →
    left.Nodup ∧ ∀ id, id ∈ left ↔ id ∈ server.connections_.map Prod.snd
  emptied : torn server.stage = true → server.connections_ = []
  quits : ∀ loop, loop ≠ 0 → (server.loops loop).quit_ = true → torn server.stage = true
  joined : torn server.stage = true → ∀ loop, loop ≠ 0 → loop ≤ server.numThreads →
    loop ∈ unjoined server.stage ∨ (server.loops loop).phase = .outside
  settled : server.stage ≠ .alive → Settled (server.loops 0).phase
  unused : server.deadUse = false

section Facts
variable (server : Server)

theorem emptied_unmapped (id : Nat) (empty : server.connections_ = []) :
    mapped server id = false := by
  simp [mapped, empty]

/-- When the destructor has returned, every connection is closed, and those of the pool are
destroyed. -/
theorem returned_over (id : Nat) (closing : Closing server) (returned : server.stage = .destroyed) :
    (server.conns id).life ≠ .created ∧ (server.conns id).life ≠ .established := by
  have fine := closing.orderly.fine id
  have torn_ : torn server.stage = true := by rw [returned]; rfl
  have unmapped := emptied_unmapped server id (closing.emptied torn_)
  by_cases base : (server.conns id).loop_ = 0
  · exact ⟨fine.atOnce base, (fine.inside base).2 unmapped⟩
  · have outside : (server.loops (server.conns id).loop_).phase = .outside := by
      have place := closing.joined torn_ _ base (closing.orderly.base.pool id)
      simpa [returned, unjoined] using place
    have gone : (server.conns id).life = .destroyed := fine.finished (by simp [card, base, outside])
    simp [gone]

/-- A loop of the pool leaves loop() after the table has been gone through; what it
drops then belongs to nobody. -/
theorem ending_over (loop : Nat) (closing : Closing server)
    (quitting : (server.loops loop).quit_ = true)
    (testing : (server.loops loop).phase = .testing) (pool : loop ≠ 0)
    (clean : ∀ id, .connectDestroyed id ∉ (server.loops loop).pendingFunctors_) :
    server.stage ≠ .alive ∧ ∀ id, (server.conns id).loop_ = loop →
      (server.conns id).life = .destroyed := by
  have torn_ := closing.quits loop pool quitting
  have begun : server.stage ≠ .alive := by
    intro alive
    rw [alive] at torn_
    cases torn_
  refine ⟨begun, fun id own => ?_⟩
  by_contra unfinished
  have fine := closing.orderly.fine id
  have present : (server.conns id).life ≠ .absent := by
    intro absent
    have fits := closing.orderly.base.ready.fits id
    simp only [Fits, absent] at fits
    exact pool (own.symm.trans fits.2.2)
  have doomed : Doomed (card server id) :=
    ⟨emptied_unmapped server id (closing.emptied torn_), present, unfinished⟩
  have waits : Token.destroy ∈ tokens id (server.loops loop) := by
    have due : tokens id (server.loops (server.conns id).loop_) = owed (card server id) := fine.own
    rw [← own, due, owed, if_pos doomed]
    simp
  obtain ⟨task, member, token⟩ := List.mem_filterMap.mp waits
  simp only [waiting, leftTasks, testing, List.nil_append] at member
  rw [tokenOf_destroy id task token] at member
  exact clean id member

/-- A removal waits on the base loop only. -/
theorem removal_base (loop id : Nat) (orderly : Orderly server)
    (waits : .removeConnectionInLoop id ∈ waiting (server.loops loop)) : loop = 0 := by
  apply remove_base (orderly.fine id) loop
  exact List.mem_filterMap.mpr ⟨_, waits, by simp [tokenOf]⟩

end Facts

/-! The condition on each step. -/

def destruction : Task → Bool
  | .connectDestroyed _ => true
  | _ => false

/-- A connectDestroyed of the destructor does not find its connection half closed. -/
def Whole (server : Server) : Task → Prop
  | .connectDestroyed id => server.stage = .alive ∨ (server.conns id).state_ ≠ .kDisconnecting
  | _ => True

instance (server : Server) : DecidablePred (Whole server)
  | .connectDestroyed _ => inferInstanceAs (Decidable (_ ∨ _))
  | .connectEstablished _ | .removeConnectionInLoop _ | .sendInLoop _ | .shutdownInLoop _
  | .callback _ | .other =>
    isTrue trivial

/-- The connection that the destructor destroys itself, on the base loop, is not half closed. -/
def WholeHere (server : Server) : Stage → Prop
  | .resetting (id :: _) => (server.conns id).loop_ = 0 → (server.conns id).state_ ≠ .kDisconnecting
  | _ => True

instance (server : Server) : DecidablePred (WholeHere server)
  | .resetting (_ :: _) => inferInstanceAs (Decidable (_ → _))
  | .resetting [] | .alive | .quitting _ | .joining _ _ | .destroyed => isTrue trivial

instance (server : Server) (owner : User) :
    Decidable (Prompt server owner) := inferInstanceAs (Decidable (_ → _))

/-- No loop of the pool ends with a connectDestroyed in its queue; the base loop takes no
removal after the destructor; no connection is half closed when it is to be
destroyed; the destructor is not called in the middle of a list of the base loop that
still uses the server, its acceptor or a connection; a thread's shutdown() does not
come late. -/
def Clean (server : Server) : Action → Prop
  | .test loop => (server.loops loop).quit_ = true → loop ≠ 0 →
      ∀ task ∈ (server.loops loop).pendingFunctors_, destruction task = false
  | .swap loop => loop = 0 → server.stage = .destroyed →
      ∀ task ∈ (server.loops 0).pendingFunctors_, removal task = false
  | .functor loop _ => ∀ task ∈ (leftTasks (server.loops loop).phase).head?, Whole server task
  | .advance user => ∀ owner ∈ server.users[user]?, Prompt server owner
  | .destroy _ => Settled (server.loops 0).phase
  | .destructor _ => WholeHere server server.stage
  | _ => True

instance (server : Server) : DecidablePred (Clean server)
  | .test _ => inferInstanceAs (Decidable (_ → _ → _))
  | .swap _ => inferInstanceAs (Decidable (_ → _ → _))
  | .functor loop _ => inferInstanceAs
      (Decidable (∀ task ∈ (leftTasks (server.loops loop).phase).head?, Whole server task))
  | .advance user => inferInstanceAs
      (Decidable (∀ owner ∈ server.users[user]?, Prompt server owner))
  | .destroy _ => inferInstanceAs (Decidable (Settled _))
  | .destructor _ => inferInstanceAs (Decidable (WholeHere server server.stage))
  | .loop | .poll _ _ | .handle _ _ | .finish _ | .quitBase | .queueOther | .copy _ | .drop _
  | .send _
  | .shutdown _ => isTrue trivial

section Others
variable (server : Server)

theorem clean_allowed (action : Action) (closing : Closing server) (clean : Clean server action)
    (undestroyed : Undestroyed action) : Allowed server action := by
  cases action with
  | functor loop choice =>
      intro task left phase
      have next : task ∈ (leftTasks (server.loops loop).phase).head? := by simp [phase, leftTasks]
      have whole := clean task next
      cases task with
      | connectDestroyed id => exact whole
      | removeConnectionInLoop id =>
          by_contra begun
          have waits : .removeConnectionInLoop id ∈ waiting (server.loops loop) := by
            simp [waiting, leftTasks, phase]
          have base := removal_base server loop id closing.orderly waits
          subst base
          have other := (closing.settled begun).1 (.removeConnectionInLoop id)
            (by simp [leftTasks, phase])
          cases other
      | _ => trivial
  | test loop =>
      intro quitting testing pool
      apply ending_over server loop closing quitting testing pool
      intro id member
      have other := clean quitting pool _ member
      cases other
  | advance user => exact clean
  | destroy order => exact absurd undestroyed id
  | destructor choice => exact absurd undestroyed id
  | _ => trivial

theorem settled_within (after : Server) (within : Within server after)
    (settled : Settled (server.loops 0).phase) :
    Settled (after.loops 0).phase := by
  obtain ⟨more, queued⟩ := within.loops 0
  rw [queued]
  exact settled

/-- A loop goes on: the base loop into lists that are settled. -/
theorem settled_setLoop (loop : Nat) (change : EventLoop → EventLoop)
    (settled : Settled (server.loops 0).phase)
    (own : loop = 0 → Settled (change (server.loops 0)).phase) :
    Settled ((setLoop server loop change).loops 0).phase := by
  by_cases base : loop = 0
  · subst base
    simpa [setLoop] using own rfl
  · have other : 0 ≠ loop := Ne.symm base
    simpa [setLoop, Function.update_of_ne other] using settled

/-- Once the destructor has begun, a loop of the pool is not over and the base loop waits. -/
theorem turn_stage (loop : Nat) (closing : Closing server) (turn : free server loop)
    (begun : server.stage ≠ .alive)
    (inside : (server.loops loop).phase ≠ .outside) : loop = 0 ∧ server.stage = .destroyed ∨
      loop ≠ 0 ∧ server.stage ≠ .destroyed := by
  by_cases base : loop = 0
  · exact Or.inl ⟨base, (turn.2 base).resolve_left begun⟩
  · refine Or.inr ⟨base, fun returned => inside ?_⟩
    have place := closing.joined (by rw [returned]; rfl) loop base turn.1
    simpa [returned, unjoined] using place

theorem handle_aloof (loop : Nat) (choice : Choice) (event : Event) (left : List Event)
    (after : Server)
    (closing : Closing server) (turn : free server loop) (begun : server.stage ≠ .alive)
    (next : (server.loops loop).phase = .dispatching (event :: left))
    (handled : handle (setPhase server loop (.dispatching left)) loop choice event = some after) :
    Aloof server after ∧ Settled (after.loops 0).phase := by
  have settled := closing.settled begun
  have taken : Settled ((setPhase server loop (.dispatching left)).loops 0).phase := by
    apply settled_setLoop server loop _ settled
    rintro rfl
    rw [next] at settled
    exact ⟨by simp [leftTasks], fun later member => settled.2 later
      (List.mem_cons_of_mem event member)⟩
  refine ⟨?_, settled_within _ after (handle_within _ loop choice event after handled) taken⟩
  -- the list of the base loop is settled, and the acceptor is not on another one's
  cases event with
  | acceptor =>
      simp only [handle] at handled
      split at handled
      · rename_i returned
        rcases turn_stage server loop closing turn begun (by simp [next]) with ⟨rfl, _⟩ |
            ⟨_, present⟩
        · rw [next] at settled
          cases settled.2 .acceptor (List.mem_cons_self ..)
        · exact absurd returned present
      · split at handled
        · rename_i open_
          exact absurd open_.1 begun
        · cases handled
  | connection id revents =>
      simp only [handle] at handled
      split at handled
      · cases handled
      · cases handled
        rcases turn_stage server loop closing turn begun (by simp [next]) with ⟨rfl, _⟩ |
            ⟨pool, present⟩
        · rw [next] at settled
          cases settled.2 (.connection id revents) (List.mem_cons_self ..)
        · exact handleEvent_aloof (setPhase server loop
            (.dispatching left)) loop id revents choice pool present
  | other =>
      cases handled
      exact ⟨rfl, rfl⟩

/-- What the base loop polls after the destructor is of no connection and not the acceptor's. -/
theorem polled_settled (active : List Event) (closing : Closing server)
    (returned : server.stage = .destroyed)
    (reported : ∀ event ∈ active, Reported server 0 event) : Settled (.dispatching active) := by
  refine ⟨by simp [leftTasks], fun event member => ?_⟩
  cases event with
  | connection id revents =>
      obtain ⟨_, added, _⟩ := reported _ member
      have finished := returned_over server id closing returned
      have fits := closing.orderly.base.ready.fits id
      cases life : (server.conns id).life <;> simp_all [Fits]
  | acceptor =>
      have alive := (reported _ member).2
      rw [returned] at alive
      cases alive
  | other => rfl

theorem loopStep_aloof (loop : Nat) (action : Action) (after : Server) (closing : Closing server)
    (turn : loopOf action = some loop) (free_ : free server loop) (begun : server.stage ≠ .alive)
    (clean : Clean server action) (stepped : loopStep server loop action = some after) :
    Aloof server after ∧ Settled (after.loops 0).phase := by
  have settled := closing.settled begun
  have stages := turn_stage server loop closing free_ begun
  cases loopStep_cases server loop action after stepped with
  | loop base phase =>
      exact ⟨⟨rfl, rfl⟩, settled_setLoop server 0 _ settled
        fun _ => by simp [Settled, leftTasks, leftEvents]⟩
  | leave index phase quitting =>
      exact ⟨⟨rfl, rfl⟩, settled_setLoop server loop _ settled
        fun _ => by simp [Settled, leftTasks, leftEvents]⟩
  | test index phase =>
      exact ⟨⟨rfl, rfl⟩, settled_setLoop server loop _ settled
        fun _ => by simp [Settled, leftTasks, leftEvents]⟩
  | poll index active phase distinct reported =>
      refine ⟨⟨rfl, rfl⟩, settled_setLoop server loop _ settled ?_⟩
      rintro rfl
      rcases stages (by simp [phase]) with ⟨_, returned⟩ | ⟨pool, _⟩
      · exact polled_settled server _ closing returned reported
      · exact absurd rfl pool
  | handle index choice event left after phase handled =>
      exact handle_aloof server loop choice event left after closing free_ begun phase handled
  | swap index phase =>
      cases turn
      have swapped : Settled ((setLoop server loop fun old =>
          { old with
            functors := (server.loops loop).pendingFunctors_
            pendingFunctors_ := []
            phase := .running (server.loops loop).pendingFunctors_ }).loops 0).phase := by
        apply settled_setLoop server loop _ settled
        rintro rfl
        rcases stages (by simp [phase]) with ⟨_, returned⟩ | ⟨pool, _⟩
        -- once the base loop has returned, its queue holds no removal for this batch to take
        · exact ⟨clean rfl returned, by simp [leftEvents]⟩
        · exact absurd rfl pool
      exact ⟨⟨rfl, rfl⟩, swapped⟩
  | functor index choice task left phase =>
      -- a removal is queued on the base loop only, whose batch is settled
      have other : removal task = false := by
        cases task with
        | removeConnectionInLoop id =>
            have waits : .removeConnectionInLoop id ∈ waiting (server.loops loop) := by
              simp [waiting, leftTasks, phase]
            have base := removal_base server loop id closing.orderly waits
            subst base
            exact settled.1 _ (by simp [leftTasks, phase])
        | _ => rfl
      have taken : Settled ((popped server loop task left).loops 0).phase := by
        apply settled_setLoop (checkOwner server task) loop
          (fun old => { old with phase := .running left }) settled
        rintro rfl
        rw [phase] at settled
        exact ⟨fun later member => settled.1 later (List.mem_cons_of_mem task member),
          by simp [leftEvents]⟩
      refine ⟨runTask_aloof (popped server loop task left) loop choice task other, ?_⟩
      exact settled_within _ _ (runTask_within
        (popped server loop task left) loop choice task) taken
  | finish index phase =>
      exact ⟨⟨rfl, rfl⟩, settled_setLoop server loop _ settled
        fun _ => by simp [Settled, leftTasks, leftEvents]⟩

/-- A step that is not the destructor's, once the destructor has begun. -/
theorem step_aloof (action : Action) (after : Server) (closing : Closing server)
    (undestroyed : Undestroyed action)
    (begun : server.stage ≠ .alive) (clean : Clean server action)
    (stepped : step server action = some after) :
    Aloof server after ∧ Settled (after.loops 0).phase := by
  have settled := closing.settled begun
  rcases step_cases server action after stepped with ⟨loop, turn, free_, taken⟩ |
      ⟨user, _, taken⟩ | ⟨rfl, rfl⟩ |
    ⟨rfl, rfl⟩ | ⟨order, called, rfl, _⟩ | ⟨choice, rfl, _⟩
  · exact loopStep_aloof server loop action after closing turn free_ begun clean taken
  · obtain ⟨aloof, phases⟩ := userStep_aloof server user action after taken
    refine ⟨aloof, ?_⟩
    rw [phases 0]
    exact settled
  · exact ⟨⟨rfl, rfl⟩, settled_setLoop server 0 _ settled fun _ => settled⟩
  · exact ⟨⟨rfl, rfl⟩, settled_setLoop server 0 _ settled fun _ => settled⟩
  · exact absurd undestroyed id
  · exact absurd undestroyed id

theorem others_closing (action : Action) (after : Server) (closing : Closing server)
    (undestroyed : Undestroyed action)
    (clean : Clean server action) (stepped : step server action = some after) : Closing after := by
  have kept := step_undisturbed server action after undestroyed stepped
  have allowed := clean_allowed server action closing clean undestroyed
  have aloof := step_aloof server action after closing undestroyed
  have torn_begun : torn server.stage = true → server.stage ≠ .alive := by
    intro torn_ alive
    rw [alive] at torn_
    cases torn_
  constructor
  case orderly => exact step_orderly server action after closing.orderly allowed stepped
  case reset =>
    intro left stage
    rw [kept.stage] at stage
    rw [(aloof (by simp [stage]) clean stepped).1.1]
    exact closing.reset left stage
  case emptied =>
    intro torn_
    rw [kept.stage] at torn_
    rw [(aloof (torn_begun torn_) clean stepped).1.1]
    exact closing.emptied torn_
  case quits =>
    intro loop pool quitting
    rw [kept.quit loop pool] at quitting
    rw [kept.stage]
    exact closing.quits loop pool quitting
  case joined =>
    intro torn_ loop pool bounded
    rw [kept.stage] at torn_ ⊢
    rw [kept.threads] at bounded
    exact (closing.joined torn_ loop pool bounded).imp_right (kept.ended loop pool)
  case settled =>
    intro begun
    rw [kept.stage] at begun
    exact (aloof begun clean stepped).2
  case unused =>
    by_cases alive : server.stage = .alive
    · rw [kept.used (by simp [alive])]
      exact closing.unused
    · rw [(aloof alive clean stepped).1.2]
      exact closing.unused

end Others

/-! The steps of the destructor. -/

section Destructor
variable (server : Server)

theorem stage_orderly (stage : Stage) (orderly : Orderly server) (begun : stage ≠ .alive) :
    Orderly { server with stage := stage } := by
  obtain ⟨⟨ready, ids, pool, names, distinct, bound, batch, listed, robin, first, working⟩,
      fine⟩ := orderly
  refine ⟨⟨⟨ready.fits, ready.held⟩, ids, pool, names, distinct, bound, batch,
    fun alive => absurd alive begun, robin,
    first, fun alive => absurd alive begun⟩, fun id => ?_⟩
  have same : card { server with stage := stage } id = card server id := rfl
  rw [same, beq_eq_false_iff_ne.mpr begun]
  exact fine_stop (fine id)

/-- The destructor is called from a functor or handler of the user's, or outside loop(). -/
theorem callSite_orderly (called : Server) (orderly : Orderly server)
    (site : callSite server = some called) :
    Orderly called := by
  unfold callSite at site
  split at site
  · cases site
    exact orderly
  · rename_i left phase
    cases site
    exact taken_orderly server 0 .other left orderly phase
  · rename_i left phase
    cases site
    have popped_ : popped server 0 .other left = setPhase server 0 (.running left) := by
      simp [popped, checkOwner, TcpServer.bound]
    rw [← popped_]
    exact functor_orderly server 0 .other left {} orderly phase trivial
  · cases site

theorem callSite_frame (called : Server) (settled : Settled (server.loops 0).phase)
    (site : callSite server = some called) :
    Aloof server called ∧ called.numThreads = server.numThreads ∧ Settled (called.loops 0).phase ∧
      ∀ loop, (called.loops loop).quit_ = (server.loops loop).quit_ := by
  have quits : ∀ phase loop, ((setPhase server 0 phase).loops loop).quit_ =
      (server.loops loop).quit_ := by
    intro phase loop
    by_cases base : loop = 0
    · subst base
      simp [setPhase, setLoop]
    · simp [setPhase, setLoop, Function.update_of_ne base]
  unfold callSite at site
  split at site
  · cases site
    exact ⟨⟨rfl, rfl⟩, rfl, settled, fun _ => rfl⟩
  · rename_i left phase
    cases site
    rw [phase] at settled
    refine ⟨⟨rfl, rfl⟩, rfl, ?_, quits _⟩
    apply settled_setLoop server 0 (fun old => { old with phase := .dispatching left })
    · rw [phase]
      exact settled
    · exact fun _ => ⟨by simp [leftTasks],
        fun event member => settled.2 event (List.mem_cons_of_mem _ member)⟩
  · rename_i left phase
    cases site
    rw [phase] at settled
    refine ⟨⟨rfl, rfl⟩, rfl, ?_, quits _⟩
    apply settled_setLoop server 0 (fun old => { old with phase := .running left })
    · rw [phase]
      exact settled
    · exact fun _ => ⟨fun task member => settled.1 task (List.mem_cons_of_mem _ member),
        by simp [leftEvents]⟩
  · cases site

theorem destroy_closing (order : List Nat) (called : Server) (closing : Closing server)
    (alive : server.stage = .alive)
    (perm : order.Perm (server.connections_.map Prod.snd)) (clean : Settled (server.loops 0).phase)
    (site : callSite server = some called) : Closing { called with stage := .resetting order } := by
  obtain ⟨aloof, threads, settled, quit⟩ := callSite_frame server called clean site
  constructor
  case orderly =>
    exact stage_orderly called _ (callSite_orderly server called closing.orderly site) (by simp)
  case reset =>
    intro left same
    cases same
    have table : ({ called with stage := .resetting order } : Server).connections_ =
      server.connections_ := aloof.1
    rw [table]
    exact ⟨perm.nodup_iff.mpr closing.orderly.base.distinct, fun id => perm.mem_iff⟩
  case emptied =>
    intro torn_
    cases torn_
  case quits =>
    intro loop pool quitting
    have before : (server.loops loop).quit_ = true := by rw [← quit loop]; exact quitting
    have torn_ := closing.quits loop pool before
    rw [alive] at torn_
    cases torn_
  case joined =>
    intro torn_
    cases torn_
  case settled => exact fun _ => settled
  case unused =>
    rw [← closing.unused]
    exact aloof.2

/-- The table without one connection. -/
def giveUp (id : Nat) : Server :=
    { server with connections_ := server.connections_.filter (·.2 ≠ id) }

theorem card_giveUp (id other : Nat) :
    card (giveUp server id) other = if other = id then { card server id with mapped := false }
      else card server other := by
  by_cases same : other = id
  · subst same
    simp [card, giveUp, mapped]
  · have kept : mapped (giveUp server id) other = mapped server other := by
      have named : connName (giveUp server id) other = connName server other := rfl
      rw [mapped, named]
      simp [giveUp, same, mapped]
    rw [if_neg same]
    simp only [card, kept]
    rfl

/-- Nothing of a connection on the base loop is left in its lists. -/
theorem settled_handled (id : Nat) (orderly : Orderly server)
    (settled : Settled (server.loops 0).phase)
    (here : (server.conns id).loop_ = 0) : ∀ place, (card server id).left place = 0 := by
  intro place
  by_contra some_
  have own := ((orderly.fine id).dispatched place some_).1
  have base : place = 0 := own.symm.trans here
  subst base
  apply some_
  simp only [card, events, List.countP_eq_zero, beq_iff_eq]
  intro event member
  simp [settled.2 event member, eventOf]

theorem resetItem_orderly (id : Nat) (left : List Nat) (choice : Choice) (closing : Closing server)
    (stage : server.stage = .resetting (id :: left)) (whole : WholeHere server server.stage) :
    Orderly (resetItem server id choice) := by
  have begun : server.stage ≠ .alive := by simp [stage]
  have orderly := closing.orderly
  have fine := orderly.fine id
  have dying : (server.stage == .alive) = false := beq_eq_false_iff_ne.mpr begun
  -- the ids still to be reset are those of the table
  have table : mapped server id = true := by
    have listed := ((closing.reset _ stage).2 id).mp (List.mem_cons_self ..)
    obtain ⟨entry, member, snd⟩ := List.mem_map.mp listed
    have named := orderly.base.names entry member
    rw [snd] at named
    simp only [mapped, decide_eq_true_eq]
    rw [← named, ← snd]
    exact member
  have base : Base (giveUp server id) := table_base server _ _ _ orderly.base List.filter_sublist
  have others : ∀ other, other ≠ id → Fine ((giveUp server id).stage == .alive)
      (card (giveUp server id) other) := by
    intro other different
    rw [card_giveUp, if_neg different]
    exact orderly.fine other
  have own : card (giveUp server id) id = { card server id with mapped := false } := by
    rw [card_giveUp, if_pos rfl]
  have still : ((giveUp server id).stage == .alive) = false := dying
  rw [dying] at fine
  unfold resetItem
  simp only
  split
  · rename_i here
    have present := fine.present table
    apply connectDestroyed_orderly (giveUp server id) 0 id choice base
    · exact ⟨present.1, fine.atOnce here⟩
    · exact present.2
    · rw [stage] at whole
      exact whole here
    · exact fun alive => absurd alive begun
    · exact others
    · have moved := resetHere_fine fine table here
        (settled_handled server id orderly (closing.settled begun) here)
      rw [own, still]
      exact moved
  · rename_i pool
    refine ⟨queue_base (giveUp server id) _ _ base (by simp), fun other => ?_⟩
    have kept : ((queueInLoop (giveUp server id) (server.conns id).loop_
        (.connectDestroyed id)).stage == .alive) = false :=
      dying
    show Fine ((queueInLoop (giveUp server id) (server.conns id).loop_
      (.connectDestroyed id)).stage == .alive)
      (card (queueInLoop (giveUp server id) (server.conns id).loop_ (.connectDestroyed id)) other)
    rw [kept, card_queue]
    by_cases same : other = id
    · subst same
      rw [own]
      simp only [tokenOf, if_true, Option.toList]
      exact reset_fine fine table pool
    · have none_ : tokenOf other (.connectDestroyed id) = none := by simp [tokenOf, Ne.symm same]
      rw [none_]
      simp only [Option.toList, List.append_nil, Function.update_eq_self]
      rw [← still]
      exact others other same

theorem resetItem_frame (id : Nat) (choice : Choice) :
    (resetItem server id choice).connections_ = server.connections_.filter (·.2 ≠ id) ∧
      (resetItem server id choice).deadUse = server.deadUse ∧
        (resetItem server id choice).numThreads = server.numThreads ∧
      ∀ loop, ((resetItem server id choice).loops loop).quit_ = (server.loops loop).quit_ ∧
        ((resetItem server id choice).loops loop).phase = (server.loops loop).phase := by
  have within : Within (giveUp server id) (resetItem server id choice) := by
    unfold resetItem
    simp only
    split
    · exact connectDestroyed_within (giveUp server id) 0 id choice
    · exact queue_within (giveUp server id) _ _
  have aloof : Aloof (giveUp server id) (resetItem server id choice) := by
    unfold resetItem
    simp only
    split
    · exact connectDestroyed_aloof (giveUp server id) 0 id choice
    · exact ⟨rfl, rfl⟩
  refine ⟨aloof.1, aloof.2, within.threads, fun loop => ?_⟩
  obtain ⟨more, queued⟩ := within.loops loop
  rw [queued]
  exact ⟨rfl, rfl⟩

theorem resetItem_closing (id : Nat) (left : List Nat) (choice : Choice) (closing : Closing server)
    (stage : server.stage = .resetting (id :: left)) (whole : WholeHere server server.stage) :
    Closing { resetItem server id choice with stage := .resetting left } := by
  obtain ⟨table, used, _, loops⟩ := resetItem_frame server id choice
  have orderly := resetItem_orderly server id left choice closing stage whole
  obtain ⟨distinct, listed⟩ := closing.reset _ stage
  rw [List.nodup_cons] at distinct
  constructor
  case orderly => exact stage_orderly _ _ orderly (by simp)
  case reset =>
    intro rest same
    cases same
    refine ⟨distinct.2, fun other => ?_⟩
    have entries :
        ({ resetItem server id choice with stage := .resetting left } : Server).connections_ =
        server.connections_.filter (·.2 ≠ id) := table
    have before := listed other
    rw [entries]
    simp only [List.mem_cons, List.mem_map, List.mem_filter, decide_eq_true_eq] at before ⊢
    constructor
    · intro inside
      obtain ⟨entry, member, rfl⟩ := before.mp (Or.inr inside)
      exact ⟨entry, ⟨member, fun same => distinct.1 (same ▸ inside)⟩, rfl⟩
    · rintro ⟨entry, ⟨member, different⟩, rfl⟩
      exact (before.mpr ⟨entry, member, rfl⟩).resolve_left different
  case emptied =>
    intro torn_
    cases torn_
  case quits =>
    intro loop pool quitting
    have before : (server.loops loop).quit_ = true := by rw [← (loops loop).1]; exact quitting
    have torn_ := closing.quits loop pool before
    rw [stage] at torn_
    cases torn_
  case joined =>
    intro torn_
    cases torn_
  case settled =>
    intro _
    have settled := closing.settled (by simp [stage])
    rw [← (loops 0).2] at settled
    exact settled
  case unused =>
    rw [← closing.unused]
    exact used

/-- The destructor goes on to its next stage. -/
theorem stage_closing (stage : Stage) (closing : Closing server) (begun : server.stage ≠ .alive)
    (torn_ : torn stage = true)
    (empty : server.connections_ = [])
    (joined : ∀ loop, loop ≠ 0 → loop ≤ server.numThreads → loop ∈ unjoined stage ∨
      (server.loops loop).phase = .outside) :
    Closing { server with stage := stage } := by
  constructor
  case orderly =>
    apply stage_orderly server stage closing.orderly
    intro alive
    rw [alive] at torn_
    cases torn_
  case reset =>
    intro left same
    have resetting : stage = .resetting left := same
    rw [resetting] at torn_
    cases torn_
  case emptied => exact fun _ => empty
  case quits => exact fun _ _ _ => torn_
  case joined => exact fun _ => joined
  case settled => exact fun _ => closing.settled begun
  case unused => exact closing.unused

theorem quit_closing (loop : Nat) (closing : Closing server) (torn_ : torn server.stage = true) :
    Closing (setLoop server loop fun old => { old with quit_ := true }) := by
  have phases : ∀ other, ((setLoop server loop
      fun old => { old with quit_ := true }).loops other).phase =
      (server.loops other).phase :=
    setLoop_same server loop _ (·.phase) rfl
  constructor
  case orderly =>
    apply setLoop_orderly server loop _ closing.orderly
    · exact fun _ => rfl
    · exact fun _ => rfl
    · exact fun _ member => member
    · exact fun left phase => closing.orderly.base.batch loop left phase
    · intro left
      by_cases dispatching : (server.loops loop).phase = .dispatching left
      · exact Or.inr ⟨dispatching, rfl⟩
      · exact Or.inl dispatching
    · intro pool outside
      refine ⟨fun alive => by simp [alive, torn] at torn_, fun id own => ?_⟩
      apply (closing.orderly.fine id).finished
      have phase : (server.loops loop).phase = .outside := outside
      simp [card, own, pool, phase]
  case reset => exact closing.reset
  case emptied => exact closing.emptied
  case quits => exact fun _ _ _ => torn_
  case joined =>
    intro torn' other pool bounded
    rw [phases]
    exact closing.joined torn' other pool bounded
  case settled =>
    intro begun
    rw [phases]
    exact closing.settled begun
  case unused => exact closing.unused

theorem destructor_closing (choice : Choice) (after : Server) (closing : Closing server)
    (whole : WholeHere server server.stage) (stepped : destructor server choice = some after) :
    Closing after := by
  unfold destructor at stepped
  split at stepped
  case h_1 id left stage =>
    cases stepped
    exact resetItem_closing server id left choice closing stage whole
  case h_2 stage =>
    cases stepped
    apply stage_closing server _ closing (by simp [stage]) rfl
    · have listed := (closing.reset [] stage).2
      rw [← List.map_eq_nil_iff (f := Prod.snd), List.eq_nil_iff_forall_not_mem]
      exact fun id member => by simpa using (listed id).mpr member
    · intro loop pool bounded
      exact Or.inl (List.mem_range'_1.mpr ⟨by omega, by omega⟩)
  case h_3 loop left stage =>
    cases stepped
    have torn_ : torn server.stage = true := by rw [stage]; rfl
    have quitting := quit_closing server loop closing torn_
    apply stage_closing _ _ quitting _ rfl
    · exact closing.emptied torn_
    · intro other pool bounded
      have place := quitting.joined torn_ other pool bounded
      have before : (setLoop server loop fun old => { old with quit_ := true }).stage = .quitting
        (loop :: left) := stage
      rw [before] at place
      exact place
    · show server.stage ≠ .alive
      simp [stage]
  -- joining: the loop leaves the list only once its thread is outside
  case h_4 loop left stage =>
    split at stepped
    · rename_i outside
      cases stepped
      have torn_ : torn server.stage = true := by rw [stage]; rfl
      apply stage_closing server _ closing (by simp [stage]) rfl (closing.emptied torn_)
      intro other pool bounded
      have place := closing.joined torn_ other pool bounded
      rw [stage] at place
      rcases place with waits | finished
      · rcases List.mem_cons.mp waits with rfl | later
        · exact Or.inr outside
        · exact Or.inl later
      · exact Or.inr finished
    · cases stepped
  case h_5 stage =>
    cases stepped
    have torn_ : torn server.stage = true := by rw [stage]; rfl
    apply stage_closing server _ closing (by simp [stage]) rfl (closing.emptied torn_)
    intro other pool bounded
    have place := closing.joined torn_ other pool bounded
    rw [stage] at place
    exact place
  case h_6 => cases stepped

theorem step_closing (action : Action) (after : Server) (closing : Closing server)
    (clean : Clean server action)
    (stepped : step server action = some after) : Closing after := by
  have others : Undestroyed action → Closing after := fun undestroyed =>
    others_closing server action after closing undestroyed clean stepped
  rcases step_cases server action after stepped with ⟨loop, turn, _⟩ | ⟨user, turn, _⟩ | ⟨rfl, _⟩ |
      ⟨rfl, _⟩ |
    ⟨order, called, rfl, alive, perm, site, rfl⟩ | ⟨choice, rfl, taken⟩
  · exact others (by cases action <;> trivial)
  · exact others (by cases action <;> trivial)
  · exact others trivial
  · exact others trivial
  · exact destroy_closing server order called closing alive perm clean site
  · exact destructor_closing server choice after closing clean taken

end Destructor

/-- Every connection that was up is told once that it is down, no fd is closed with its channel
in a poller, and nobody uses the server after its destructor. -/
structure Complete (server : Server) : Prop where
  once : ∀ id, (server.conns id).reports.count (.connection false) ≤ 1
  told : server.stage = .destroyed → ∀ id, .connection true ∈ (server.conns id).reports →
    (server.conns id).reports.count (.connection false) = 1
  left : ∀ id, Released server id → (server.conns id).channel_.index = .kNew
  unused : server.deadUse = false

theorem closing_complete (server : Server) (closing : Closing server) : Complete server := by
  have fits := fun id => closing.orderly.base.ready.fits id
  constructor
  · exact fun id => (fits_inOrder _ (fits id)).2.1
  · intro returned id up
    have finished := returned_over server id closing returned
    have here := fits id
    cases life : (server.conns id).life with
    | absent =>
        simp only [Fits, life] at here
        rw [here.2.1] at up
        cases up
    | created => exact absurd life finished.1
    | established => exact absurd life finished.2
    | closed =>
        simp only [Fits, life] at here
        obtain ⟨_, _, _, count, reports⟩ := here
        rw [reports]
        simp [upThenMessages, List.count_replicate]
    | destroyed =>
        simp only [Fits, life] at here
        obtain ⟨_, _, _, count, reports⟩ := here
        rw [reports]
        simp [upThenMessages, List.count_replicate]
  · intro id released
    have here := fits id
    simp only [Fits, released_destroyed server id closing.orderly released] at here
    exact here.2.1
  · exact closing.unused

theorem started_closing (name ipPort : String) (numThreads : Nat) :
    Closing (started name ipPort numThreads) := by
  constructor
  case orderly => exact started_orderly name ipPort numThreads
  case reset =>
    intro left same
    cases same
  case emptied =>
    intro torn_
    cases torn_
  case quits =>
    intro loop pool quitting
    cases quitting
  case joined =>
    intro torn_
    cases torn_
  case settled => exact fun begun => absurd rfl begun
  case unused => rfl

/-- One loop in the pool: a connection is up, its callback makes some calls, and the server
is destroyed after its base loop has ended. -/
def upAndDestroy (calls : List Call) : List Action :=
  [.loop, .test 0, .poll 0 [.acceptor], .handle 0 { sockfd := 5 }, .swap 0, .finish 0,
    .test 1, .poll 1 [], .swap 1, .functor 1 { calls := calls }, .finish 1, .quitBase, .test 0,
    .destroy [1], .destructor {}, .test 1, .poll 1 [], .swap 1, .functor 1 {}, .finish 1,
    .destructor {}, .destructor {}, .test 1, .destructor {}, .destructor {}]

/-- A removal that is queued while the destructor runs, and run by the base loop after it. -/
example : (Transition.run step (started "chat" "0:9000" 1)
    [.loop, .test 0, .poll 0 [.acceptor], .handle 0 { sockfd := 5 }, .swap 0, .finish 0,
      .test 1, .poll 1 [], .swap 1, .functor 1 {}, .finish 1, .queueOther, .test 0, .poll 0 [],
        .swap 0,
      .destroy [1], .test 1, .poll 1 [.connection 1 ConnectionThreads.EPOLLHUP], .handle 1 {},
        .swap 1, .finish 1,
      .destructor {}, .test 1, .poll 1 [], .swap 1, .functor 1 {}, .finish 1,
      .destructor {}, .destructor {}, .test 1, .destructor {}, .destructor {}, .finish 0,
      .test 0, .poll 0 [], .swap 0, .functor 0 {}]).map (·.deadUse) = some true := by decide +kernel

/-- An event of the acceptor that is left in the base loop's list when a handler of the
user's destroys the server. -/
example : (Transition.run step (started "chat" "0:9000" 1)
    [.loop, .test 0, .poll 0 [.other, .acceptor], .destroy [], .destructor {}, .destructor {},
      .test 1,
      .destructor {}, .destructor {}, .handle 0 {}]).map (·.deadUse) = some true := by
        decide +kernel

end MuduoChat.TcpServer
