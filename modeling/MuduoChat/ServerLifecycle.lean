import Mathlib.Algebra.Order.BigOperators.Group.List
import Mathlib.Algebra.Order.Group.Nat
import MuduoChat.ServerHandlers

/-!
Runs of a server that is not destroyed. From the fine life of every connection: the
order of its callbacks, the content of the table, and the time at which it can be
released.
-/

namespace MuduoChat.TcpServer
open EPollPoller (Events)
open ConnectionLife

/-! Events, and the other steps of a loop. -/

section Loops
variable (server : Server)

/-- The server when a loop has taken the next of its active channels. -/
theorem taken_orderly (loop : Nat) (event : Event) (left : List Event) (orderly : Orderly server)
    (next : (server.loops loop).phase = .dispatching (event :: left)) :
    Orderly (setPhase server loop (.dispatching left)) := by
  constructor
  · apply setPhase_base server loop _ orderly.base
    · simp [leftTasks]
    · intro rest same
      cases same
    · exact fun _ _ => ⟨_, next⟩
    · simp
  · intro id
    have fine := orderly.fine id
    have here : (card server id).left loop =
        left.countP (fun event => eventOf event == some id) + if eventOf event == some id then 1
          else 0 := by
      simp only [card, events, leftEvents, next, List.countP_cons]
    have queue : Function.update (card server id).waits loop
        (([] ++ (server.loops loop).pendingFunctors_).filterMap (tokenOf id)) =
          (card server id).waits := by
      have same : ([] ++ (server.loops loop).pendingFunctors_).filterMap
          (tokenOf id) = (card server id).waits loop := by
        simp [card, tokens, waiting, leftTasks, next]
      rw [same, Function.update_eq_self]
    rw [card_setPhase server loop _ id (by simp [next]) (by simp)]
    simp only [leftTasks, leftEvents, queue]
    apply left_fine fine
    · intro place
      by_cases same : place = loop
      · subst same
        have bound := fine.once place
        rw [Function.update_self]
        omega
      · rw [Function.update_of_ne same]
        exact fine.once place
    · intro place some_
      apply fine.dispatched place
      by_cases same : place = loop
      · subst same
        rw [Function.update_self] at some_
        omega
      · rwa [Function.update_of_ne same] at some_

/-- A connection's event is taken: the connection is open, and no other event of it is left. -/
theorem taken_handled (loop id : Nat) (revents : Events) (left : List Event)
    (orderly : Orderly server)
    (next : (server.loops loop).phase = .dispatching (.connection id revents :: left)) :
    Handled (setPhase server loop (.dispatching left)) loop id := by
  have fine := orderly.fine id
  have here : (card server id).left loop = left.countP (fun event => eventOf event == some id) +
      1 := by
    simp [card, events, leftEvents, next, eventOf]
  obtain ⟨own, established⟩ := fine.dispatched loop (by omega)
  refine ⟨taken_orderly server loop _ left orderly next, established, own, fun place => ?_⟩
  have bound := fine.once loop
  rw [card_setPhase server loop _ id (by simp [next]) (by simp)]
  by_cases same : place = loop
  · subst same
    simp only [leftEvents, Function.update_self]
    omega
  · simp only [Function.update_of_ne same]
    by_contra some_
    exact same ((fine.dispatched place some_).1.symm.trans own)

theorem nextLoop_bound (robin : server.next_ < server.numThreads ∨ server.numThreads = 0) :
    (getNextLoop server).1 ≤ server.numThreads ∧
      ((getNextLoop server).2.next_ < server.numThreads ∨ server.numThreads = 0) := by
  unfold getNextLoop
  split
  · rename_i none_
    exact ⟨by omega, Or.inr none_⟩
  · simp only
    split <;> omega

theorem nextLoop_frame : (getNextLoop server).2 =
    { server with next_ := (getNextLoop server).2.next_ } := by
  unfold getNextLoop
  split <;> rfl

theorem inserted_conns (choice : Choice) (other : Nat) (old : other ≠ server.nextConnId_) :
    (insertConnection server choice).conns other = server.conns other := by
  simp only [insertConnection, erase]
  rw [Function.update_of_ne old, nextLoop_frame]

theorem inserted_frame (choice : Choice) : (insertConnection server choice).loops = server.loops ∧
    (insertConnection server choice).numThreads = server.numThreads ∧
    (insertConnection server choice).users = server.users ∧
    (insertConnection server choice).stage = server.stage ∧
    ∀ id, connName (insertConnection server choice) id = connName server id := by
  simp only [connName, insertConnection, erase]
  rw [nextLoop_frame]
  exact ⟨rfl, rfl, rfl, rfl, fun _ => rfl⟩

/-- The id of the new connection is none of a connection that is open. -/
theorem opened_older (base : Base server) (id : Nat) (open_ : opened (server.conns id).life) :
    id ≠ server.nextConnId_ := by
  rintro rfl
  exact open_.1 ((base.ids _).mpr (Or.inr (Nat.le_refl _)))

theorem inserted_ready (choice : Choice) (base : Base server) :
    Ready (insertConnection server choice) := by
  obtain ⟨_, _, users, _⟩ := inserted_frame server choice
  constructor
  · intro id
    by_cases new : id = server.nextConnId_
    · subst new
      simp only [insertConnection, Function.update_self]
      exact ⟨rfl, rfl, rfl, rfl⟩
    · rw [inserted_conns server choice id new]
      exact base.ready.fits id
  · intro user member
    rw [users] at member
    have open_ := base.ready.held user member
    rw [inserted_conns server choice _ (opened_older server base _ open_)]
    exact open_

/-- Whatever had the new name is erased. -/
theorem inserted_distinct (choice : Choice) (base : Base server) :
    ((insertConnection server choice).connections_.map Prod.snd).Nodup := by
  simp only [insertConnection, erase]
  rw [nextLoop_frame server, List.map_append]
  apply List.nodup_append.mpr
  refine ⟨(List.filter_sublist.map Prod.snd).nodup base.distinct, by simp, ?_⟩
  intro id member new same same_
  rw [List.map_singleton, List.mem_singleton] at same
  subst same_ same
  obtain ⟨entry, kept, snd⟩ := List.mem_map.mp member
  have named := base.names entry (List.mem_filter.mp kept).1
  rw [snd] at named
  have apart := (List.mem_filter.mp kept).2
  rw [named] at apart
  simp [connName] at apart

theorem inserted_base (choice : Choice) (base : Base server) :
    Base (insertConnection server choice) := by
  have frame := nextLoop_frame server
  have robin := nextLoop_bound server base.robin
  have older := opened_older server base
  obtain ⟨loops, threads, _, stage, named⟩ := inserted_frame server choice
  constructor
  case ready => exact inserted_ready server choice base
  case ids =>
    intro id
    have next : (insertConnection server choice).nextConnId_ = server.nextConnId_ + 1 := rfl
    rw [next]
    by_cases new : id = server.nextConnId_
    · subst new
      have positive := base.first
      simp only [insertConnection, Function.update_self]
      constructor
      · intro none_
        cases none_
      · omega
    · rw [inserted_conns server choice id new, base.ids id]
      omega
  case pool =>
    intro id
    rw [threads]
    by_cases new : id = server.nextConnId_
    · subst new
      simp only [insertConnection, Function.update_self]
      exact robin.1
    · rw [inserted_conns server choice id new]
      exact base.pool id
  case names =>
    intro entry member
    rw [named]
    simp only [insertConnection, erase] at member
    rw [frame] at member
    rcases List.mem_append.mp member with old | new
    · exact base.names entry (List.mem_filter.mp old).1
    · rw [List.mem_singleton.mp new]
  case distinct => exact inserted_distinct server choice base
  case bound =>
    intro loop task member id named
    rw [loops] at member
    obtain ⟨here, open_⟩ := base.bound loop task member id named
    rw [inserted_conns server choice id (older id open_)]
    exact ⟨here, open_⟩
  case batch =>
    rw [loops]
    exact base.batch
  case listed =>
    intro alive loop left phase id revents active
    rw [loops] at phase active
    rw [stage] at alive
    have listed := base.listed alive loop left phase id revents active
    rw [inserted_conns server choice id (older id listed.2.1)]
    exact listed
  case robin =>
    rw [threads]
    exact robin.2
  case first => exact Nat.succ_pos _
  case working =>
    intro alive
    rw [stage] at alive
    rw [loops]
    exact base.working alive

theorem inserted_card (choice : Choice) (id : Nat) : card (insertConnection server choice) id =
    if id = server.nextConnId_ then
      { card server id with loop := (getNextLoop server).1, life := .created, mapped := true,
                            removed := false }
    else card server id := by
  have frame := nextLoop_frame server
  obtain ⟨loops, _, _, _, names⟩ := inserted_frame server choice
  have named := names id
  by_cases new : id = server.nextConnId_
  · have table : mapped (insertConnection server choice) id = true := by
      rw [mapped, named, new]
      simp [insertConnection]
    rw [if_pos new]
    simp only [card, loops, table]
    subst new
    simp only [insertConnection, Function.update_self]
  · have table : mapped (insertConnection server choice) id = mapped server id := by
      have apart : connName server id ≠ connName (getNextLoop server).2 server.nextConnId_ := by
        rw [frame]
        exact fun equal => new (connName_injective server _ _ equal)
      have entries : (getNextLoop server).2.connections_ = server.connections_ := by rw [frame]
      rw [mapped, named]
      simp [insertConnection, erase, new, apart, entries, mapped]
    rw [if_neg new]
    simp only [card, loops, table, inserted_conns server choice id new]

/-- newConnection: a loop of the pool is to establish the connection, or the base loop does at
once. -/
theorem newConnection_orderly (choice : Choice) (orderly : Orderly server)
    (alive : server.stage = .alive) :
    Orderly (newConnection server choice) := by
  have base := orderly.base
  have fine := orderly.fine server.nextConnId_
  have absent : (server.conns server.nextConnId_).life = .absent :=
    (base.ids _).mpr (Or.inr (Nat.le_refl _))
  have unused : (card server server.nextConnId_).loop = 0 := by
    have fits := base.ready.fits server.nextConnId_
    simp only [Fits, absent] at fits
    exact fits.2.2
  have kept : (card server server.nextConnId_).removed = false := fine.fresh absent
  obtain ⟨_, _, _, stage, _⟩ := inserted_frame server choice
  have own := inserted_card server choice server.nextConnId_
  rw [if_pos rfl] at own
  have others : ∀ other, other ≠ server.nextConnId_ →
      Fine ((insertConnection server choice).stage == .alive)
        (card (insertConnection server choice) other) := by
    intro other different
    rw [inserted_card, if_neg different, stage]
    exact orderly.fine other
  unfold newConnection
  simp only
  split
  · -- without threads the base loop runs connectEstablished within newConnection
    rename_i here
    apply connectEstablished_orderly _ 0 _ choice (inserted_base server choice base)
    · simp [insertConnection]
    · exact others
    · have moved := acceptHere_fine fine absent unused
      rw [own, stage, here]
      rw [acceptHere, kept, unused] at moved
      exact moved
  · rename_i away
    have placed := queue_base (insertConnection server choice) (getNextLoop server).1
      (.connectEstablished server.nextConnId_) (inserted_base server choice base) (by simp)
    refine ⟨placed, fun other => ?_⟩
    have still : (queueInLoop (insertConnection server choice) (getNextLoop server).1
        (.connectEstablished server.nextConnId_)).stage = server.stage := stage
    rw [still, card_queue]
    by_cases new : other = server.nextConnId_
    · subst new
      have running : (card server server.nextConnId_).ended (getNextLoop server).1 = false := by
        simp [card, base.working alive _ away]
      have moved := accept_fine fine absent unused (getNextLoop server).1 away running
      rw [own]
      rw [accept, kept] at moved
      simp only [tokenOf, if_true, Option.toList]
      exact moved
    · have none_ : tokenOf other (.connectEstablished server.nextConnId_) = none := by
        simp [tokenOf, Ne.symm new]
      rw [none_]
      simp only [Option.toList, List.append_nil, Function.update_eq_self]
      rw [← stage]
      exact others other new

theorem touch_orderly (orderly : Orderly server) : Orderly (touch server) := by
  obtain ⟨⟨ready, ids, pool, names, distinct, bound, batch, listed, robin, first, working⟩,
      fine⟩ := orderly
  exact ⟨⟨⟨ready.fits, ready.held⟩, ids, pool, names, distinct, bound, batch, listed, robin, first,
    working⟩, fine⟩

theorem handle_orderly (loop : Nat) (choice : Choice) (event : Event) (left : List Event)
    (after : Server)
    (orderly : Orderly server) (next : (server.loops loop).phase = .dispatching (event :: left))
    (handled : handle (setPhase server loop (.dispatching left)) loop choice event = some after) :
    Orderly after := by
  have taken := taken_orderly server loop event left orderly next
  cases event with
  | acceptor =>
      simp only [handle] at handled
      split at handled
      · cases handled
        exact touch_orderly _ taken
      · split at handled
        · rename_i open_
          cases handled
          exact newConnection_orderly _ choice taken open_.1
        · cases handled
  | connection id revents =>
      simp only [handle] at handled
      split at handled
      · cases handled
      · cases handled
        exact handleEvent_orderly _ loop id revents choice
          (taken_handled server loop id revents left orderly next)
  | other =>
      cases handled
      exact taken

/-- A change of one loop: what is to be checked of it. -/
theorem setLoop_base (loop : Nat) (change : EventLoop → EventLoop) (base : Base server)
    (bound : ∀ task ∈ waiting (change (server.loops loop)), task ∈ waiting (server.loops loop))
    (batch : ∀ left, (change (server.loops loop)).phase = .running left →
      left <:+ (change (server.loops loop)).functors)
    (listed : server.stage = .alive → ∀ left,
      (change (server.loops loop)).phase = .dispatching left → ∀ id revents,
      .connection id revents ∈ (change (server.loops loop)).activeChannels_ →
        (server.conns id).loop_ = loop ∧ opened (server.conns id).life ∧
          (server.conns id).life ≠ .destroyed)
    (working : server.stage = .alive → loop ≠ 0 → (change (server.loops loop)).phase ≠ .outside) :
    Base (setLoop server loop change) := by
  obtain ⟨ready, ids, pool, names, distinct, waits, batches, lists, robin, first, works⟩ := base
  constructor
  case ready => exact ⟨ready.fits, ready.held⟩
  case ids => exact ids
  case pool => exact pool
  case names => exact names
  case distinct => exact distinct
  case bound =>
    intro place task member id named
    by_cases same : place = loop
    · subst same
      simp only [setLoop, Function.update_self] at member
      exact waits place task (bound task member) id named
    · simp only [setLoop, Function.update_of_ne same] at member
      exact waits place task member id named
  case batch =>
    intro place rest phase
    by_cases same : place = loop
    · subst same
      simp only [setLoop, Function.update_self] at phase ⊢
      exact batch rest phase
    · simp only [setLoop, Function.update_of_ne same] at phase ⊢
      exact batches place rest phase
  case listed =>
    intro alive place rest phase id revents active
    by_cases same : place = loop
    · subst same
      simp only [setLoop, Function.update_self] at phase active
      exact listed alive rest phase id revents active
    · simp only [setLoop, Function.update_of_ne same] at phase active
      exact lists alive place rest phase id revents active
  case robin => exact robin
  case first => exact first
  case working =>
    intro alive place inPool phase
    by_cases same : place = loop
    · subst same
      simp only [setLoop, Function.update_self] at phase
      exact working alive inPool phase
    · simp only [setLoop, Function.update_of_ne same] at phase
      exact works alive place inPool phase

/-- A step that changes one loop, and of no connection what its card or base says. -/
theorem setLoop_orderly (loop : Nat) (change : EventLoop → EventLoop) (orderly : Orderly server)
    (queue : ∀ id, tokens id (change (server.loops loop)) = tokens id (server.loops loop))
    (left : ∀ id, events id (change (server.loops loop)) = events id (server.loops loop))
    (bound : ∀ task ∈ waiting (change (server.loops loop)), task ∈ waiting (server.loops loop))
    (batch : ∀ left, (change (server.loops loop)).phase = .running left →
      left <:+ (change (server.loops loop)).functors)
    (idle : ∀ left, (change (server.loops loop)).phase ≠ .dispatching left ∨
      (server.loops loop).phase = .dispatching left ∧
        (change (server.loops loop)).activeChannels_ = (server.loops loop).activeChannels_)
    (finished : loop ≠ 0 → (change (server.loops loop)).phase = .outside →
      server.stage ≠ .alive ∧ ∀ id, (server.conns id).loop_ = loop →
        (server.conns id).life = .destroyed) :
    Orderly (setLoop server loop change) := by
  constructor
  · refine setLoop_base server loop change orderly.base bound batch ?_
      fun alive inPool phase => (finished inPool phase).1 alive
    intro alive rest phase id revents active
    rcases idle rest with other | ⟨before, channels⟩
    · exact absurd phase other
    · rw [channels] at active
      exact orderly.base.listed alive loop rest before id revents active
  · intro id
    have same : card (setLoop server loop change) id = { card server id with
        ended := (card (setLoop server loop change) id).ended } := by
      have waits_ := setLoop_same server loop change (tokens id) (queue id)
      have left_ := setLoop_same server loop change (events id) (left id)
      simp only [card, waits_, left_]
      rfl
    rw [same]
    apply ended_fine (orderly.fine id)
    intro gone
    by_cases here : (server.conns id).loop_ = loop
    · simp only [card, decide_eq_true_eq, setLoop, here, Function.update_self] at gone
      exact (finished gone.1 gone.2).2 id here
    · simp only [card, decide_eq_true_eq, setLoop, Function.update_of_ne here] at gone
      exact (orderly.fine id).finished (by simp [card, gone])

section Poll
variable (loop : Nat) (active : List Event)

/-- A channel in the interest set is that of an established connection of this loop. -/
theorem reported_established (base : Base server) (id : Nat) (revents : Events)
    (reported : Reported server loop (.connection id revents)) :
    (server.conns id).loop_ = loop ∧ (server.conns id).life = .established := by
  obtain ⟨here, added, _⟩ := reported
  refine ⟨here, ?_⟩
  have fits := base.ready.fits id
  cases life : (server.conns id).life <;> simp_all [Fits]

theorem poll_card (polling : (server.loops loop).phase = .polling) (id : Nat) :
    card (poll server loop active) id = { card server id with
      left := Function.update (card server id).left loop
        (active.countP fun event => eventOf event == some id) } := by
  have waits : ∀ place, tokens id ((poll server loop active).loops place) = tokens id
      (server.loops place) :=
    setLoop_same server loop _ (tokens id) (by simp [tokens, waiting, leftTasks, polling])
  have left : ∀ place, events id ((poll server loop active).loops place) = Function.update
      (card server id).left loop
      (active.countP fun event => eventOf event == some id) place := by
    intro place
    by_cases own : place = loop
    · subst own
      simp only [poll, setLoop, Function.update_self]
      rfl
    · simp only [poll, setLoop, Function.update_of_ne own]
      rfl
  have ended : ∀ place, (((poll server loop active).loops place).phase = .outside) =
      ((server.loops place).phase = .outside) :=
    setLoop_same server loop _ (fun old => old.phase = .outside) (by simp [polling])
  simp only [card, waits, left, ended]
  rfl

theorem poll_orderly (orderly : Orderly server) (polling : (server.loops loop).phase = .polling)
    (distinct : (active.filterMap eventOf).Nodup)
    (reported : ∀ event ∈ active, Reported server loop event) :
    Orderly (poll server loop active) := by
  have watched (id : Nat) (revents : Events) (member : .connection id revents ∈ active) :=
    reported_established server loop orderly.base id revents (reported _ member)
  constructor
  · refine setLoop_base server loop _ orderly.base ?_ (fun _ phase => by cases phase) ?_
      (fun _ _ phase => by cases phase)
    · intro task member
      simp only [waiting, leftTasks, List.nil_append] at member ⊢
      exact List.mem_append_right _ member
    · intro _ left _ id revents member
      obtain ⟨own, established⟩ := watched id revents member
      exact ⟨own, by simp [opened, established], by simp [established]⟩
  · intro id
    have fine := orderly.fine id
    have count : active.countP (fun event => eventOf event == some id) =
        (active.filterMap eventOf).count id := by
      rw [List.count_filterMap]
    rw [poll_card server loop active polling id]
    -- epoll reports a channel once, so there is at most one event for the connection
    apply left_fine fine
    · intro place
      by_cases own : place = loop
      · subst own
        rw [Function.update_self, count]
        exact List.nodup_iff_count_le_one.mp distinct id
      · rw [Function.update_of_ne own]
        exact fine.once place
    · intro place some_
      by_cases own : place = loop
      · subst own
        rw [Function.update_self, count] at some_
        obtain ⟨event, member, named⟩ :=
          List.mem_filterMap.mp (List.count_pos_iff.mp (Nat.pos_of_ne_zero some_))
        cases event with
        | connection other revents =>
            cases named
            exact watched id revents member
        | acceptor => cases named
        | other => cases named
      · rw [Function.update_of_ne own] at some_
        exact fine.dispatched place some_

end Poll

/-- The record of what a loop has taken changes nothing else. -/
theorem record_orderly (taken : Nat → Bool) (orderly : Orderly server) :
    Orderly { server with conns := fun id => { server.conns id with taken := taken id } } := by
  obtain ⟨⟨ready, ids, pool, names, distinct, bound, batch, listed, robin, first, working⟩,
      fine⟩ := orderly
  exact ⟨⟨⟨ready.fits, ready.held⟩, ids, pool, names, distinct, bound, batch, listed, robin, first,
    working⟩, fine⟩

theorem swap_orderly (loop : Nat) (orderly : Orderly server)
    (emptied : (server.loops loop).phase = .dispatching []) :
    Orderly (swap server loop) := by
  have swapped := setLoop_orderly server loop (fun old =>
    { old with
      functors := (server.loops loop).pendingFunctors_
      pendingFunctors_ := []
      phase := .running (server.loops loop).pendingFunctors_ }) orderly
    (by simp [tokens, waiting, leftTasks, emptied]) (by simp [events, leftEvents, emptied])
    (by simp [waiting, leftTasks, emptied]) (by simp) (by simp) (by simp)
  exact record_orderly _ _ swapped

theorem finish_orderly (loop : Nat) (orderly : Orderly server)
    (done : (server.loops loop).phase = .running []) :
    Orderly (finish server loop) := by
  apply setLoop_orderly server loop _ orderly
  · simp [tokens, waiting, leftTasks, done]
  · simp [events, leftEvents, done]
  · simp [waiting, leftTasks, done]
  · simp
  · simp
  · intro _ gone
    cases gone

/-- A loop of the pool that ends drops its queue, when all its connections are destroyed. -/
theorem leaveLoop_orderly (loop : Nat) (orderly : Orderly server)
    (testing : (server.loops loop).phase = .testing)
    (finished : loop ≠ 0 → server.stage ≠ .alive ∧ ∀ id, (server.conns id).loop_ = loop →
      (server.conns id).life = .destroyed) :
    Orderly (leaveLoop server loop) := by
  apply setLoop_orderly server loop _ orderly
  · intro id
    by_cases base : loop = 0
    · subst base
      simp [tokens, waiting, leftTasks, testing]
    · have nothing : tokens id (server.loops loop) = [] := by
        by_cases own : (server.conns id).loop_ = loop
        · have waits : tokens id (server.loops (server.conns id).loop_) = owed (card server id) :=
            (orderly.fine id).own
          have gone : (card server id).life = .destroyed := (finished base).2 id own
          rw [← own, waits]
          simp [owed, Doomed, gone]
        · exact (orderly.fine id).away loop (Ne.symm own) base
      rw [nothing]
      simp [tokens, waiting, leftTasks, base]
  · simp [events, leftEvents, testing]
  · intro task member
    by_cases base : loop = 0
    · subst base
      simpa [waiting, leftTasks, testing] using member
    · simp [waiting, leftTasks, base] at member
  · simp
  · simp
  · exact fun pool _ => finished pool

/-- shutdown() outside the loop stores kDisconnecting while the connection is still connected. -/
def Prompt (owner : User) : Prop :=
  owner.doing = .shuttingDown → (server.conns owner.id).state_ = .kConnected

/-- The side conditions of a step that does not belong to the destructor: on the functor
it runs, on the end of a loop, and on what a thread stores. -/
def Allowed : Action → Prop
  | .functor loop _ => ∀ task left, (server.loops loop).phase = .running (task :: left) →
      Decided server task
  | .test loop => (server.loops loop).quit_ = true → (server.loops loop).phase = .testing →
      loop ≠ 0 →
      server.stage ≠ .alive ∧ ∀ id, (server.conns id).loop_ = loop →
        (server.conns id).life = .destroyed
  | .advance user => ∀ owner ∈ server.users[user]?, Prompt server owner
  | .destroy _ | .destructor _ => False
  | _ => True

theorem loopStep_orderly (loop : Nat) (action : Action) (after : Server) (orderly : Orderly server)
    (turn : loopOf action = some loop) (allowed : Allowed server action)
    (stepped : loopStep server loop action = some after) : Orderly after := by
  cases loopStep_cases server loop action after stepped with
  | loop base phase =>
      subst base
      apply setLoop_orderly server 0 _ orderly
      · simp [tokens, waiting, leftTasks, phase]
      · simp [events, leftEvents, phase]
      · simp [waiting, leftTasks, phase]
      · simp
      · simp
      · exact fun pool => absurd rfl pool
  | leave index phase quitting =>
      cases turn
      exact leaveLoop_orderly server loop orderly phase (allowed quitting phase)
  | test index phase =>
      apply setLoop_orderly server loop _ orderly
      · simp [tokens, waiting, leftTasks, phase]
      · simp [events, leftEvents, phase]
      · simp [waiting, leftTasks, phase]
      · simp
      · simp
      · intro _ gone
        cases gone
  | poll index active phase distinct reported =>
      exact poll_orderly server loop _ orderly phase distinct reported
  | handle index choice event left after phase handled =>
      exact handle_orderly server loop choice event left after orderly phase handled
  | swap index phase => exact swap_orderly server loop orderly phase
  | functor index choice task left phase =>
      cases turn
      exact functor_orderly server loop task left choice orderly phase (allowed task left phase)
  | finish index phase => exact finish_orderly server loop orderly phase

end Loops

/-! Threads that hold a pointer. -/

section Users
variable (server : Server)

theorem users_orderly (users : List User) (orderly : Orderly server)
    (held : ∀ user ∈ users, opened (server.conns user.id).life) :
    Orderly { server with users := users } := by
  obtain ⟨⟨ready, ids, pool, names, distinct, bound, batch, listed, robin, first, working⟩,
      fine⟩ := orderly
  exact ⟨⟨⟨ready.fits, held⟩, ids, pool, names, distinct, bound, batch, listed, robin, first,
    working⟩, fine⟩

theorem setUser_orderly (user id : Nat) (doing : Doing) (orderly : Orderly server)
    (open_ : opened (server.conns id).life) : Orderly (setUser server user id doing) := by
  apply users_orderly server _ orderly
  intro other member
  rcases List.mem_or_eq_of_mem_set member with old | rfl
  · exact orderly.base.ready.held other old
  · exact open_

theorem queue_orderly (loop : Nat) (task : Task) (orderly : Orderly server)
    (none_ : ∀ id, tokenOf id task = none)
    (bound : ∀ id, task = .sendInLoop id ∨ task = .callback id →
      (server.conns id).loop_ = loop ∧ opened (server.conns id).life) : Orderly
        (queueInLoop server loop task) := by
  refine ⟨queue_base server loop task orderly.base bound, fun id => ?_⟩
  rw [card_queue, none_]
  simp only [Option.toList, List.append_nil, Function.update_eq_self]
  exact orderly.fine id

theorem advance_orderly (user : Nat) (owner : User) (after : Server) (orderly : Orderly server)
    (member : owner ∈ server.users) (prompt : Prompt server owner)
    (stepped : advance server user owner.id owner.doing = some after) : Orderly after := by
  have open_ := orderly.base.ready.held owner member
  have set := fun doing => setUser_orderly server user owner.id doing orderly open_
  rcases advance_cases server user owner.id owner.doing after stepped with ⟨_, rfl⟩ |
      ⟨doing, rfl⟩ | ⟨_, rfl⟩
  · apply queue_orderly _ _ _ (set .holding) fun _ => rfl
    rintro id (named | named)
    · cases named
      exact ⟨rfl, open_⟩
    · cases named
  · apply steady_orderly _ _ _ (set .shutDown)
    apply setConn_steady
    · exact ⟨rfl, rfl, rfl, rfl⟩
    · exact disconnecting_fits _ (prompt doing) open_
  · apply queue_orderly _ _ _ (set .holding) fun _ => rfl
    rintro id (named | named) <;> cases named

theorem userStep_orderly (user : Nat) (action : Action) (after : Server) (orderly : Orderly server)
    (turn : userOf action = some user) (allowed : Allowed server action)
    (stepped : userStep server user action = some after) : Orderly after := by
  obtain ⟨owner, found, rfl | ⟨_, rfl⟩ | (rfl | ⟨doing, rfl⟩) | ⟨⟨index, rfl⟩, advanced⟩⟩ :=
    userStep_cases server user action after stepped
  all_goals
    have member := List.mem_of_getElem? found
    have open_ := orderly.base.ready.held owner member
  · apply users_orderly server _ orderly
    intro other inside
    rcases List.mem_append.mp inside with old | new
    · exact orderly.base.ready.held other old
    · rw [List.mem_singleton.mp new]
      exact open_
  · apply users_orderly server _ orderly
    exact fun other inside => orderly.base.ready.held other (List.mem_of_mem_eraseIdx inside)
  · exact orderly
  · exact setUser_orderly server user owner.id doing orderly open_
  · cases turn
    exact advance_orderly server user owner after orderly member (allowed owner found) advanced

theorem step_orderly (action : Action) (after : Server) (orderly : Orderly server)
    (allowed : Allowed server action)
    (stepped : step server action = some after) : Orderly after := by
  rcases step_cases server action after stepped with ⟨loop, turn, _, taken⟩ | ⟨user, turn, taken⟩ |
      ⟨rfl, rfl⟩ |
    ⟨rfl, rfl⟩ | ⟨order, called, rfl, _⟩ | ⟨choice, rfl, _⟩
  · exact loopStep_orderly server loop action after orderly turn allowed taken
  · exact userStep_orderly server user action after orderly turn allowed taken
  · apply setLoop_orderly server 0 _ orderly
    · exact fun _ => rfl
    · exact fun _ => rfl
    · exact fun _ member => member
    · exact fun left phase => orderly.base.batch 0 left phase
    · intro left
      by_cases dispatching : (server.loops 0).phase = .dispatching left
      · exact Or.inr ⟨dispatching, rfl⟩
      · exact Or.inl dispatching
    · exact fun pool => absurd rfl pool
  · apply queue_orderly server 0 .other orderly fun _ => rfl
    rintro id (named | named) <;> cases named
  · exact absurd allowed id
  · exact absurd allowed id

end Users

/-! What is read off a fine life. -/

section Properties
variable (server : Server)

/-- One report of each kind at most, and messages between the two. -/
def InOrder (reports : List Report) : Prop :=
  reports.count (.connection true) ≤ 1 ∧ reports.count (.connection false) ≤ 1 ∧
    ∀ before behind, reports = before ++ .message :: behind →
      .connection true ∈ before ∧ .connection false ∉ before

theorem messages_first (count : Nat) (last before behind : List Report)
    (ends : last = [] ∨ last = [.connection false])
    (same : List.replicate count .message ++ last = before ++ .message :: behind) :
    .connection false ∉ before := by
  induction count generalizing before with
  | zero =>
      rcases ends with rfl | rfl
      · simp at same
      · cases before with
        | nil => simp
        | cons head rest => simp at same
  | succ count ih =>
      cases before with
      | nil => simp
      | cons head rest =>
          rw [List.replicate_succ, List.cons_append, List.cons_append, List.cons.injEq] at same
          rw [← same.1]
          simpa using ih rest same.2

theorem upThenMessages_inOrder (count : Nat) (last : List Report)
    (ends : last = [] ∨ last = [.connection false]) :
    InOrder (upThenMessages count ++ last) := by
  refine ⟨?_, ?_, fun before behind same => ?_⟩
  · rcases ends with rfl | rfl <;> simp [upThenMessages, List.count_replicate]
  · rcases ends with rfl | rfl <;> simp [upThenMessages, List.count_replicate]
  · cases before with
    | nil => simp [upThenMessages] at same
    | cons head rest =>
        rw [upThenMessages, List.cons_append, List.cons_append, List.cons.injEq] at same
        rw [← same.1]
        exact ⟨List.mem_cons_self ..,
          by simpa using messages_first count last rest behind ends same.2⟩

theorem fits_inOrder (conn : TcpConnection) (fits : Fits conn) : InOrder conn.reports := by
  have nothing : InOrder [] := by
    refine ⟨by simp, by simp, fun before behind same => ?_⟩
    simp at same
  unfold Fits at fits
  split at fits
  · rw [fits.2.1]
    exact nothing
  · rw [fits.2.2.2]
    exact nothing
  · obtain ⟨_, _, _, count, reports⟩ := fits
    rw [reports, ← List.append_nil (upThenMessages count)]
    exact upThenMessages_inOrder count [] (Or.inl rfl)
  · obtain ⟨_, _, _, count, reports⟩ := fits
    rw [reports]
    exact upThenMessages_inOrder count _ (Or.inr rfl)
  · obtain ⟨_, _, _, count, reports⟩ := fits
    rw [reports]
    exact upThenMessages_inOrder count _ (Or.inr rfl)

theorem held_counted (loop id : Nat) (bound : loop ≤ server.numThreads)
    (some_ : 0 < held id (server.loops loop)) :
    0 < useCount server id := by
  have member : held id (server.loops loop) ∈
      (List.range (server.numThreads + 1)).map fun place => held id (server.loops place) :=
    List.mem_map_of_mem (List.mem_range.mpr (Nat.lt_succ_of_le bound))
  have bounded := List.single_le_sum (fun _ _ => Nat.zero_le _) _ member
  unfold useCount
  omega

theorem table_counted (id : Nat) (entry : mapped server id = true) : 0 < useCount server id := by
  have member := of_decide_eq_true entry
  have counted : 0 < server.connections_.countP (·.2 == id) :=
    List.countP_pos_iff.mpr ⟨_, member, by simp⟩
  unfold useCount
  omega

/-- What waits in a queue or in the rest of a batch is held by its loop. -/
theorem waiting_held (loop id : Nat) (task : Task) (base : Base server)
    (waits : task ∈ waiting (server.loops loop))
    (owner : owns id task = true) : 0 < held id (server.loops loop) := by
  apply List.countP_pos_iff.mpr
  refine ⟨task, ?_, owner⟩
  rcases List.mem_append.mp waits with left | queued
  · apply List.mem_append_right
    cases phase : (server.loops loop).phase with
    | running rest =>
        rw [phase] at left
        exact (base.batch loop rest phase).subset left
    | _ =>
        rw [phase] at left
        cases left
  · exact List.mem_append_left _ queued

/-- The table, or the connectDestroyed that is to come, holds a live connection. -/
theorem live_counted (id : Nat) (orderly : Orderly server)
    (present : (server.conns id).life ≠ .absent)
    (unfinished : (server.conns id).life ≠ .destroyed) : 0 < useCount server id := by
  cases table : mapped server id with
  | true => exact table_counted server id table
  | false =>
      have fine := orderly.fine id
      have doomed : Doomed (card server id) := ⟨table, present, unfinished⟩
      have waits : Token.destroy ∈ tokens id (server.loops (server.conns id).loop_) := by
        have own : tokens id (server.loops (server.conns id).loop_) = owed (card server id) :=
          fine.own
        rw [own, owed, if_pos doomed]
        simp
      obtain ⟨task, member, token⟩ := List.mem_filterMap.mp waits
      have owner : owns id task = true := by simp [tokenOf_destroy id task token, owns, bound]
      exact held_counted server _ id (orderly.base.pool id)
        (waiting_held server _ id task orderly.base member owner)

def Accepted (id : Nat) : Prop := 1 ≤ id ∧ id < server.nextConnId_

theorem accepted_present (id : Nat) (base : Base server) :
    Accepted server id ↔ (server.conns id).life ≠ .absent := by
  unfold Accepted
  rw [Ne, base.ids id]
  omega

/-- Nobody holds the connection any more: the TcpConnection and its fd are gone. -/
def Released (id : Nat) : Prop := Accepted server id ∧ useCount server id = 0

theorem released_destroyed (id : Nat) (orderly : Orderly server) (released : Released server id) :
    (server.conns id).life = .destroyed := by
  by_contra unfinished
  have present := (accepted_present server id orderly.base).mp released.1
  have counted := live_counted server id orderly present unfinished
  have none_ := released.2
  omega

/-- The lifecycle of the connections of a server that lives. -/
structure WellManaged : Prop where
  callbacks : ∀ id, InOrder (server.conns id).reports
  both : ∀ id, Released server id →
    (server.conns id).reports.count (.connection true) = 1 ∧
    (server.conns id).reports.count (.connection false) = 1
  table : ∀ id, (connName server id, id) ∈ server.connections_ ↔
    Accepted server id ∧ (server.conns id).removed = false
  entries : ∀ entry ∈ server.connections_, entry.1 = connName server entry.2
  destroyed : ∀ id, Released server id →
    (server.conns id).life = .destroyed ∧ (server.conns id).channel_.index = .kNew
  dispatched : ∀ loop left, (server.loops loop).phase = .dispatching left → ∀ id revents,
    .connection id revents ∈ (server.loops loop).activeChannels_ → ¬ Released server id

theorem orderly_wellManaged (orderly : Orderly server) (alive : server.stage = .alive) :
    WellManaged server := by
  have gone := fun id released => released_destroyed server id orderly released
  constructor
  case callbacks => exact fun id => fits_inOrder _ (orderly.base.ready.fits id)
  case both =>
    intro id released
    have fits := orderly.base.ready.fits id
    simp only [Fits, gone id released] at fits
    obtain ⟨_, _, _, count, reports⟩ := fits
    rw [reports]
    simp [upThenMessages, List.count_replicate]
  case table =>
    intro id
    have listed := (orderly.fine id).listed (by simp [alive])
    rw [accepted_present server id orderly.base, ← decide_eq_true_iff (p := _ ∈ _)]
    exact listed
  case entries => exact orderly.base.names
  case destroyed =>
    intro id released
    have fits := orderly.base.ready.fits id
    simp only [Fits, gone id released] at fits
    exact ⟨gone id released, fits.2.1⟩
  case dispatched =>
    intro loop left phase id revents active released
    exact (orderly.base.listed alive loop left phase id revents active).2.2 (gone id released)

end Properties
end MuduoChat.TcpServer
