import MuduoChat.LiveServer

/-!
Functors and the owners of their connection, while the server lives. sendInLoop is
bound to a pointer that owns, shutdownInLoop to `this`. Until a loop has taken the
connectDestroyed of a connection, the table or that functor holds it; after that
only batches and threads do.
-/

namespace MuduoChat.TcpServer
open ConnectionThreads (EPOLLHUP)

/-! How one step changes the number of owners. -/

section Counts
variable (server after : Server) (id : Nat)

theorem useCount_mono (threads : after.numThreads = server.numThreads)
    (table : server.connections_.countP (·.2 == id) ≤ after.connections_.countP (·.2 == id))
    (queues : ∀ loop, held id (server.loops loop) ≤ held id (after.loops loop))
    (users : server.users.countP (·.id == id) ≤ after.users.countP (·.id == id)) :
    useCount server id ≤ useCount after id := by
  have sums : ((List.range (server.numThreads + 1)).map fun loop => held id
      (server.loops loop)).sum ≤
      ((List.range (after.numThreads + 1)).map fun loop => held id (after.loops loop)).sum := by
    rw [threads]
    exact List.sum_le_sum fun loop _ => queues loop
  unfold useCount
  omega

theorem held_more (loop : EventLoop) (more : List Task) :
    held id loop ≤ held id { loop with pendingFunctors_ := loop.pendingFunctors_ ++ more } := by
  simp only [held, List.countP_append]
  omega

theorem queue_more (loop : Nat) (task : Task) :
    useCount server id ≤ useCount (queueInLoop server loop task) id := by
  apply useCount_mono server (queueInLoop server loop task) id rfl
  · exact Nat.le_refl _
  · intro other
    by_cases same : other = loop
    · subst same
      simpa [queueInLoop, setLoop] using held_more id (server.loops other) [task]
    · simp [queueInLoop, setLoop, Function.update_of_ne same]
  · exact Nat.le_refl _

/-- A step of a loop that keeps what its queue and its batch own. -/
theorem setLoop_counts (loop : Nat) (change : EventLoop → EventLoop)
    (same : held id (change (server.loops loop)) = held id (server.loops loop)) :
    useCount (setLoop server loop change) id = useCount server id := by
  have queues := setLoop_same server loop change (held id) same
  simp only [useCount, queues]
  rfl

theorem sum_single (loop count bound : Nat) :
    ((List.range bound).map fun place => if place = loop then count else 0).sum =
      if loop < bound then count else 0 := by
  induction bound with
  | zero => simp
  | succ bound ih =>
      rw [List.range_succ, List.map_append, List.sum_append, ih]
      simp only [List.map_cons, List.map_nil, List.sum_singleton]
      grind

/-- The batch gives up what it owns. -/
theorem finish_counts (loop : Nat) :
    useCount server id ≤ useCount (finish server loop) id + (server.loops loop).functors.countP
      (owns id) := by
  have queues : ∀ other, held id (server.loops other) ≤ held id ((finish server loop).loops other) +
      if other = loop then (server.loops loop).functors.countP (owns id) else 0 := by
    intro other
    by_cases same : other = loop
    · subst same
      simp [finish, setLoop, held, List.countP_append]
    · simp [finish, setLoop, Function.update_of_ne same]
  have sums : ((List.range (server.numThreads + 1)).map fun other => held id
      (server.loops other)).sum ≤
      ((List.range (server.numThreads + 1)).map fun other => held id
        ((finish server loop).loops other)).sum +
        (server.loops loop).functors.countP (owns id) := by
    have added := List.sum_le_sum (l := List.range (server.numThreads + 1)) fun other _ =>
      queues other
    rw [List.sum_map_add, sum_single] at added
    split at added <;> omega
  have same : useCount (finish server loop) id = server.connections_.countP (·.2 == id) +
      ((List.range (server.numThreads + 1)).map fun other => held id
        ((finish server loop).loops other)).sum +
        server.users.countP (·.id == id) := rfl
  rw [same]
  unfold useCount
  omega

/-- A thread goes on with the pointer it holds. -/
theorem setUser_counts (user other : Nat) (owner : User) (doing : Doing)
    (found : server.users[user]? = some owner) :
    useCount (setUser server user owner.id doing) other = useCount server other := by
  obtain ⟨bounded, here⟩ := List.getElem?_eq_some_iff.mp found
  have users : (server.users.set user ⟨owner.id, doing⟩).countP (·.id == other) =
      server.users.countP (·.id == other) := by
    have counted : server.users[user] ∈ server.users := List.getElem_mem bounded
    rw [List.countP_set bounded, here]
    simp only
    split
    · rename_i same
      have positive : 0 < server.users.countP (·.id == other) :=
        List.countP_pos_iff.mpr ⟨_, counted, by rw [here]; exact same⟩
      omega
    · omega
  simp only [useCount, setUser, users]

/-- A thread drops its pointer. -/
theorem drop_counts (user other : Nat) (owner : User) (found : server.users[user]? = some owner) :
    useCount server other = useCount { server with users := server.users.eraseIdx user } other +
      if owner.id = other then 1 else 0 := by
  obtain ⟨bounded, here⟩ := List.getElem?_eq_some_iff.mp found
  have split_ := (List.getElem_cons_eraseIdx_perm bounded).countP_eq (·.id == other)
  rw [here, List.countP_cons] at split_
  simp only [useCount]
  rw [← split_]
  simp only [beq_iff_eq]
  omega

end Counts

/-! What the steps keep. -/

/-- The table holds the connection, or the connectDestroyed that its loop has not taken yet. -/
def Kept (server : Server) (id : Nat) : Prop :=
  (∃ entry ∈ server.connections_, entry.2 = id) ∨
    .connectDestroyed id ∈ (server.loops (server.conns id).loop_).pendingFunctors_

structure Counted (server : Server) : Prop where
  names : ∀ entry ∈ server.connections_, entry.1 = connName server entry.2 ∧ Accepted server entry.2
  tasks : ∀ loop, ∀ task ∈ (server.loops loop).pendingFunctors_ ++ (server.loops loop).functors,
    ∀ id,
    bound task = some id → Accepted server id
  users : ∀ user ∈ server.users, Accepted server user.id
  pool : ∀ id, (server.conns id).loop_ ≤ server.numThreads
  robin : server.next_ < server.numThreads ∨ server.numThreads = 0
  first : 0 < server.nextConnId_
  batch : ∀ loop left, (server.loops loop).phase = .running left →
    left <:+ (server.loops loop).functors
  idle : ∀ loop, (server.loops loop).functors ≠ [] →
    ∃ left, (server.loops loop).phase = .running left
  kept : ∀ id, Accepted server id → (server.conns id).taken = false → Kept server id
  raw : ∀ loop id, .shutdownInLoop id ∈ waiting (server.loops loop) →
    (server.conns id).loop_ = loop ∧ 0 < useCount server id
  quiet : server.deadRun = false

section Primitives
variable (server : Server)

theorem kept_counts (id : Nat) (bounded : (server.conns id).loop_ ≤ server.numThreads)
    (kept : Kept server id) :
    0 < useCount server id := by
  rcases kept with ⟨entry, member, same⟩ | queued
  · have counted : 0 < server.connections_.countP (·.2 == id) :=
      List.countP_pos_iff.mpr ⟨entry, member, by simp [same]⟩
    unfold useCount
    omega
  · apply held_counted server _ id bounded
    exact List.countP_pos_iff.mpr ⟨_, List.mem_append_left _ queued, by simp [owns, bound]⟩

/-- Who has an owner has been accepted. -/
theorem counted_accepted (id : Nat) (counted : Counted server) (some_ : useCount server id ≠ 0) :
    Accepted server id := by
  by_contra unknown
  apply some_
  have table : server.connections_.countP (·.2 == id) = 0 := by
    rw [List.countP_eq_zero]
    intro entry member same
    rw [beq_iff_eq] at same
    exact unknown (same ▸ (counted.names entry member).2)
  have queues : ∀ loop, held id (server.loops loop) = 0 := by
    intro loop
    rw [held, List.countP_eq_zero]
    intro task member owner
    simp only [owns, Bool.and_eq_true, beq_iff_eq] at owner
    exact unknown (counted.tasks loop task member id owner.1)
  have users : server.users.countP (·.id == id) = 0 := by
    rw [List.countP_eq_zero]
    intro user member same
    rw [beq_iff_eq] at same
    exact unknown (same ▸ counted.users user member)
  simp [useCount, table, queues, users]

/-- A change of a connection that keeps its loop, and of the record of TcpServer's use. -/
theorem setConn_counted (id : Nat) (change : TcpConnection → TcpConnection)
    (counted : Counted server)
    (kept : (change (server.conns id)).loop_ = (server.conns id).loop_ ∧
      (change (server.conns id)).taken = (server.conns id).taken) : Counted
        (setConn server id change) := by
  have conns : ∀ other, ((setConn server id change).conns other).loop_ =
      (server.conns other).loop_ ∧
      ((setConn server id change).conns other).taken = (server.conns other).taken := by
    intro other
    by_cases same : other = id
    · subst same
      simpa [setConn] using kept
    · simp [setConn, Function.update_of_ne same]
  obtain ⟨names, tasks, users, pool, robin, first, batch, idle, held, raw, quiet⟩ := counted
  constructor
  case names => exact names
  case tasks => exact tasks
  case users => exact users
  case pool =>
    intro other
    rw [(conns other).1]
    exact pool other
  case robin => exact robin
  case first => exact first
  case batch => exact batch
  case idle => exact idle
  case kept =>
    intro other accepted untaken
    rw [(conns other).2] at untaken
    have before := held other accepted untaken
    unfold Kept at before ⊢
    rw [(conns other).1]
    exact before
  case raw =>
    intro loop other member
    rw [(conns other).1]
    exact raw loop other member
  case quiet => exact quiet

theorem touch_counted (counted : Counted server) : Counted (touch server) := by
  obtain ⟨names, tasks, users, pool, robin, first, batch, idle, held, raw, quiet⟩ := counted
  exact ⟨names, tasks, users, pool, robin, first, batch, idle, held, raw, quiet⟩

/-- A functor of an accepted connection is queued; a raw one while the connection has an owner. -/
theorem queue_counted (loop : Nat) (task : Task) (counted : Counted server)
    (known : ∀ id, bound task = some id → Accepted server id)
    (raw : ∀ id, task = .shutdownInLoop id → (server.conns id).loop_ = loop ∧
      0 < useCount server id) :
    Counted (queueInLoop server loop task) := by
  have phases : ∀ other, ((queueInLoop server loop task).loops other).phase =
      (server.loops other).phase ∧
      ((queueInLoop server loop task).loops other).functors = (server.loops other).functors :=
    fun other => ⟨setLoop_same server loop _ (·.phase) rfl other,
      setLoop_same server loop _ (·.functors) rfl other⟩
  have queues : ∀ other queued, queued ∈
      ((queueInLoop server loop task).loops other).pendingFunctors_ ↔
      queued ∈ (server.loops other).pendingFunctors_ ∨ other = loop ∧ queued = task := by
    intro other queued
    by_cases same : other = loop
    · subst same
      simp [queueInLoop, setLoop]
    · simp [queueInLoop, setLoop, same]
  constructor
  case names => exact counted.names
  case tasks =>
    intro other queued member id named
    rw [List.mem_append, queues, (phases other).2] at member
    rcases member with (old | ⟨_, rfl⟩) | running
    · exact counted.tasks other queued (List.mem_append_left _ old) id named
    · exact known id named
    · exact counted.tasks other queued (List.mem_append_right _ running) id named
  case users => exact counted.users
  case pool => exact counted.pool
  case robin => exact counted.robin
  case first => exact counted.first
  case batch =>
    intro other left phase
    rw [(phases other).1] at phase
    rw [(phases other).2]
    exact counted.batch other left phase
  case idle =>
    intro other some_
    rw [(phases other).2] at some_
    rw [(phases other).1]
    exact counted.idle other some_
  case kept =>
    intro id accepted untaken
    rcases counted.kept id accepted untaken with table | queued
    · exact Or.inl table
    · exact Or.inr ((queues _ _).mpr (Or.inl queued))
  case raw =>
    intro other id member
    rw [waiting, List.mem_append, queues, (phases other).1] at member
    have more := queue_more server id loop task
    have before : (server.conns id).loop_ = other ∧ 0 < useCount server id := by
      rcases member with left | old | ⟨rfl, same⟩
      · exact counted.raw other id (List.mem_append_left _ left)
      · exact counted.raw other id (List.mem_append_right _ old)
      · exact raw id same.symm
    exact ⟨before.1, by omega⟩
  case quiet => exact counted.quiet

/-- User code keeps a pointer. -/
theorem keep_counted (user : User) (counted : Counted server) (known : Accepted server user.id) :
    Counted { server with users := server.users ++ [user] } := by
  have more : ∀ id, useCount server id ≤
      useCount { server with users := server.users ++ [user] } id := by
    intro id
    apply useCount_mono
    · rfl
    · exact Nat.le_refl _
    · exact fun _ => Nat.le_refl _
    · simp only [List.countP_append]
      omega
  obtain ⟨names, tasks, users, pool, robin, first, batch, idle, held, raw, quiet⟩ := counted
  constructor
  case names => exact names
  case tasks => exact tasks
  case users =>
    intro other member
    rcases List.mem_append.mp member with old | new
    · exact users other old
    · rw [List.mem_singleton.mp new]
      exact known
  case pool => exact pool
  case robin => exact robin
  case first => exact first
  case batch => exact batch
  case idle => exact idle
  case kept => exact held
  case raw =>
    intro loop id member
    have before := raw loop id member
    exact ⟨before.1, Nat.lt_of_lt_of_le before.2 (more id)⟩
  case quiet => exact quiet

/-- The table gives a connection up that the connectDestroyed in the queue holds. -/
theorem erase_counted (id : Nat) (counted : Counted server)
    (stays : .connectDestroyed id ∈ (server.loops (server.conns id).loop_).pendingFunctors_) :
    Counted (erase server id) := by
  have others : ∀ entry ∈ server.connections_, entry.2 ≠ id →
      entry ∈ (erase server id).connections_ := by
    intro entry member different
    have apart : entry.1 ≠ connName server id := by
      rw [(counted.names entry member).1]
      exact fun equal => different (connName_injective server _ _ equal)
    exact List.mem_filter.mpr ⟨member, by simp [apart]⟩
  have counts : ∀ other, 0 < useCount server other → 0 < useCount (erase server id) other := by
    intro other some_
    by_cases own : other = id
    · subst own
      exact kept_counts (erase server other) other (counted.pool other) (Or.inr stays)
    · apply Nat.lt_of_lt_of_le some_
      apply useCount_mono
      · rfl
      · simp only [erase, List.countP_filter]
        apply List.countP_mono_left
        intro entry member same
        rw [beq_iff_eq] at same
        have inside := (List.mem_filter.mp (others entry member (same ▸ own))).2
        simpa [same] using inside
      · exact fun _ => Nat.le_refl _
      · exact Nat.le_refl _
  obtain ⟨names, tasks, users, pool, robin, first, batch, idle, held, raw, quiet⟩ := counted
  constructor
  case names => exact fun entry member => names entry (List.mem_filter.mp member).1
  case tasks => exact tasks
  case users => exact users
  case pool => exact pool
  case robin => exact robin
  case first => exact first
  case batch => exact batch
  case idle => exact idle
  case kept =>
    intro other accepted untaken
    by_cases own : other = id
    · subst own
      exact Or.inr stays
    · rcases held other accepted untaken with ⟨entry, member, rfl⟩ | waits
      · exact Or.inl ⟨entry, others entry member own, rfl⟩
      · exact Or.inr waits
  case raw =>
    intro loop other member
    have before := raw loop other member
    exact ⟨before.1, counts other before.2⟩
  case quiet => exact quiet

theorem removeConnectionInLoop_counted (id : Nat) (counted : Counted server)
    (known : Accepted server id) :
    Counted (removeConnectionInLoop server id) := by
  have flagged : Counted (setConn server id fun conn => { conn with removed := true }) :=
    setConn_counted server id _ counted ⟨rfl, rfl⟩
  have queued := queue_counted _ (server.conns id).loop_ (.connectDestroyed id) flagged
    (fun other named => by cases named; exact known) (by simp)
  apply erase_counted _ id (touch_counted _ queued)
  simp [touch, queueInLoop, setLoop, setConn]

end Primitives

/-- A handler or functor is run for an accepted connection. -/
structure Tended (server : Server) (id : Nat) : Prop where
  counted : Counted server
  known : Accepted server id

section Handlers
variable (server : Server)

theorem conn_tended (id self : Nat) (change : TcpConnection → TcpConnection)
    (tended : Tended server self)
    (kept : (change (server.conns id)).loop_ = (server.conns id).loop_ ∧
      (change (server.conns id)).taken = (server.conns id).taken) : Tended
        (setConn server id change) self :=
  ⟨setConn_counted server id change tended.counted kept, tended.known⟩

theorem tell_tended (loop id self : Nat) (told : Bool) (tended : Tended server self)
    (known : Accepted server id) :
    Tended (tell server loop id told) self := by
  unfold tell
  split
  · refine ⟨queue_counted server loop (.callback id) tended.counted ?_ ?_, tended.known⟩
    · intro other named
      cases named
      exact known
    · intro other named
      cases named
  · exact tended

theorem sendInLoop_tended (loop id self : Nat) (rest told : Bool) (tended : Tended server self)
    (known : Accepted server id) : Tended (sendInLoop server loop id rest told) self := by
  unfold sendInLoop
  split
  · exact tended
  · have wrote : Tended (setConn server id (enableWriting rest)) self := by
      apply conn_tended server id self _ tended
      unfold enableWriting
      split <;> exact ⟨rfl, rfl⟩
    exact tell_tended _ loop id self told wrote known

theorem call_tended (loop self : Nat) (next : Call) (tended : Tended server self) :
    Tended (call server loop self next) self := by
  have usable : ∀ id, permitted server loop self id → Accepted server id := by
    rintro id ⟨_, rfl | ⟨user, member, rfl⟩⟩
    · exact tended.known
    · exact tended.counted.users user member
  cases next with
  | send id rest told =>
      simp only [call]
      split
      · rename_i allowed
        exact sendInLoop_tended server loop id self rest told tended (usable id allowed.1)
      · exact tended
  | shutdown id =>
      simp only [call]
      split
      · apply conn_tended server id self _ tended
        unfold shutdownWrite
        split <;> exact ⟨rfl, rfl⟩
      · exact tended
  | keep id =>
      simp only [call]
      split
      · rename_i allowed
        exact ⟨keep_counted server ⟨id, .holding⟩ tended.counted (usable id allowed), tended.known⟩
      · exact tended

theorem callAll_tended (loop self : Nat) (calls : List Call) (tended : Tended server self) :
    Tended (callAll server loop self calls) self := by
  induction calls generalizing server with
  | nil => exact tended
  | cons next rest ih => exact ih _ (call_tended server loop self next tended)

theorem connectEstablished_tended (loop id : Nat) (choice : Choice) (tended : Tended server id) :
    Tended (connectEstablished server loop id choice) id :=
  callAll_tended _ loop id choice.calls (conn_tended server id id established tended ⟨rfl, rfl⟩)

theorem connectDestroyed_tended (loop id : Nat) (choice : Choice) (tended : Tended server id) :
    Tended (connectDestroyed server loop id choice) id := by
  unfold connectDestroyed
  split
  · have told := callAll_tended _ loop id choice.calls
      (conn_tended server id id disconnected tended ⟨rfl, rfl⟩)
    exact conn_tended _ id id removed told ⟨rfl, rfl⟩
  · exact conn_tended server id id removed tended ⟨rfl, rfl⟩

theorem handleClose_tended (loop id : Nat) (choice : Choice) (tended : Tended server id) :
    Tended (handleClose server loop id choice) id := by
  have told := callAll_tended _ loop id choice.calls
    (conn_tended server id id disconnected tended ⟨rfl, rfl⟩)
  unfold handleClose
  generalize callAll (setConn server id disconnected) loop id choice.calls = current at told
  unfold removeConnection
  split
  · exact ⟨removeConnectionInLoop_counted current id told.counted told.known, told.known⟩
  · refine ⟨queue_counted _ 0 (.removeConnectionInLoop id)
      (touch_counted current told.counted) ?_ ?_, told.known⟩
    · intro other named
      cases named
      exact told.known
    · intro other named
      cases named

theorem handleRead_tended (loop id : Nat) (choice : Choice) (tended : Tended server id) :
    Tended (handleRead server loop id choice) id := by
  unfold handleRead
  split
  · exact callAll_tended _ loop id choice.calls
      (conn_tended server id id messageCallback tended ⟨rfl, rfl⟩)
  · split
    · exact handleClose_tended server loop id choice tended
    · exact tended

theorem handleWrite_tended (loop id : Nat) (choice : Choice) (tended : Tended server id) :
    Tended (handleWrite server loop id choice) id := by
  unfold handleWrite
  split
  · have quiet := conn_tended server id id (channel .disableWriting) tended ⟨rfl, rfl⟩
    have told := tell_tended _ loop id id choice.told quiet quiet.known
    simp only
    split
    · apply conn_tended _ id id shutdownWrite told
      unfold shutdownWrite
      split <;> exact ⟨rfl, rfl⟩
    · exact told
  · exact tended

theorem handleEvent_tended (loop id : Nat) (revents : EPollPoller.Events) (choice : Choice)
    (tended : Tended server id) :
    Tended (handleEvent server loop id revents choice) id := by
  have reported : ∀ current told callback, Tended current id →
      (∀ next, Tended next id → Tended (callback next) id) →
        Tended (whenever current told callback) id := by
    intro current told callback before kept
    unfold whenever
    split
    · exact kept current before
    · exact before
  unfold handleEvent
  apply reported
  · apply reported
    · exact reported _ _ _ tended fun next => handleClose_tended next loop id choice
    · exact fun next => handleRead_tended next loop id choice
  · exact fun next => handleWrite_tended next loop id choice

theorem accepted_older (id : Nat) (known : Accepted server id) : id ≠ server.nextConnId_ := by
  rintro rfl
  exact Nat.lt_irrefl _ known.2

theorem accepted_later (choice : Choice) (id : Nat) (known : Accepted server id) :
    Accepted (insertConnection server choice) id :=
  ⟨known.1, Nat.lt_succ_of_lt known.2⟩

/-- The name is new, since its number is above every number in the table: `erase` finds nothing. -/
theorem inserted_table (choice : Choice) (counted : Counted server) :
    (insertConnection server choice).connections_ =
      server.connections_ ++ [(connName server server.nextConnId_, server.nextConnId_)] := by
  simp only [insertConnection, erase]
  rw [nextLoop_frame server]
  congr 1
  rw [List.filter_eq_self]
  intro entry member
  obtain ⟨named, known⟩ := counted.names entry member
  simp only [ne_eq, decide_not, Bool.not_eq_true', decide_eq_false_iff_not, named]
  exact fun equal => accepted_older server _ known (connName_injective server _ _ equal)

theorem inserted_kept (choice : Choice) (counted : Counted server) (id : Nat)
    (accepted : Accepted (insertConnection server choice) id)
    (untaken : ((insertConnection server choice).conns id).taken = false) :
    Kept (insertConnection server choice) id := by
  have table := inserted_table server choice counted
  by_cases new : id = server.nextConnId_
  · exact Or.inl ⟨_, by rw [table]; exact List.mem_append_right _ (List.mem_singleton_self _),
      new.symm⟩
  · have before : Accepted server id := by
      have next : (insertConnection server choice).nextConnId_ = server.nextConnId_ + 1 := rfl
      unfold Accepted at accepted ⊢
      omega
    rw [inserted_conns server choice id new] at untaken
    unfold Kept
    rw [inserted_conns server choice id new, (inserted_frame server choice).1, table]
    rcases counted.kept id before untaken with ⟨entry, member, same⟩ | queued
    · exact Or.inl ⟨entry, List.mem_append_left _ member, same⟩
    · exact Or.inr queued

/-- newConnection: no functor, thread or entry of the table is of the new connection yet. -/
theorem insertConnection_tended (choice : Choice) (counted : Counted server) :
    Tended (insertConnection server choice) server.nextConnId_ := by
  have frame := nextLoop_frame server
  have robins := nextLoop_bound server counted.robin
  have fresh : Accepted (insertConnection server choice) server.nextConnId_ :=
    ⟨counted.first, Nat.lt_succ_self _⟩
  obtain ⟨loops, threads, users, _, named⟩ := inserted_frame server choice
  have table := inserted_table server choice counted
  have counts : ∀ id, useCount server id ≤ useCount (insertConnection server choice) id := by
    intro id
    apply useCount_mono
    · exact threads
    · rw [table, List.countP_append]
      omega
    · intro loop
      rw [loops]
    · rw [users]
  refine ⟨?_, fresh⟩
  constructor
  case names =>
    intro entry member
    rw [named]
    rw [table] at member
    rcases List.mem_append.mp member with old | new
    · obtain ⟨name, known⟩ := counted.names entry old
      exact ⟨name, accepted_later server choice _ known⟩
    · rw [List.mem_singleton.mp new]
      exact ⟨rfl, fresh⟩
  case tasks =>
    intro loop task member id named
    rw [loops] at member
    exact accepted_later server choice id (counted.tasks loop task member id named)
  case users =>
    intro user member
    rw [users] at member
    exact accepted_later server choice _ (counted.users user member)
  case pool =>
    intro id
    rw [threads]
    by_cases new : id = server.nextConnId_
    · subst new
      simp only [insertConnection, Function.update_self]
      exact robins.1
    · rw [inserted_conns server choice id new]
      exact counted.pool id
  case robin =>
    rw [threads]
    exact robins.2
  case first => exact Nat.succ_pos _
  case batch =>
    rw [loops]
    exact counted.batch
  case idle =>
    rw [loops]
    exact counted.idle
  case kept => exact inserted_kept server choice counted
  case raw =>
    intro loop id member
    rw [loops] at member
    have before := counted.raw loop id member
    have known : Accepted server id := counted_accepted server id counted (by omega)
    rw [inserted_conns server choice id (accepted_older server id known)]
    exact ⟨before.1, Nat.lt_of_lt_of_le before.2 (counts id)⟩
  case quiet =>
    simp only [insertConnection, erase]
    rw [frame]
    exact counted.quiet

theorem newConnection_counted (choice : Choice) (counted : Counted server) :
    Counted (newConnection server choice) := by
  have inserted := insertConnection_tended server choice counted
  unfold newConnection
  simp only
  split
  · exact (connectEstablished_tended _ 0 _ choice inserted).counted
  · apply queue_counted _ _ _ inserted.counted
    · intro other named
      cases named
      exact inserted.known
    · intro other named
      cases named

theorem runTask_counted (loop : Nat) (choice : Choice) (task : Task) (counted : Counted server)
    (known : ∀ id, bound task = some id → Accepted server id) :
    Counted (runTask server loop choice task) := by
  cases task with
  | connectEstablished id =>
      exact (connectEstablished_tended server loop id choice ⟨counted, known id rfl⟩).counted
  | connectDestroyed id =>
      exact (connectDestroyed_tended server loop id choice ⟨counted, known id rfl⟩).counted
  | removeConnectionInLoop id =>
      exact removeConnectionInLoop_counted server id counted (known id rfl)
  | sendInLoop id =>
      exact (sendInLoop_tended server loop id id _ _ ⟨counted, known id rfl⟩ (known id rfl)).counted
  | shutdownInLoop id =>
      apply setConn_counted server id _ counted
      unfold shutdownWrite
      split <;> exact ⟨rfl, rfl⟩
  | callback id =>
      exact (callAll_tended server loop id choice.calls ⟨counted, known id rfl⟩).counted
  | other => exact counted

theorem handle_counted (loop : Nat) (choice : Choice) (event : Event) (after : Server)
    (counted : Counted server)
    (handled : handle server loop choice event = some after) : Counted after := by
  cases event with
  | acceptor =>
      simp only [handle] at handled
      split at handled
      · cases handled
        exact touch_counted server counted
      · split at handled
        · cases handled
          exact newConnection_counted server choice counted
        · cases handled
  | connection id revents =>
      simp only [handle] at handled
      split at handled
      · cases handled
      · rename_i owned_
        cases handled
        have known := counted_accepted server id counted owned_
        exact (handleEvent_tended server loop id revents choice ⟨counted, known⟩).counted
  | other =>
      cases handled
      exact counted

end Handlers

/-! The steps of the loops and of the threads. -/

section Loops
variable (server : Server)

/-- A loop goes on in its lists. -/
theorem setLoop_counted (loop : Nat) (change : EventLoop → EventLoop) (counted : Counted server)
    (queue : (change (server.loops loop)).pendingFunctors_ = (server.loops loop).pendingFunctors_)
    (functors : (change (server.loops loop)).functors = (server.loops loop).functors)
    (fewer : ∀ task ∈ leftTasks (change (server.loops loop)).phase,
      task ∈ leftTasks (server.loops loop).phase)
    (batch : ∀ left, (change (server.loops loop)).phase = .running left →
      left <:+ (server.loops loop).functors)
    (idle : (server.loops loop).functors ≠ [] → ∃ left,
      (change (server.loops loop)).phase = .running left) :
    Counted (setLoop server loop change) := by
  have counts : ∀ id, useCount (setLoop server loop change) id = useCount server id := by
    intro id
    apply setLoop_counts
    rw [held, held, queue, functors]
  have same : ∀ other, ((setLoop server loop change).loops other).pendingFunctors_ =
      (server.loops other).pendingFunctors_ ∧
      ((setLoop server loop change).loops other).functors = (server.loops other).functors :=
    fun other => ⟨setLoop_same server loop change (·.pendingFunctors_) queue other,
      setLoop_same server loop change (·.functors) functors other⟩
  constructor
  case names => exact counted.names
  case tasks =>
    intro other
    rw [(same other).1, (same other).2]
    exact counted.tasks other
  case users => exact counted.users
  case pool => exact counted.pool
  case robin => exact counted.robin
  case first => exact counted.first
  case batch =>
    intro other left phase
    rw [(same other).2]
    by_cases here : other = loop
    · subst here
      simp only [setLoop, Function.update_self] at phase
      exact batch left phase
    · simp only [setLoop, Function.update_of_ne here] at phase
      exact counted.batch other left phase
  case idle =>
    intro other some_
    rw [(same other).2] at some_
    by_cases here : other = loop
    · subst here
      simpa [setLoop] using idle some_
    · simpa [setLoop, Function.update_of_ne here] using counted.idle other some_
  case kept =>
    intro id accepted untaken
    have before := counted.kept id accepted untaken
    unfold Kept at before ⊢
    have place : ((setLoop server loop change).conns id).loop_ = (server.conns id).loop_ := rfl
    rw [place, (same _).1]
    exact before
  case raw =>
    intro other id member
    rw [counts]
    apply counted.raw other id
    rw [waiting, List.mem_append, (same other).1] at member
    rcases member with left | queued
    · apply List.mem_append_left
      by_cases here : other = loop
      · subst here
        simp only [setLoop, Function.update_self] at left
        exact fewer _ left
      · simpa [setLoop, Function.update_of_ne here] using left
    · exact List.mem_append_right _ queued
  case quiet => exact counted.quiet

/-- A loop has taken what waited: the batch owns what the queue owned. -/
theorem swap_counted (loop : Nat) (counted : Counted server)
    (emptied : (server.loops loop).phase = .dispatching []) :
    Counted (swap server loop) := by
  have unused : (server.loops loop).functors = [] := by
    by_contra some_
    obtain ⟨left, phase⟩ := counted.idle loop some_
    rw [emptied] at phase
    cases phase
  have here : (swap server loop).loops loop = { server.loops loop with
      functors := (server.loops loop).pendingFunctors_
      pendingFunctors_ := []
      phase := .running (server.loops loop).pendingFunctors_ } := by
    simp [swap, setLoop]
  have away : ∀ other, other ≠ loop → (swap server loop).loops other = server.loops other := by
    intro other different
    simp [swap, setLoop, Function.update_of_ne different]
  -- the functors only change their place: the batch was empty, so no owner is lost or won
  have counts : ∀ id, useCount (swap server loop) id = useCount server id := by
    intro id
    exact setLoop_counts server id loop (fun old =>
      { old with
        functors := (server.loops loop).pendingFunctors_
        pendingFunctors_ := []
        phase := .running (server.loops loop).pendingFunctors_ }) (by simp [held, unused])
  constructor
  case names => exact counted.names
  case tasks =>
    intro other task member
    by_cases same : other = loop
    · subst same
      rw [here] at member
      exact counted.tasks other task (List.mem_append_left _ member)
    · rw [away other same] at member
      exact counted.tasks other task member
  case users => exact counted.users
  case pool => exact counted.pool
  case robin => exact counted.robin
  case first => exact counted.first
  case batch =>
    intro other left phase
    by_cases same : other = loop
    · subst same
      rw [here] at phase ⊢
      cases phase
      exact List.suffix_refl _
    · rw [away other same] at phase ⊢
      exact counted.batch other left phase
  case idle =>
    intro other some_
    by_cases same : other = loop
    · subst same
      rw [here]
      exact ⟨_, rfl⟩
    · rw [away other same] at some_ ⊢
      exact counted.idle other some_
  case kept =>
    intro id accepted untaken
    simp only [swap, Bool.or_eq_false_iff, decide_eq_false_iff_not] at untaken
    rcases counted.kept id accepted untaken.1 with table | queued
    · exact Or.inl table
    · have place : ((swap server loop).conns id).loop_ = (server.conns id).loop_ := rfl
      have elsewhere : (server.conns id).loop_ ≠ loop := by
        intro same
        rw [same] at queued
        exact untaken.2 queued
      right
      rw [place, away _ elsewhere]
      exact queued
  case raw =>
    intro other id member
    rw [counts]
    apply counted.raw other id
    by_cases same : other = loop
    · subst same
      rw [here] at member
      simpa [waiting, leftTasks, emptied] using member
    · rw [away other same] at member
      exact member
  case quiet => exact counted.quiet

/-- A raw functor still waits for a connection whose connectDestroyed its loop has taken. -/
def Late (id : Nat) : Prop :=
  (server.conns id).taken = true ∧
    .shutdownInLoop id ∈ waiting (server.loops (server.conns id).loop_)

instance (id : Nat) : Decidable (Late server id) := inferInstanceAs (Decidable (_ ∧ _))

/-- A thread or a batch that gives up the last pointer to a connection does not do so
while a late raw functor of it waits. -/
def Lasting : Action → Prop
  | .drop user => ∀ owner ∈ server.users[user]?, Late server owner.id → 1 < useCount server owner.id
  | .finish loop => ∀ id < server.nextConnId_, Late server id →
      (server.loops loop).functors.countP (owns id) < useCount server id
  | _ => True

instance : DecidablePred (Lasting server)
  | .drop user => inferInstanceAs
      (Decidable (∀ owner ∈ server.users[user]?, Late server owner.id →
      1 < useCount server owner.id))
  | .finish loop => inferInstanceAs (Decidable (∀ id < server.nextConnId_, Late server id →
      (server.loops loop).functors.countP (owns id) < useCount server id))
  | .loop | .test _ | .poll _ _ | .handle _ _ | .swap _ | .functor _ _ | .quitBase | .queueOther
  | .copy _ | .send _
  | .shutdown _ | .advance _ | .destroy _ | .destructor _ => isTrue trivial

/-- A batch ends; of a connection with a late raw functor it was not the last owner. -/
theorem finish_counted (loop : Nat) (counted : Counted server)
    (done : (server.loops loop).phase = .running [])
    (lasting : ∀ id < server.nextConnId_, Late server id →
      (server.loops loop).functors.countP (owns id) < useCount server id) : Counted
        (finish server loop) := by
  have here : (finish server loop).loops loop =
      { server.loops loop with functors := [], phase := .testing } := by
    simp [finish, setLoop]
  have away : ∀ other, other ≠ loop → (finish server loop).loops other = server.loops other := by
    intro other different
    simp [finish, setLoop, Function.update_of_ne different]
  have queues : ∀ other, ((finish server loop).loops other).pendingFunctors_ =
      (server.loops other).pendingFunctors_ := by
    intro other
    by_cases same : other = loop
    · subst same
      rw [here]
    · rw [away other same]
  -- an owner that the connection still needs is never in the batch that is thrown away
  have kept : ∀ id, Accepted server id → (server.conns id).taken = false →
      Kept (finish server loop) id := by
    intro id accepted untaken
    rcases counted.kept id accepted untaken with table | queued
    · exact Or.inl table
    · right
      have place : ((finish server loop).conns id).loop_ = (server.conns id).loop_ := rfl
      rw [place, queues]
      exact queued
  constructor
  case names => exact counted.names
  case tasks =>
    intro other task member
    rw [queues] at member
    apply counted.tasks other task
    rcases List.mem_append.mp member with queued | running
    · exact List.mem_append_left _ queued
    · by_cases same : other = loop
      · subst same
        rw [here] at running
        cases running
      · rw [away other same] at running
        exact List.mem_append_right _ running
  case users => exact counted.users
  case pool => exact counted.pool
  case robin => exact counted.robin
  case first => exact counted.first
  case batch =>
    intro other left phase
    by_cases same : other = loop
    · subst same
      rw [here] at phase
      cases phase
    · rw [away other same] at phase ⊢
      exact counted.batch other left phase
  case idle =>
    intro other some_
    by_cases same : other = loop
    · subst same
      rw [here] at some_
      exact absurd rfl some_
    · rw [away other same] at some_ ⊢
      exact counted.idle other some_
  case kept => exact kept
  case raw =>
    intro other id member
    have before : .shutdownInLoop id ∈ waiting (server.loops other) := by
      by_cases same : other = loop
      · subst same
        rw [here] at member
        exact List.mem_append_right _ member
      · rwa [away other same] at member
    obtain ⟨place, some_⟩ := counted.raw other id before
    refine ⟨place, ?_⟩
    have known := counted_accepted server id counted (by omega)
    cases taken : (server.conns id).taken with
    | false => exact kept_counts (finish server loop) id (counted.pool id) (kept id known taken)
    | true =>
        have others := lasting id known.2 ⟨taken, by rw [place]; exact before⟩
        have share := finish_counts server id loop
        omega
  case quiet => exact counted.quiet

/-- The functor taken from a batch has an owner. -/
theorem popped_counted (loop : Nat) (task : Task) (left : List Task) (counted : Counted server)
    (bounded : loop ≤ server.numThreads)
    (next : (server.loops loop).phase = .running (task :: left)) :
    Counted (popped server loop task left) ∧ ∀ id, bound task = some id → Accepted server id := by
  have suffix := counted.batch loop (task :: left) next
  have inside : task ∈ (server.loops loop).functors := suffix.subset (List.mem_cons_self ..)
  have owned_ : ∀ id, bound task = some id → 0 < useCount server id := by
    intro id named
    by_cases raw : task = .shutdownInLoop id
    · exact (counted.raw loop id (by simp [waiting, leftTasks, next, raw])).2
    · apply held_counted server loop id bounded
      exact List.countP_pos_iff.mpr ⟨task, List.mem_append_right _ inside,
        by simp [owns, named, raw]⟩
  have alive : (checkOwner server task).deadRun = false := by
    simp only [checkOwner, counted.quiet, Bool.false_or]
    cases named : bound task with
    | none => rfl
    | some id =>
        have positive := owned_ id named
        simp only [Option.any_some, beq_eq_false_iff_ne]
        omega
  have checked : Counted (checkOwner server task) := by
    obtain ⟨names, tasks, users, pool, robin, first, batch, idle, held, raw, quiet⟩ := counted
    exact ⟨names, tasks, users, pool, robin, first, batch, idle, held, raw, alive⟩
  constructor
  · apply setLoop_counted (checkOwner server task) loop
      (fun old => { old with phase := .running left }) checked
    · rfl
    · rfl
    · intro queued member
      have before : (checkOwner server task).loops loop = server.loops loop := rfl
      rw [before, next]
      exact List.mem_cons_of_mem task member
    · intro rest same
      cases same
      exact (List.suffix_cons task left).trans suffix
    · exact fun _ => ⟨left, rfl⟩
  · exact fun id named => counted.tasks loop task (List.mem_append_right _ inside) id named

/-- Between two batches a loop may go on to another phase and set its flags. -/
theorem between_counted (loop : Nat) (change : EventLoop → EventLoop) (counted : Counted server)
    (before : ∀ left, (server.loops loop).phase ≠ .running left)
    (queue : (change (server.loops loop)).pendingFunctors_ = (server.loops loop).pendingFunctors_)
    (functors : (change (server.loops loop)).functors = (server.loops loop).functors)
    (later : ∀ left, (change (server.loops loop)).phase ≠ .running left) :
    Counted (setLoop server loop change) := by
  apply setLoop_counted server loop change counted queue functors
  · intro task member
    cases phase : (change (server.loops loop)).phase with
    | running left => exact absurd phase (later left)
    | _ => simp [phase, leftTasks] at member
  · exact fun left phase => absurd phase (later left)
  · intro some_
    obtain ⟨left, phase⟩ := counted.idle loop some_
    exact absurd phase (before left)

theorem loopStep_counted (loop : Nat) (action : Action) (after : Server) (counted : Counted server)
    (bounded : loop ≤ server.numThreads) (running : loop ≠ 0 → (server.loops loop).quit_ = false)
    (turn : loopOf action = some loop) (lasting : Lasting server action)
    (stepped : loopStep server loop action = some after) : Counted after := by
  cases loopStep_cases server loop action after stepped with
  | loop base phase =>
      subst base
      exact between_counted server 0 _ counted (by simp [phase]) rfl rfl (by simp)
  | leave index phase quitting =>
      have zero : loop = 0 := by
        by_contra pool
        rw [running pool] at quitting
        cases quitting
      subst zero
      exact between_counted server 0 _ counted (by simp [phase]) rfl rfl (by simp)
  | test index phase =>
      exact between_counted server loop _ counted (by simp [phase]) rfl rfl (by simp)
  | poll index active phase distinct reported =>
      exact between_counted server loop _ counted (by simp [phase]) rfl rfl (by simp)
  | handle index choice event left after phase handled =>
      have taken : Counted (setPhase server loop (.dispatching left)) :=
        between_counted server loop _ counted (by simp [phase]) rfl rfl (by simp)
      exact handle_counted _ loop choice event after taken handled
  | swap index phase => exact swap_counted server loop counted phase
  | functor index choice task left phase =>
      obtain ⟨taken, known⟩ := popped_counted server loop task left counted bounded phase
      exact runTask_counted (popped server loop task left) loop choice task taken known
  | finish index phase =>
      cases turn
      exact finish_counted server loop counted phase lasting

end Loops

section Users
variable (server : Server)

/-- The threads change in number or in what they do, and every raw functor keeps an owner. -/
theorem users_counted (users : List User) (counted : Counted server)
    (known : ∀ user ∈ users, Accepted server user.id)
    (raw : ∀ id, (server.conns id).taken = true →
      .shutdownInLoop id ∈ waiting (server.loops (server.conns id).loop_) →
      0 < useCount { server with users := users } id) : Counted { server with users := users } := by
  constructor
  case names => exact counted.names
  case tasks => exact counted.tasks
  case users => exact known
  case pool => exact counted.pool
  case robin => exact counted.robin
  case first => exact counted.first
  case batch => exact counted.batch
  case idle => exact counted.idle
  case kept => exact counted.kept
  case raw =>
    intro loop id member
    obtain ⟨place, some_⟩ := counted.raw loop id member
    refine ⟨place, ?_⟩
    have accepted := counted_accepted server id counted (by omega)
    cases taken : (server.conns id).taken with
    | false =>
        have kept : Kept { server with users := users } id := counted.kept id accepted taken
        exact kept_counts _ id (counted.pool id) kept
    | true => exact raw id taken (by rw [place]; exact member)
  case quiet => exact counted.quiet

theorem setUser_counted (user : Nat) (owner : User) (doing : Doing) (counted : Counted server)
    (found : server.users[user]? = some owner) : Counted (setUser server user owner.id doing) := by
  apply users_counted server _ counted
  · intro other member
    rcases List.mem_or_eq_of_mem_set member with old | rfl
    · exact counted.users other old
    · exact counted.users owner (List.mem_of_getElem? found)
  · intro id _ member
    have same := setUser_counts server user id owner doing found
    unfold setUser at same
    rw [same]
    exact (counted.raw _ id member).2

/-- A thread queues a functor of the connection it holds. -/
theorem advance_counted (user : Nat) (owner : User) (after : Server) (counted : Counted server)
    (found : server.users[user]? = some owner)
    (stepped : advance server user owner.id owner.doing = some after) :
    Counted after := by
  have known := counted.users owner (List.mem_of_getElem? found)
  have holding : ∀ doing, Counted (setUser server user owner.id doing) ∧
      0 < useCount (setUser server user owner.id doing) owner.id := by
    intro doing
    refine ⟨setUser_counted server user owner doing counted found, ?_⟩
    rw [setUser_counts server user owner.id owner doing found]
    have counts : 0 < server.users.countP (·.id == owner.id) :=
      List.countP_pos_iff.mpr ⟨owner, List.mem_of_getElem? found, by simp⟩
    unfold useCount
    omega
  rcases advance_cases server user owner.id owner.doing after stepped with ⟨_, rfl⟩ | ⟨_, rfl⟩ |
      ⟨_, rfl⟩
  · apply queue_counted _ _ _ (holding .holding).1
    · intro id named
      cases named
      exact known
    · intro id named
      cases named
  · exact setConn_counted _ owner.id _ (holding .shutDown).1 ⟨rfl, rfl⟩
  · apply queue_counted _ _ _ (holding .holding).1
    · intro id named
      cases named
      exact known
    · intro id named
      cases named
      exact ⟨rfl, (holding .holding).2⟩

theorem userStep_counted (user : Nat) (action : Action) (after : Server) (counted : Counted server)
    (turn : userOf action = some user) (lasting : Lasting server action)
    (stepped : userStep server user action = some after) : Counted after := by
  obtain ⟨owner, found, rfl | ⟨⟨index, rfl⟩, rfl⟩ | (rfl | ⟨doing, rfl⟩) | ⟨_, advanced⟩⟩ :=
    userStep_cases server user action after stepped
  · exact keep_counted server owner counted (counted.users owner (List.mem_of_getElem? found))
  · apply users_counted server _ counted
    · exact fun other member => counted.users other (List.mem_of_mem_eraseIdx member)
    · intro id taken member
      have fewer := drop_counts server user id owner found
      have some_ := (counted.raw _ id member).2
      by_cases own : owner.id = id
      · subst own
        cases turn
        have others := lasting owner found ⟨taken, member⟩
        rw [if_pos rfl] at fewer
        omega
      · rw [if_neg own] at fewer
        omega
  · exact counted
  · exact setUser_counted server user owner doing counted found
  · exact advance_counted server user owner after counted found advanced

end Users

/-- What the steps keep while nobody destroys the server. -/
structure Held (server : Server) : Prop where
  counted : Counted server
  running : ∀ loop, loop ≠ 0 → (server.loops loop).quit_ = false

theorem step_held (server : Server) (action : Action) (after : Server) (held : Held server)
    (undestroyed : Undestroyed action) (lasting : Lasting server action)
    (stepped : step server action = some after) : Held after := by
  have kept := step_undisturbed server action after undestroyed stepped
  refine ⟨?_, fun loop pool => by rw [kept.quit loop pool, held.running loop pool]⟩
  rcases step_cases server action after stepped with ⟨loop, turn, free_, taken⟩ |
      ⟨user, turn, taken⟩ | ⟨rfl, rfl⟩ |
    ⟨rfl, rfl⟩ | ⟨order, called, rfl, _⟩ | ⟨choice, rfl, _⟩
  · exact loopStep_counted server loop action after held.counted free_.1
      (held.running loop) turn lasting taken
  · exact userStep_counted server user action after held.counted turn lasting taken
  · apply setLoop_counted server 0 _ held.counted
    · rfl
    · rfl
    · exact fun _ member => member
    · exact held.counted.batch 0
    · exact held.counted.idle 0
  · exact queue_counted server 0 .other held.counted nofun nofun
  · exact absurd undestroyed id
  · exact absurd undestroyed id

theorem started_held (name ipPort : String) (numThreads : Nat) :
    Held (started name ipPort numThreads) := by
  refine ⟨?_, fun _ _ => rfl⟩
  constructor
  case names =>
    intro entry member
    cases member
  case tasks =>
    intro loop task member
    simp [started] at member
  case users =>
    intro user member
    cases member
  case pool => exact fun _ => Nat.zero_le _
  case robin => exact (Nat.eq_zero_or_pos numThreads).symm
  case first => exact Nat.one_pos
  case batch =>
    intro loop left phase
    by_cases base : loop = 0 <;> simp [started, base] at phase
  case idle => exact fun loop some_ => absurd rfl some_
  case kept =>
    intro id accepted
    have none_ : ¬ id < 1 := by have positive := accepted.1; omega
    exact absurd accepted.2 none_
  case raw =>
    intro loop id member
    by_cases base : loop = 0 <;> simp [started, waiting, leftTasks, base] at member
  case quiet => rfl

/-- No functor runs for a connection whose last owner is gone, if no such owner goes
while shutdownInLoop is late. -/
theorem functors_owned (name ipPort : String) (numThreads : Nat) (trace : List Action)
    (last : Server)
    (guarded : Transition.Guarded step
      (fun server action => Undestroyed action ∧ Lasting server action)
      (started name ipPort numThreads) trace)
    (ran : Transition.run step (started name ipPort numThreads) trace = some last) :
    last.deadRun = false := by
  have held := Transition.run_preserves step
    (fun server action => Undestroyed action ∧ Lasting server action) Held
    (fun before action after held allowed stepped =>
      step_held before action after held allowed.1 allowed.2 stepped)
    _ last trace guarded (started_held name ipPort numThreads) ran
  exact held.counted.quiet

/-- One loop in the pool: a thread has read kConnected in shutdown() when the
connection is closed and removed, and queues shutdownInLoop after connectDestroyed. -/
def lateShutdown : List Action :=
  [.loop, .test 0, .poll 0 [.acceptor], .handle 0 { sockfd := 5 }, .swap 0, .finish 0,
    .test 1, .poll 1 [], .swap 1, .functor 1 { calls := [.keep 1] }, .finish 1, .shutdown 0,
    .test 1, .poll 1 [.connection 1 EPOLLHUP], .handle 1 {}, .swap 1, .finish 1,
    .test 0, .poll 0 [], .swap 0, .functor 0 {}, .finish 0,
    .test 1, .poll 1 [], .swap 1, .functor 1 {}, .advance 0, .advance 0]

theorem functor_runs_unowned :
    ¬ ∀ (trace : List Action) (last : Server), (∀ action ∈ trace, Undestroyed action) →
    Transition.run step (started "chat" "0:9000" 1) trace = some last → last.deadRun = false := by
  intro owned_
  have reached : (Transition.run step (started "chat" "0:9000" 1)
      (lateShutdown ++ [.drop 0, .finish 1, .test 1, .poll 1 [], .swap 1, .functor 1 {}])).map
      (fun last => last.deadRun) = some true := by decide +kernel
  obtain ⟨last, ran, dead⟩ := Option.map_eq_some_iff.mp reached
  have alive := owned_ _ last (by decide) ran
  rw [alive] at dead
  cases dead

/-- The thread keeps its pointer until the late functor has run. -/
theorem functors_owned_kept : ∃ last, Transition.run step (started "chat" "0:9000" 1)
    (lateShutdown ++ [.finish 1, .test 1, .poll 1 [], .swap 1, .functor 1 {}, .drop 0,
      .finish 1]) = some last ∧
      last.deadRun = false ∧ useCount last 1 = 0 := by
  have reached : (Transition.run step (started "chat" "0:9000" 1)
      (lateShutdown ++ [.finish 1, .test 1, .poll 1 [], .swap 1, .functor 1 {}, .drop 0,
        .finish 1])).map
      (fun last => useCount last 1) = some 0 := by decide +kernel
  obtain ⟨last, ran, none_⟩ := Option.map_eq_some_iff.mp reached
  exact ⟨last, ran, functors_owned "chat" "0:9000" 1 _ last (by decide +kernel) ran, none_⟩

end MuduoChat.TcpServer
