import MuduoChat.ServerCards

/-!
The server keeps every connection's life fine: a handler or a functor moves the
card of the connection it is about and leaves the cards of all others as they are.
-/

namespace MuduoChat.TcpServer
open EPollPoller (EPOLLIN EPOLLOUT Events)
open ConnectionLife

/-- Every connection has a fine life. -/
structure Orderly (server : Server) : Prop where
  base : Base server
  fine : ∀ id, Fine (server.stage == .alive) (card server id)

section Handlers
variable (server : Server)

theorem steady_orderly (after : Server) (steady : Steady server after) (orderly : Orderly server) :
    Orderly after := by
  constructor
  · exact steady_base server after steady orderly.base
  · intro id
    rw [card_steady server after steady, steady.same]
    exact orderly.fine id

/-- The others' cards and the moved one. -/
theorem setConn_orderly (id : Nat) (change : TcpConnection → TcpConnection)
    (base : Base (setConn server id change))
    (others : ∀ other, other ≠ id → Fine (server.stage == .alive) (card server other))
    (moved : Fine (server.stage == .alive)
      { card server id with
        loop := (change (server.conns id)).loop_
        life := (change (server.conns id)).life
        removed := (change (server.conns id)).removed }) : Orderly (setConn server id change) := by
  refine ⟨base, fun other => ?_⟩
  rw [card_setConn]
  by_cases same : other = id
  · rw [if_pos same]
    exact moved
  · rw [if_neg same]
    exact others other same

theorem connectEstablished_orderly (loop id : Nat) (choice : Choice) (base : Base server)
    (created : (server.conns id).life = .created)
    (others : ∀ other, other ≠ id → Fine (server.stage == .alive) (card server other))
    (moved : Fine (server.stage == .alive) { card server id with life := .established }) :
    Orderly (connectEstablished server loop id choice) := by
  have begun : Base (setConn server id established) := by
    apply setConn_base server id established base rfl
    · exact established_fits _ created (base.ready.fits id)
    · simp [established, lived, created]
    · simp [established, lived, opened]
    · intro _ gone
      cases gone
  have up : Orderly (setConn server id established) :=
    setConn_orderly server id established begun others moved
  refine steady_orderly _ _ (callAll_steady _ loop id choice.calls begun.ready ?_) up
  simp [setConn, established, lived, opened]

theorem disconnected_base (id : Nat) (base : Base server)
    (established : (server.conns id).life = .established) :
    Base (setConn server id disconnected) := by
  apply setConn_base server id disconnected base rfl
  · exact disconnected_fits _ established (base.ready.fits id)
  · simp [disconnected, lived, established]
  · simp [disconnected, lived, opened]
  · intro _ gone
    cases gone

/-- After the callback of a close the connection is as handleClose left it. -/
theorem closing_steady (loop id : Nat) (calls : List Call)
    (base : Base (setConn server id disconnected)) :
    Steady (setConn server id disconnected)
      (callAll (setConn server id disconnected) loop id calls) := by
  apply callAll_steady _ loop id calls base.ready
  simp [setConn, disconnected, lived, opened]

theorem removed_base (id : Nat) (base : Base server) (closed : (server.conns id).life = .closed)
    (quiet : server.stage = .alive → ∀ loop left, (server.loops loop).phase = .dispatching left →
      ∀ revents,
      .connection id revents ∉ (server.loops loop).activeChannels_) : Base
        (setConn server id removed) := by
  apply setConn_base server id removed base rfl
  · exact removed_fits _ closed (base.ready.fits id)
  · simp [removed, lived, closed]
  · simp [removed, lived, opened]
  · exact fun alive _ => quiet alive

theorem connectDestroyed_orderly (loop id : Nat) (choice : Choice) (base : Base server)
    (open_ : opened (server.conns id).life) (unfinished : (server.conns id).life ≠ .destroyed)
    (decided : (server.conns id).state_ ≠ .kDisconnecting)
    (quiet : server.stage = .alive → ∀ loop left, (server.loops loop).phase = .dispatching left →
      ∀ revents,
      .connection id revents ∉ (server.loops loop).activeChannels_)
    (others : ∀ other, other ≠ id → Fine (server.stage == .alive) (card server other))
    (moved : Fine (server.stage == .alive) { card server id with life := .destroyed }) :
    Orderly (connectDestroyed server loop id choice) := by
  have fits := base.ready.fits id
  unfold connectDestroyed
  by_cases connected : (server.conns id).state_ = .kConnected
  · rw [if_pos connected]
    have established : (server.conns id).life = .established := by
      cases life : (server.conns id).life <;> simp_all [Fits, opened]
    have silent := disconnected_base server id base established
    have steady := closing_steady server loop id choice.calls silent
    generalize callAll (setConn server id disconnected) loop id choice.calls = told at steady
    have seen : ∀ other, card told other = card (setConn server id disconnected) other :=
      card_steady _ told steady
    have stage : told.stage = server.stage := by rw [steady.same]; rfl
    have closed : (told.conns id).life = .closed := by
      rw [(steady.conns id).2.1]
      simp [setConn, disconnected, lived]
    have after : Base (setConn told id removed) := by
      apply removed_base told id (steady_base _ told steady silent) closed
      intro alive place left phase revents active
      obtain ⟨more, queued, _⟩ := steady.loops place
      rw [queued] at phase active
      exact quiet (by rw [← stage]; exact alive) place left phase revents active
    apply setConn_orderly told id removed after
    · intro other different
      rw [seen, card_setConn, if_neg different, stage]
      exact others other different
    · have unchanged : (told.conns id).loop_ = (server.conns id).loop_ ∧
          (told.conns id).removed = (server.conns id).removed := by
        rw [(steady.conns id).1, (steady.conns id).2.2.1]
        simp [setConn, disconnected, lived, connectionCallback, channel, setState]
      rw [seen, card_setConn, if_pos rfl, stage]
      simp only [removed, lived, channel, unchanged]
      exact moved
  · rw [if_neg connected]
    have closed : (server.conns id).life = .closed := by
      cases life : (server.conns id).life <;> simp_all [Fits, opened]
    exact setConn_orderly server id removed (removed_base server id base closed quiet) others moved

theorem card_erase (id other : Nat) :
    card (erase server id) other = if other = id then { card server id with mapped := false }
      else card server other := by
  by_cases same : other = id
  · subst same
    simp [card, erase, mapped, connName]
  · have kept : mapped (erase server id) other = mapped server other := by
      have apart : connName server other ≠ connName server id := fun equal =>
        same (connName_injective server _ _ equal)
      have named : connName (erase server id) other = connName server other := rfl
      rw [mapped, named]
      simp [erase, apart, mapped]
    rw [if_neg same]
    simp only [card, kept]
    rfl

/-- removeConnectionInLoop, wherever it is called from: out of the table, and to be destroyed. -/
theorem removeConnectionInLoop_orderly (id : Nat) (base : Base server)
    (others : ∀ other, other ≠ id → Fine (server.stage == .alive) (card server other))
    (moved : Fine (server.stage == .alive) { card server id with
      mapped := false, removed := true, waits :=
        wait (card server id) (server.conns id).loop_ .destroy }) :
    Orderly (removeConnectionInLoop server id) := by
  have erased : Base (erase (touch server) id) := by
    apply table_base server _ _ _ base
    exact List.filter_sublist
  have flagged : Base (setConn (erase (touch server) id) id
      fun conn => { conn with removed := true }) := by
    apply setConn_base _ id _ erased rfl
    · exact erased.ready.fits id
    · exact Iff.rfl
    · exact fun open_ => open_
    · intro alive gone place left phase revents active
      exact (base.listed alive place left phase id revents active).2.2 gone
  constructor
  · apply queue_base _ _ _ flagged
    intro other named
    rcases named with bad | bad <;> cases bad
  · intro other
    have touched : card (touch server) other = card server other := rfl
    rw [removeConnectionInLoop, card_queue, card_setConn]
    by_cases same : other = id
    · subst same
      simp only [if_true, card_erase, tokenOf, Option.toList]
      exact moved
    · rw [if_neg same, card_erase, if_neg same, touched]
      have none_ : tokenOf other (.connectDestroyed id) = none := by simp [tokenOf, Ne.symm same]
      rw [none_]
      simp only [Option.toList, List.append_nil, Function.update_eq_self]
      exact others other same

theorem handleClose_orderly (loop id : Nat) (choice : Choice) (base : Base server)
    (established : (server.conns id).life = .established) (here : (server.conns id).loop_ = loop)
    (others : ∀ other, other ≠ id → Fine (server.stage == .alive) (card server other))
    (moved : Fine (server.stage == .alive) (if loop = 0 then
      closeHere (card server id) else close (card server id))) :
    Orderly (handleClose server loop id choice) := by
  have silent := disconnected_base server id base established
  have steady := closing_steady server loop id choice.calls silent
  unfold handleClose
  generalize callAll (setConn server id disconnected) loop id choice.calls = told at steady
  have seen : ∀ other, card told other = card (setConn server id disconnected) other :=
    card_steady _ told steady
  have stage : told.stage = server.stage := by rw [steady.same]; rfl
  have placed : (told.conns id).loop_ = loop := by
    rw [(steady.conns id).1, ← here]
    simp [setConn, disconnected, lived, connectionCallback, channel, setState]
  have own : card told id = { card server id with life := .closed } := by
    rw [seen, card_setConn, if_pos rfl]
    rfl
  have rest : ∀ other, other ≠ id → Fine (told.stage == .alive) (card told other) := by
    intro other different
    rw [seen, card_setConn, if_neg different, stage]
    exact others other different
  unfold removeConnection
  split
  · rename_i base_
    rw [if_pos base_] at moved
    apply removeConnectionInLoop_orderly told id (steady_base _ told steady silent) rest
    rw [own, placed, stage, base_]
    exact moved
  · rename_i pool
    rw [if_neg pool] at moved
    constructor
    · apply queue_base _ _ _ (table_base told told.connections_ _ _
        (steady_base _ told steady silent) (List.Sublist.refl _))
      intro other named
      rcases named with bad | bad <;> cases bad
    · intro other
      have touched : card (touch told) other = card told other := rfl
      rw [card_queue, touched]
      by_cases same : other = id
      · subst same
        rw [own]
        simp only [tokenOf, if_true, Option.toList]
        have still : (queueInLoop (touch told) 0 (.removeConnectionInLoop other)).stage =
            server.stage := stage
        rw [still]
        exact moved
      · have none_ : tokenOf other (.removeConnectionInLoop id) = none := by
          simp [tokenOf, Ne.symm same]
        rw [none_]
        simp only [Option.toList, List.append_nil, Function.update_eq_self]
        exact rest other same

theorem handleClose_conn (loop id : Nat) (choice : Choice) (base : Base server)
    (established : (server.conns id).life = .established) :
    opened ((handleClose server loop id choice).conns id).life ∧
      ((handleClose server loop id choice).conns id).loop_ = (server.conns id).loop_ := by
  have silent := disconnected_base server id base established
  have steady := closing_steady server loop id choice.calls silent
  unfold handleClose
  generalize callAll (setConn server id disconnected) loop id choice.calls = told at steady
  have closed : (told.conns id).life = .closed ∧ (told.conns id).loop_ = (server.conns id).loop_ :=
    by
    rw [(steady.conns id).1, (steady.conns id).2.1]
    simp [setConn, disconnected, lived, connectionCallback, channel, setState]
  unfold removeConnection
  split
  · simp [removeConnectionInLoop, queueInLoop, setLoop, setConn, erase, touch, opened, closed]
  · simp [queueInLoop, setLoop, touch, opened, closed]

/-- The connection whose event is being handled. -/
structure Handled (loop id : Nat) : Prop where
  orderly : Orderly server
  established : (server.conns id).life = .established
  here : (server.conns id).loop_ = loop
  last : ∀ place, (card server id).left place = 0

theorem handleClose_handled (loop id : Nat) (choice : Choice) (handled : Handled server loop id) :
    Orderly (handleClose server loop id choice) := by
  obtain ⟨orderly, established, here, last⟩ := handled
  apply handleClose_orderly server loop id choice orderly.base established here fun other _ =>
    orderly.fine other
  by_cases base : loop = 0
  · rw [if_pos base]
    exact closeHere_fine (orderly.fine id) established (here.trans base) last
  · rw [if_neg base]
    exact close_fine (orderly.fine id) established (fun zero => base (here.symm.trans zero)) last

/-- An event leaves a connection that writes can still be handled for. -/
def Writable (loop id : Nat) : Prop :=
  Orderly server ∧ opened (server.conns id).life ∧ (server.conns id).loop_ = loop

theorem handleClose_writable (loop id : Nat) (choice : Choice) (handled : Handled server loop id) :
    Writable (handleClose server loop id choice) loop id := by
  have conn := handleClose_conn server loop id choice handled.orderly.base handled.established
  exact ⟨handleClose_handled server loop id choice handled, conn.1,
    by rw [conn.2]; exact handled.here⟩

theorem handled_writable (loop id : Nat) (handled : Handled server loop id) :
    Writable server loop id :=
  ⟨handled.orderly, by simp [opened, handled.established], handled.here⟩

theorem handleRead_writable (loop id : Nat) (choice : Choice) (handled : Handled server loop id) :
    Writable (handleRead server loop id choice) loop id := by
  obtain ⟨orderly, established, here, last⟩ := handled
  unfold handleRead
  split
  · have message : Steady server (setConn server id messageCallback) := by
      apply setConn_steady server id messageCallback
      · exact ⟨rfl, rfl, rfl, rfl⟩
      · exact message_fits _ established
    have open_ : opened ((setConn server id messageCallback).conns id).life :=
      steady_opened server _ message id (by simp [opened, established])
    have calls := callAll_steady _ loop id choice.calls
      (steady_ready server _ message orderly.base.ready) open_
    have steady := steady_trans _ _ _ message calls
    refine ⟨steady_orderly server _ steady orderly, ?_, by rw [(steady.conns id).1, here]⟩
    exact steady_opened server _ steady id (by simp [opened, established])
  · split
    · exact handleClose_writable server loop id choice ⟨orderly, established, here, last⟩
    · exact handled_writable server loop id ⟨orderly, established, here, last⟩

theorem handleWrite_steady (loop id : Nat) (choice : Choice)
    (open_ : opened (server.conns id).life) (here : (server.conns id).loop_ = loop) :
    Steady server (handleWrite server loop id choice) := by
  unfold handleWrite
  split
  · rename_i writing
    have quiet : Steady server (setConn server id (channel .disableWriting)) := by
      apply setConn_steady server id (channel .disableWriting)
      · exact ⟨rfl, rfl, rfl, rfl⟩
      · exact fun fits => disableWriting_fits _ writing.1 fits open_
    have told := tell_steady _ loop id choice.told (by rw [(quiet.conns id).1, here])
      (steady_opened server _ quiet id open_)
    have steady := steady_trans _ _ _ quiet told
    simp only
    split
    · exact steady_trans _ _ _ steady (shutdownWrite_steady _ id)
    · exact steady
  · exact steady_refl server

theorem handleEvent_orderly (loop id : Nat) (revents : Events) (choice : Choice)
    (handled : Handled server loop id) :
    Orderly (handleEvent server loop id revents choice) := by
  have write : ∀ current, Writable current loop id →
      Orderly (whenever current (revents &&& EPOLLOUT != 0)
        fun last => handleWrite last loop id choice) := by
    rintro current ⟨orderly, open_, here⟩
    unfold whenever
    split
    · exact steady_orderly current _ (handleWrite_steady current loop id choice open_ here) orderly
    · exact orderly
  apply write
  -- EPOLLHUP closes only without EPOLLIN, so at most one of the two closes the connection
  by_cases reading : (revents &&& EPOLLIN != 0) = true
  · have quiet : (revents &&& EPOLLIN == 0) = false := by simpa using reading
    simp only [whenever, reading, quiet, Bool.and_false, Bool.false_eq_true, if_false, if_true]
    exact handleRead_writable server loop id choice handled
  · simp only [whenever, reading, if_false, Bool.false_eq_true]
    split
    · exact handleClose_writable server loop id choice handled
    · exact handled_writable server loop id handled

end Handlers

/-! One functor of a batch. -/

section Functors
variable (server : Server)

/-- The server when a loop has taken the next functor of its batch. -/
def popped (loop : Nat) (task : Task) (left : List Task) : Server :=
  setPhase (checkOwner server task) loop (.running left)

theorem popped_base (loop : Nat) (task : Task) (left : List Task) (base : Base server)
    (next : (server.loops loop).phase = .running (task :: left)) :
    Base (popped server loop task left) := by
  apply setPhase_base _ loop _ (table_base server server.connections_ server.deadUse _ base
    (List.Sublist.refl _))
  · intro queued member
    simp only [waiting, leftTasks, next] at member ⊢
    exact List.mem_append_left _ (List.mem_cons_of_mem task member)
  · intro rest same
    cases same
    have suffix := base.batch loop (task :: left) next
    exact (List.suffix_cons task left).trans suffix
  · intro rest same
    cases same
  · simp

theorem popped_card (loop : Nat) (task : Task) (left : List Task) (id : Nat)
    (next : (server.loops loop).phase = .running (task :: left)) :
    ∃ rest, (card server id).waits loop = (tokenOf id task).toList ++ rest ∧
      card (popped server loop task left) id =
        { card server id with waits := Function.update (card server id).waits loop rest } := by
  have none_ : (card server id).left loop = 0 := by simp [card, events, leftEvents, next]
  refine ⟨(left ++ (server.loops loop).pendingFunctors_).filterMap (tokenOf id), ?_, ?_⟩
  · simp only [card, tokens, waiting, leftTasks, next, List.cons_append, List.filterMap_cons]
    cases tokenOf id task <;> rfl
  · have checked : card (checkOwner server task) id = card server id := rfl
    have same : Function.update (card server id).left loop 0 = (card server id).left := by
      rw [← none_]
      exact Function.update_eq_self loop _
    have going : ((checkOwner server task).loops loop).phase ≠ .outside := by
      simp [checkOwner, next]
    rw [popped, card_setPhase _ loop _ id going (by simp), checked]
    simp only [leftTasks, leftEvents, List.countP_nil, same]
    rfl

/-- A functor that is no token of the connection leaves its card as it is. -/
theorem popped_other (loop : Nat) (task : Task) (left : List Task) (id : Nat)
    (next : (server.loops loop).phase = .running (task :: left)) (none_ : tokenOf id task = none) :
    card (popped server loop task left) id = card server id := by
  obtain ⟨rest, waits, same⟩ := popped_card server loop task left id next
  rw [same]
  rw [none_, Option.toList, List.nil_append] at waits
  rw [← waits, Function.update_eq_self]

/-- No loop has an event left of a connection whose own loop is running functors. -/
theorem running_handled (loop id : Nat) (left : List Task)
    (phase : (server.loops loop).phase = .running left)
    (here : (card server id).loop = loop) (fine : Fine (server.stage == .alive) (card server id)) :
    ∀ place, (card server id).left place = 0 := by
  intro place
  by_contra some_
  have own := (fine.dispatched place some_).1
  rw [here] at own
  subst own
  exact some_ (by simp [card, events, leftEvents, phase])

theorem running_quiet (loop id : Nat) (left : List Task)
    (phase : (server.loops loop).phase = .running left)
    (here : (server.conns id).loop_ = loop) (base : Base server) (alive : server.stage = .alive) :
    ∀ place rest, (server.loops place).phase = .dispatching rest → ∀ revents,
      .connection id revents ∉ (server.loops place).activeChannels_ := by
  intro place rest dispatching revents active
  have own := (base.listed alive place rest dispatching id revents active).1
  rw [here] at own
  subst own
  rw [phase] at dispatching
  cases dispatching

/-- connectDestroyed is not run for a connection that shutdown() has half closed, and
the server is not used once its destructor has begun. -/
def Decided : Task → Prop
  | .connectDestroyed id => server.stage = .alive ∨ (server.conns id).state_ ≠ .kDisconnecting
  | .removeConnectionInLoop _ => server.stage = .alive
  | _ => True

section Queued
variable (loop id : Nat) (left : List Task) (orderly : Orderly server)
include orderly

/-- The other connections do not see that a functor has been taken. -/
theorem popped_fine (task : Task) (next : (server.loops loop).phase = .running (task :: left))
    (other : Nat)
    (none_ : tokenOf other task = none) :
    Fine (server.stage == .alive) (card (popped server loop task left) other) := by
  rw [popped_other server loop task left other next none_]
  exact orderly.fine other

/-- Only a connection still in its first stage is owed an establishment. -/
theorem runEstablished_orderly (choice : Choice)
    (next : (server.loops loop).phase = .running (.connectEstablished id :: left)) :
    Orderly (connectEstablished (popped server loop
      (.connectEstablished id) left) loop id choice) := by
  have base := popped_base server loop _ left orderly.base next
  obtain ⟨rest, waits, same⟩ := popped_card server loop _ left id next
  simp only [tokenOf, if_true, Option.toList, List.singleton_append] at waits
  obtain ⟨own, owes⟩ := due_own (orderly.fine id) loop _ rest waits (by simp)
  have created : (server.conns id).life = .created := by
    by_contra later
    have life : (card server id).life ≠ .created := later
    simp only [owed, life, if_false, List.nil_append] at owes
    split at owes <;> simp at owes
  apply connectEstablished_orderly _ loop id choice base created
  · intro other different
    exact popped_fine server loop left orderly _ next other (by simp [tokenOf, Ne.symm different])
  · rw [same]
    exact establish_fine (orderly.fine id) loop rest waits

/-- Under a live server it was closed by its peer, so its state cannot be kDisconnecting. -/
theorem doomed_down (doomed : Doomed (card server id)) (present : (server.conns id).life ≠ .absent)
    (begun : (server.conns id).life ≠ .created) (decided : Decided server (.connectDestroyed id)) :
    (server.conns id).state_ ≠ .kDisconnecting := by
  rcases decided with alive | kept
  · have closed : (server.conns id).life = .closed := by
      have served := (orderly.fine id).served (by simp [alive]) doomed.1
      cases found : (server.conns id).life with
      | absent => exact absurd found present
      | created => exact absurd found begun
      | established => exact absurd found served.2.2
      | closed => rfl
      | destroyed => exact absurd found doomed.2.2
    have fits := orderly.base.ready.fits id
    simp only [Fits, closed] at fits
    simp [fits.1]
  · exact kept

/-- Only a connection that has left the table is owed a destruction. -/
theorem runDestroyed_orderly (choice : Choice)
    (next : (server.loops loop).phase = .running (.connectDestroyed id :: left))
    (decided : Decided server (.connectDestroyed id)) :
    Orderly (connectDestroyed (popped server loop (.connectDestroyed id) left) loop id choice) := by
  have base := popped_base server loop _ left orderly.base next
  obtain ⟨rest, waits, same⟩ := popped_card server loop _ left id next
  simp only [tokenOf, if_true, Option.toList, List.singleton_append] at waits
  obtain ⟨own, owes⟩ := due_own (orderly.fine id) loop _ rest waits (by simp)
  have doomed : Doomed (card server id) := by
    by_contra safe
    simp only [owed, safe, if_false, List.append_nil] at owes
    split at owes <;> simp at owes
  have handled := running_handled server loop id _ next own.symm (orderly.fine id)
  obtain ⟨moved, begun, present⟩ := destroy_fine (orderly.fine id) loop rest waits handled
  apply connectDestroyed_orderly _ loop id choice base
  · exact ⟨present, begun⟩
  · exact doomed.2.2
  · exact doomed_down server id orderly doomed present begun decided
  · intro alive
    have phase : ((popped server loop (.connectDestroyed id) left).loops loop).phase =
        .running left := by
      simp [popped, setPhase, setLoop]
    exact running_quiet (popped server loop
      (.connectDestroyed id) left) loop id left phase own.symm base alive
  · intro other different
    exact popped_fine server loop left orderly _ next other (by simp [tokenOf, Ne.symm different])
  · rw [same]
    exact moved

theorem runRemoved_orderly (next : (server.loops loop).phase = .running
    (.removeConnectionInLoop id :: left))
    (alive : server.stage = .alive) :
    Orderly (removeConnectionInLoop (popped server loop (.removeConnectionInLoop id) left) id) := by
  have base := popped_base server loop _ left orderly.base next
  obtain ⟨rest, waits, same⟩ := popped_card server loop _ left id next
  simp only [tokenOf, if_true, Option.toList, List.singleton_append] at waits
  have fine := orderly.fine id
  have bases : loop = 0 := remove_base fine loop (by rw [waits]; exact List.mem_cons_self ..)
  subst bases
  rw [alive] at fine
  apply removeConnectionInLoop_orderly _ id base
  · intro other different
    exact popped_fine server 0 left orderly _ next other (by simp [tokenOf, Ne.symm different])
  · rw [same]
    have moved := remove_fine fine rest waits
    have still : (popped server 0 (.removeConnectionInLoop id) left).stage = .alive := alive
    rw [still]
    exact moved

end Queued

theorem functor_orderly (loop : Nat) (task : Task) (left : List Task) (choice : Choice)
    (orderly : Orderly server)
    (next : (server.loops loop).phase = .running (task :: left)) (decided : Decided server task) :
    Orderly (runTask (popped server loop task left) loop choice task) := by
  have base := popped_base server loop task left orderly.base next
  have plain (none_ : ∀ id, tokenOf id task = none) : Orderly (popped server loop task left) :=
    ⟨base, fun id => popped_fine server loop left orderly task next id (none_ id)⟩
  have member : task ∈ waiting (server.loops loop) := by simp [waiting, leftTasks, next]
  cases task with
  | connectEstablished id => exact runEstablished_orderly server loop id left orderly choice next
  | connectDestroyed id =>
      exact runDestroyed_orderly server loop id left orderly choice next decided
  | removeConnectionInLoop id => exact runRemoved_orderly server loop id left orderly next decided
  | sendInLoop id =>
      obtain ⟨here, open_⟩ := orderly.base.bound loop _ member id (Or.inl rfl)
      exact steady_orderly _ _ (sendInLoop_steady _ loop id _ _ here open_) (plain fun _ => rfl)
  | shutdownInLoop id => exact steady_orderly _ _ (shutdownWrite_steady _ id) (plain fun _ => rfl)
  | callback id =>
      obtain ⟨_, open_⟩ := orderly.base.bound loop _ member id (Or.inr rfl)
      exact steady_orderly _ _ (callAll_steady _ loop id choice.calls base.ready open_)
        (plain fun _ => rfl)
  | other => exact plain fun _ => rfl

end Functors

end MuduoChat.TcpServer
