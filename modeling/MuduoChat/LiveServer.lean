import MuduoChat.ServerLifecycle

/-!
A server that lives: nobody destroys it, and user code sends and shuts down in
callbacks only. Its loops are not quit, so no queue is dropped, and every reachable
state is orderly.
-/

namespace MuduoChat.TcpServer
open EPollPoller (EPOLLIN)
open ConnectionThreads (EPOLLHUP)
open ConnectionLife

/-- What a step leaves alone that does not belong to the destructor. -/
structure Undisturbed (before after : Server) : Prop where
  stage : after.stage = before.stage
  threads : after.numThreads = before.numThreads
  quit : ∀ loop, loop ≠ 0 → (after.loops loop).quit_ = (before.loops loop).quit_
  ended : ∀ loop, loop ≠ 0 → (before.loops loop).phase = .outside →
    (after.loops loop).phase = .outside
  used : before.stage ≠ .destroyed → after.deadUse = before.deadUse

section Frames
variable (server : Server)

theorem within_undisturbed (after : Server) (within : Within server after) :
    Undisturbed server after := by
  refine ⟨within.stage, within.threads, fun loop _ => ?_, fun loop _ gone => ?_, within.used⟩
  · obtain ⟨more, queued⟩ := within.loops loop
    rw [queued]
  · obtain ⟨more, queued⟩ := within.loops loop
    rw [queued]
    exact gone

theorem undisturbed_trans (before middle after : Server) (first : Undisturbed before middle)
    (second : Undisturbed middle after) : Undisturbed before after := by
  constructor
  · rw [second.stage, first.stage]
  · rw [second.threads, first.threads]
  · intro loop pool
    rw [second.quit loop pool, first.quit loop pool]
  · exact fun loop pool gone => second.ended loop pool (first.ended loop pool gone)
  · intro present
    rw [second.used (by rw [first.stage]; exact present), first.used present]

theorem setLoop_undisturbed (loop : Nat) (change : EventLoop → EventLoop)
    (kept : loop ≠ 0 → (change (server.loops loop)).quit_ = (server.loops loop).quit_)
    (ended : loop ≠ 0 → (server.loops loop).phase = .outside →
      (change (server.loops loop)).phase = .outside) :
    Undisturbed server (setLoop server loop change) := by
  refine ⟨rfl, rfl, fun other pool => ?_, fun other pool gone => ?_, fun _ => rfl⟩
  · by_cases same : other = loop
    · subst same
      simpa [setLoop] using kept pool
    · simp [setLoop, Function.update_of_ne same]
  · by_cases same : other = loop
    · subst same
      simpa [setLoop] using ended pool gone
    · simpa [setLoop, Function.update_of_ne same] using gone

theorem loopStep_undisturbed (loop : Nat) (action : Action) (after : Server)
    (stepped : loopStep server loop action = some after) : Undisturbed server after := by
  -- a loop that goes on is inside loop(), unless the base loop enters it
  have going : ∀ change : EventLoop → EventLoop, (server.loops loop).phase ≠ .outside →
      (change (server.loops loop)).quit_ = (server.loops loop).quit_ →
        Undisturbed server (setLoop server loop change) :=
    fun change inside kept => setLoop_undisturbed server loop change (fun _ => kept) fun _ gone =>
      absurd gone inside
  cases loopStep_cases server loop action after stepped with
  | loop base phase =>
      exact setLoop_undisturbed server 0 _ (fun other => absurd rfl other) fun other =>
        absurd rfl other
  | leave index phase quitting => exact going _ (by simp [phase]) rfl
  | test index phase => exact going _ (by simp [phase]) rfl
  | poll index active phase distinct reported => exact going _ (by simp [phase]) rfl
  | handle index choice event left after phase handled =>
      have taken : Undisturbed server (setPhase server loop (.dispatching left)) :=
        going _ (by simp [phase]) rfl
      have within := handle_within _ loop choice event after handled
      exact undisturbed_trans _ _ _ taken (within_undisturbed _ after within)
  | swap index phase =>
      obtain ⟨stage, threads, quit, ended, used⟩ := going (fun old =>
        { old with
          functors := (server.loops loop).pendingFunctors_
          pendingFunctors_ := []
          phase := .running (server.loops loop).pendingFunctors_ }) (by simp [phase]) rfl
      exact ⟨stage, threads, quit, ended, used⟩
  | functor index choice task left phase =>
      obtain ⟨stage, threads, quit, ended, used⟩ :=
        going (fun old => { old with phase := .running left })
        (by simp [phase]) rfl
      have taken : Undisturbed server (popped server loop task left) :=
        ⟨stage, threads, quit, ended, used⟩
      have ran := runTask_within (popped server loop task left) loop choice task
      exact undisturbed_trans _ _ _ taken (within_undisturbed _ _ ran)
  | finish index phase => exact going _ (by simp [phase]) rfl

theorem advance_undisturbed (user id : Nat) (doing : Doing) (after : Server)
    (stepped : advance server user id doing = some after) : Undisturbed server after := by
  have queued : ∀ task, Undisturbed server
      (queueInLoop (setUser server user id .holding) (server.conns id).loop_ task) := by
    intro task
    obtain ⟨stage, threads, quit, ended, used⟩ := setLoop_undisturbed server (server.conns id).loop_
      (fun old => { old with pendingFunctors_ := old.pendingFunctors_ ++ [task] }) (fun _ => rfl)
        fun _ gone => gone
    exact ⟨stage, threads, quit, ended, used⟩
  rcases advance_cases server user id doing after stepped with ⟨_, rfl⟩ | ⟨_, rfl⟩ | ⟨_, rfl⟩
  · exact queued _
  · exact ⟨rfl, rfl, fun _ _ => rfl, fun _ _ gone => gone, fun _ => rfl⟩
  · exact queued _

theorem userStep_undisturbed (user : Nat) (action : Action) (after : Server)
    (stepped : userStep server user action = some after) : Undisturbed server after := by
  obtain ⟨owner, _, rfl | ⟨_, rfl⟩ | (rfl | ⟨doing, rfl⟩) | ⟨_, advanced⟩⟩ :=
    userStep_cases server user action after stepped
  · exact ⟨rfl, rfl, fun _ _ => rfl, fun _ _ gone => gone, fun _ => rfl⟩
  · exact ⟨rfl, rfl, fun _ _ => rfl, fun _ _ gone => gone, fun _ => rfl⟩
  · exact ⟨rfl, rfl, fun _ _ => rfl, fun _ _ gone => gone, fun _ => rfl⟩
  · exact ⟨rfl, rfl, fun _ _ => rfl, fun _ _ gone => gone, fun _ => rfl⟩
  · exact advance_undisturbed server user owner.id owner.doing after advanced

/-- The destructor is the only one that quits a loop of the pool. -/
def Undestroyed : Action → Prop
  | .destroy _ | .destructor _ => False
  | _ => True

instance : DecidablePred Undestroyed
  | .destroy _ | .destructor _ => isFalse id
  | .loop | .test _ | .poll _ _ | .handle _ _ | .swap _ | .functor _ _ | .finish _ | .quitBase
  | .queueOther
  | .copy _ | .drop _ | .send _ | .shutdown _ | .advance _ => isTrue trivial

theorem step_undisturbed (action : Action) (after : Server) (undestroyed : Undestroyed action)
    (stepped : step server action = some after) : Undisturbed server after := by
  rcases step_cases server action after stepped with ⟨loop, _, _, taken⟩ | ⟨user, _, taken⟩ |
      ⟨rfl, rfl⟩ |
    ⟨rfl, rfl⟩ | ⟨order, called, rfl, _⟩ | ⟨choice, rfl, _⟩
  · exact loopStep_undisturbed server loop action after taken
  · exact userStep_undisturbed server user action after taken
  · exact setLoop_undisturbed server 0 _ (fun other => absurd rfl other) fun other =>
      absurd rfl other
  · exact setLoop_undisturbed server 0 _ (fun _ => rfl) fun _ gone => gone
  · exact absurd undestroyed id
  · exact absurd undestroyed id

end Frames

/-- No destructor, and no send() or shutdown() outside callbacks. -/
def Served (action : Action) : Prop :=
  match action with
  | .destroy _ | .destructor _ | .send _ | .shutdown _ | .advance _ => False
  | _ => True

instance : DecidablePred Served
  | .destroy _ | .destructor _ | .send _ | .shutdown _ | .advance _ => isFalse id
  | .loop | .test _ | .poll _ _ | .handle _ _ | .swap _ | .functor _ _ | .finish _ | .quitBase
  | .queueOther
  | .copy _ | .drop _ => isTrue trivial

/-- What the steps of a living server keep. -/
structure Living (server : Server) : Prop where
  orderly : Orderly server
  alive : server.stage = .alive
  running : ∀ loop, loop ≠ 0 → (server.loops loop).quit_ = false

theorem living_allowed (server : Server) (living : Living server) (action : Action)
    (served : Served action) :
    Allowed server action := by
  cases action with
  | functor loop choice =>
      intro task left phase
      cases task with
      | connectDestroyed id => exact Or.inl living.alive
      | removeConnectionInLoop id => exact living.alive
      | _ => trivial
  | test loop =>
      intro quitting _ pool
      rw [living.running loop pool] at quitting
      cases quitting
  | advance user => exact absurd served id
  | destroy order => exact absurd served id
  | destructor choice => exact absurd served id
  | _ => trivial

theorem step_living (server : Server) (action : Action) (after : Server) (living : Living server)
    (served : Served action) (stepped : step server action = some after) : Living after := by
  have undestroyed : Undestroyed action := by cases action <;> first | exact served | trivial
  have allowed := living_allowed server living action served
  have kept := step_undisturbed server action after undestroyed stepped
  constructor
  · exact step_orderly server action after living.orderly allowed stepped
  · rw [kept.stage, living.alive]
  · intro loop pool
    rw [kept.quit loop pool, living.running loop pool]

section Started
variable (name ipPort : String) (numThreads : Nat)

theorem started_base : Base (started name ipPort numThreads) := by
  constructor
  case ready => exact ⟨fun id => ⟨rfl, rfl, rfl⟩, fun user member => absurd member List.not_mem_nil⟩
  case ids =>
    intro id
    simp only [started, true_iff]
    omega
  case pool => exact fun id => Nat.zero_le _
  case names =>
    intro entry member
    cases member
  case distinct => exact List.nodup_nil
  case bound =>
    intro loop task member
    by_cases base : loop = 0 <;> simp [started, waiting, leftTasks, base] at member
  case batch =>
    intro loop left phase
    by_cases base : loop = 0 <;> simp [started, base] at phase
  case listed =>
    intro _ loop left phase
    by_cases base : loop = 0 <;> simp [started, base] at phase
  case robin => exact (Nat.eq_zero_or_pos numThreads).symm
  case first => exact Nat.one_pos
  case working =>
    intro _ loop pool
    simp [started, pool]

theorem started_orderly : Orderly (started name ipPort numThreads) := by
  refine ⟨started_base name ipPort numThreads, fun id => ?_⟩
  have empty : card (started name ipPort numThreads) id =
      ⟨0, .absent, false, false, fun _ => [], fun _ => 0, fun _ => false⟩ := by
    have waits : ∀ loop, tokens id ((started name ipPort numThreads).loops loop) = [] := by
      intro loop
      by_cases base : loop = 0 <;> simp [started, tokens, waiting, leftTasks, base]
    have left : ∀ loop, events id ((started name ipPort numThreads).loops loop) = 0 := by
      intro loop
      by_cases base : loop = 0 <;> simp [started, events, leftEvents, base]
    have ended : ∀ loop, decide (loop ≠ 0 ∧
        ((started name ipPort numThreads).loops loop).phase = .outside) = false := by
      intro loop
      by_cases base : loop = 0 <;> simp [started, base]
    simp only [card, waits, left, mapped, ended]
    rfl
  rw [empty]
  exact absent_fine _

theorem started_living : Living (started name ipPort numThreads) :=
  ⟨started_orderly name ipPort numThreads, rfl, fun _ _ => rfl⟩

/-- Callbacks come in order, the table has exactly the connections not yet removed, and a
connection is released after its connectDestroyed and outside the active channels only. -/
theorem live_lifecycle (trace : List Action) (last : Server)
    (served : ∀ action ∈ trace, Served action)
    (ran : Transition.run step (started name ipPort numThreads) trace = some last) :
    WellManaged last := by
  have guarded : Transition.Guarded step (fun _ action => Served action)
      (started name ipPort numThreads) trace := by
    clear ran
    generalize started name ipPort numThreads = server
    induction trace generalizing server with
    | nil => trivial
    | cons action rest ih =>
        refine ⟨served action (List.mem_cons_self ..), ?_⟩
        split
        · trivial
        · exact ih (fun later member => served later (List.mem_cons_of_mem action member)) _
  have living := Transition.run_preserves step (fun _ action => Served action) Living
    (fun before action after living served stepped =>
      step_living before action after living served stepped)
    _ last trace guarded (started_living name ipPort numThreads) ran
  exact orderly_wellManaged last living.orderly living.alive

end Started

/-- One loop in the pool: a connection sends a message, hangs up and is removed. -/
def hangUp : List Action :=
  [.loop, .test 0, .poll 0 [.acceptor], .handle 0 { sockfd := 5 }, .swap 0, .finish 0,
    .test 1, .poll 1 [], .swap 1, .functor 1 {}, .finish 1,
    .test 1, .poll 1 [.connection 1 EPOLLIN], .handle 1 { n := 3, calls := [.send 1 false true] },
      .swap 1,
    .functor 1 {}, .finish 1, .test 1, .poll 1 [.connection 1 EPOLLHUP], .handle 1 {}, .swap 1,
      .finish 1,
    .test 0, .poll 0 [], .swap 0, .functor 0 {}, .finish 0, .test 1, .poll 1 [], .swap 1,
      .functor 1 {}, .finish 1]

theorem live_lifecycle_hangUp :
    ∃ last, Transition.run step (started "chat" "0:9000" 1) hangUp = some last ∧
    WellManaged last ∧ Released last 1 := by
  have reached : (Transition.run step (started "chat" "0:9000" 1) hangUp).map
      (fun last => decide ((1 ≤ 1 ∧ 1 < last.nextConnId_) ∧ useCount last 1 = 0)) = some true := by
        decide +kernel
  obtain ⟨last, ran, state⟩ := Option.map_eq_some_iff.mp reached
  have released : Released last 1 := by simpa [Released, Accepted] using state
  exact ⟨last, ran, live_lifecycle "chat" "0:9000" 1 hangUp last (by decide) ran, released⟩

end MuduoChat.TcpServer
