import MuduoChat.EventLoop

/-!
Wake-ups of the loop thread. It swaps pendingFunctors_ after it has read the
eventfd, so what is in the queue when it polls was appended after the swap: by a
functor, which sees callingPendingFunctors_ and writes to the eventfd at once, or
by another thread, which writes next. Only what the loop thread queued before its
first iteration can wait for that one poll without a write.
-/

namespace MuduoChat.EventLoop
open Interleaving

section Wakeup
variable {F : Type}

/-- A thread that will write to the eventfd, or swap the queue, before the next poll. -/
def attends (mark : Mark F) : Prop :=
  match mark.phase, mark.call with
  | .outside, .owing _ => True
  | .handling, _ => True
  | .swapping, _ => True
  | .running _, .posted _ => True
  | .running _, .owing _ => True
  | _, _ => False

/-- `early`: the loop thread has left something in the queue before its first iteration. -/
structure Attended (early : Prop) (shared : Shared F) (marks : List (Mark F)) :
    Prop extends Sound shared marks where
  created : ∀ mark ∈ marks, mark.phase ≠ .preparing
  waited : shared.pendingFunctors_ ≠ [] →
    0 < shared.wakeupFd_ ∨ (early ∧ shared.polls = 0) ∨ ∃ mark ∈ marks, attends mark

theorem created_after (job : Job F) (mark : Mark F) (op : Op F) (result : Res op)
    (moves : Allowed job mark op)
    (created : mark.phase ≠ .preparing) : nextPhase mark.phase op result ≠ .preparing := by
  cases moves with
  | loadQuit => cases result <;> simp [nextPhase]
  | _ => first | exact created | simp [nextPhase]

/-- What one operation leaves for the next poll. -/
theorem attended_own (shared : Shared F) (job : Job F) (mark : Mark F) (op : Op F)
    (choice : Choice F)
    (moves : Allowed job mark op) (created : mark.phase ≠ .preparing)
    (known : Knows shared mark.phase)
    (waiting : (effect shared op).pendingFunctors_ ≠ []) :
    0 < (effect shared op).wakeupFd_ ∨
      attends ⟨nextPhase mark.phase op (answer choice shared op),
        nextCall mark op (answer choice shared op)⟩ ∨
      (shared.pendingFunctors_ ≠ [] ∧ (effect shared op).wakeupFd_ = shared.wakeupFd_ ∧
        (effect shared op).polls = shared.polls ∧ ¬ attends mark) := by
  cases moves with
  | append phase cb queuing =>
      -- a handler runs before the swap, a functor writes where it finds itself called
      cases phase <;> simp_all [queues, attends, nextPhase, nextCall]
  | loadCalling phase position queuing =>
      cases phase <;> simp_all [queues, attends, nextPhase, nextCall, Knows, answer, effect]
  | noteReturn phase position => cases phase <;> simp_all [attends, nextPhase, nextCall, effect]
  | _ => simp_all [attends, nextPhase, nextCall, effect, queues]

theorem attended_step (early : Prop) (shared : Shared F) (left right : List (Mark F)) (job : Job F)
    (mark : Mark F)
    (op : Op F) (choice : Choice F) (attended : Attended early shared (left ++ mark :: right))
    (moves : Allowed job mark op) :
    Attended early (effect shared op) (left ++
      ⟨nextPhase mark.phase op (answer choice shared op),
        nextCall mark op (answer choice shared op)⟩ :: right) := by
  obtain ⟨sound, created, waited⟩ := attended
  rw [forall_replace (fun other : Mark F => other.phase ≠ .preparing)] at created
  have known :=
    (forall_replace (fun other : Mark F => Knows shared other.phase) left right mark).mp sound.knows
  refine ⟨sound_step shared left right job mark op _ sound moves, ?_, ?_⟩
  · rw [forall_replace (fun other : Mark F => other.phase ≠ .preparing)]
    exact ⟨created_after job mark op _ moves created.1, created.2⟩
  · intro waiting
    rcases attended_own shared job mark op choice moves created.1 known.1 waiting with counted | own | old
    · exact Or.inl counted
    · exact Or.inr (Or.inr ⟨_, by simp, own⟩)
    · obtain ⟨queued, counter, polls, idle⟩ := old
      rw [counter, polls]
      rcases waited queued with counted | first | ⟨other, member, busy⟩
      · exact Or.inl counted
      · exact Or.inr (Or.inl first)
      · have elsewhere := member_others attends left right mark other member busy idle
        exact Or.inr (Or.inr ⟨other, others_member left right _ other elsewhere, busy⟩)

theorem attended_spawn (early : Prop) (shared after : Shared F) (marks : List (Mark F))
    (job : Job F)
    (plain : ∀ rounds, job ≠ .threadFunc rounds) (attended : Attended early shared marks)
    (launched : launch job shared = some after) : Attended early after (marks ++ [start job]) := by
  obtain ⟨sound, created, waited⟩ := attended
  have unchanged := sound_spawn shared after marks job sound launched
  obtain ⟨owned, rfl⟩ := launch_frame shared after job launched
  have phase : (start job).phase ≠ .preparing := by
    cases job with
    | threadFunc rounds => exact absurd rfl (plain rounds)
    | _ => simp [start]
  constructor
  · exact unchanged
  · exact forall_append_one (fun mark : Mark F => mark.phase ≠ .preparing) marks _ phase created
  · intro queued
    rcases waited queued with counted | first | ⟨mark, member, busy⟩
    · exact Or.inl counted
    · exact Or.inr (Or.inl first)
    · exact Or.inr (Or.inr ⟨mark, List.mem_append_left _ member, busy⟩)

/-- The run of loop() alone; what a thread init callback has queued before is `waiting`. -/
def Direct (_ : Threads F) : Action (Job F) (Choice F) → Prop
  | .spawn (.threadFunc _) => False
  | _ => True

instance (pool : Threads F) : (action : Action (Job F) (Choice F)) → Decidable (Direct pool action)
  | .spawn (.threadFunc _) => isFalse id
  | .spawn (.loop _) => isTrue trivial
  | .spawn (.queueInLoop _) => isTrue trivial
  | .spawn .quit => isTrue trivial
  | .spawn .startLoop => isTrue trivial
  | .spawn .destructor => isTrue trivial
  | .step _ _ => isTrue trivial

variable [DecidableEq F]

theorem run_attended (waiting : List F) (count : Nat) (last : Threads F)
    (trace : List (Action (Job F) (Choice F)))
    (direct : Transition.Guarded threads.step Direct (constructed waiting count) trace)
    (ran : Transition.run threads.step (constructed waiting count) trace = some last) :
    Held monitor final (Attended (waiting ≠ [])) last := by
  refine run_held threads monitor final _ Direct ?_ ?_
    (constructed waiting count) last trace direct ?_ ran
  · intro pool marks job shared _ plain attended launched
    exact ⟨start job, program_follows job, attended_spawn _ pool.shared shared marks job
      (fun rounds same => by subst same; exact plain) attended launched⟩
  · intro shared left right before behind mark job op next choice result after _ _ moves _ attended
      performed
    obtain ⟨_, rfl, rfl⟩ := (perform_eq_some choice op shared after result).mp performed
    exact attended_step _ shared left right job mark op choice attended moves
  · refine ⟨[], List.Forall₂.nil, constructed_sound waiting count, by simp, fun queued => ?_⟩
    exact Or.inr (Or.inl ⟨queued, rfl⟩)

/-- Whenever the loop thread polls, but for functors it queued itself before its
first iteration, a waiting queue is announced on the eventfd, or another thread's
queueInLoop() has appended and is about to write. -/
theorem wakeup_not_lost (waiting : List F) (count : Nat) (last : Threads F)
    (trace : List (Action (Job F) (Choice F))) (thread : Nat) (job : Job F)
    (direct : Transition.Guarded threads.step Direct (constructed waiting count) trace)
    (ran : Transition.run threads.step (constructed waiting count) trace = some last)
    (polling : last.aboutTo thread = some (job, .poll)) (queued : last.shared.pendingFunctors_ ≠ [])
    (later : 0 < last.shared.polls ∨ waiting = []) :
    0 < last.shared.wakeupFd_ ∨
      ∃ entry ∈ last.others thread, (∃ cb, entry.1 = .queueInLoop cb) ∧
        entry.2.head = some .write := by
  obtain ⟨marks, tied, attended⟩ := run_attended waiting count last trace direct ran
  obtain ⟨left, mark, right, rfl, moves, others⟩ :=
    tied_others monitor final marks last tied thread job .poll polling
  cases moves
  rcases attended.waited queued with counted | ⟨early, none_⟩ | ⟨other, member, busy⟩
  · exact Or.inl counted
  · rcases later with some_ | empty
    · rw [none_] at some_
      cases some_
    · exact absurd empty early
  · right
    have elsewhere := member_others attends left right _ other member busy (by simp [attends])
    have outside := others_outside left right _ attended.single rfl other elsewhere
    obtain ⟨entry, inside, follows⟩ :=
      tied_thread monitor final (left ++ right) _ others other elsewhere
    obtain ⟨phase, stage⟩ := other
    simp only at outside
    subst outside
    cases stage with
    | owing position =>
        obtain ⟨op, head, writes⟩ := follows_head (monitor entry.1) entry.2 _ _
          (by simp [final]) follows
        cases writes with
        | write _ _ queuing => cases queuing
        | writeOutside cb _ calls => exact ⟨entry, inside, ⟨cb, calls⟩, head⟩
    | _ => exact absurd busy (by simp [attends])

end Wakeup

/-- One iteration, and a queueInLoop() that has appended when the loop polls again. -/
def appendedLate : List (Action (Job Nat) (Choice Nat)) :=
  .spawn (.loop 2) :: List.replicate 8 (.step 0 {}) ++ [.spawn (.queueInLoop 5), .step 1 {}]

theorem wakeup_not_lost_late : ∃ last : Threads Nat,
    Transition.run threads.step (constructed [] 0) appendedLate = some last ∧
      last.shared.pendingFunctors_ = [5] ∧
      (0 < last.shared.wakeupFd_ ∨
        ∃ entry ∈ last.others 0, (∃ cb, entry.1 = .queueInLoop cb) ∧ entry.2.head = some .write) :=
          by
  have reached : (Transition.run threads.step
      (constructed [] 0) appendedLate).map (fun last => decide
      (last.aboutTo 0 = some (.loop 2, .poll) ∧ last.shared.pendingFunctors_ = [5])) = some true :=
        by
    decide +kernel
  obtain ⟨last, ran, state⟩ := Option.map_eq_some_iff.mp reached
  obtain ⟨polling, queued⟩ := of_decide_eq_true state
  refine ⟨last, ran, queued, wakeup_not_lost [] 0 last appendedLate 0 (.loop 2) ?_ ran polling ?_
    (Or.inr rfl)⟩
  · decide +kernel
  · rw [queued]
    simp

end MuduoChat.EventLoop
