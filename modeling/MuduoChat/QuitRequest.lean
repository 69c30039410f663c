import MuduoChat.EventLoop

/-!
quit() and the start of loop(). threadFunc publishes loop_ before it calls loop(),
and loop() begins with quit_ = false, so a quit() in between is forgotten. A quit()
that stores quit_ after that store ends the loop: the flag stays, and while the
loop thread polls the wake-up of quit() is on the eventfd or about to be written.
-/

namespace MuduoChat.EventLoop
open Interleaving

section Request
variable {F : Type}

structure Remembered (shared : Shared F) (marks : List (Mark F)) :
    Prop extends Sound shared marks where
  kept : shared.quitStored = true → shared.entered = true ∧ shared.quit_ = true
  woken : shared.quitStored = true → (∃ mark ∈ marks, mark.phase = .polling) →
    0 < shared.wakeupFd_ ∨ ∃ mark ∈ marks, mark.phase = .outside ∧ mark.call = .waking

section Operations
variable (shared : Shared F) (left right : List (Mark F)) (job : Job F) (mark : Mark F) (op : Op F)
  (choice : Choice F) (remembered : Remembered shared (left ++ mark :: right))
    (moves : Allowed job mark op)
include remembered moves

theorem kept_step (late : op = .setQuit true → shared.entered = true)
    (stored : (effect shared op).quitStored = true) :
    (effect shared op).entered = true ∧ (effect shared op).quit_ = true := by
  have kept := remembered.kept
  cases moves with
  | storeQuit => exact ⟨by simp [effect, late rfl], rfl⟩
  | clearQuit =>
      have unentered : shared.entered = false :=
        remembered.knows _ (List.mem_append_right left (List.mem_cons_self ..))
      have entered := (kept (by simpa [effect] using stored)).1
      rw [unentered] at entered
      cases entered
  | _ => exact kept stored

/-- A poll that starts after quit() has stored quit_ was not preceded by its test. -/
theorem polling_before (stored : shared.quitStored = true)
    (polling : ∃ other ∈ left ++ ⟨nextPhase mark.phase op (answer choice shared op),
      nextCall mark op (answer choice shared op)⟩ :: right, other.phase = .polling) :
    (∃ other ∈ left ++ mark :: right, other.phase = .polling) ∧ op ≠ .read := by
  have quit := (remembered.kept stored).2
  have back : nextPhase mark.phase op (answer choice shared op) = .polling →
      mark.phase = .polling := by
    intro polls
    cases moves with
    | loadQuit => simp [nextPhase, answer, quit] at polls
    | _ => first | exact polls | simp [nextPhase] at polls
  constructor
  · exact exists_replace
      (fun other : Mark F => other.phase = .polling) left right _ mark back polling
  · rintro rfl
    cases moves
    obtain ⟨other, member, polls⟩ := polling
    have elsewhere := member_others
      (fun other : Mark F => other.phase = .polling) left right _ other member polls
      (by simp [nextPhase])
    rw [others_outside left right _ remembered.single rfl other elsewhere] at polls
    cases polls

theorem woken_step (stored : (effect shared op).quitStored = true)
    (polling : ∃ other ∈ left ++ ⟨nextPhase mark.phase op (answer choice shared op),
      nextCall mark op (answer choice shared op)⟩ :: right, other.phase = .polling) :
    0 < (effect shared op).wakeupFd_ ∨
      ∃ other ∈ left ++ ⟨nextPhase mark.phase op (answer choice shared op),
      nextCall mark op (answer choice shared op)⟩ :: right, other.phase = .outside ∧
        other.call = .waking := by
  have before := polling_before shared left right job mark op choice remembered moves
  have woken := remembered.woken
  have carried : (mark.phase = .outside ∧ mark.call = .waking →
      nextPhase mark.phase op (answer choice shared op) = .outside ∧
      nextCall mark op (answer choice shared op) = .waking) → shared.quitStored = true →
      (effect shared op).wakeupFd_ = shared.wakeupFd_ ∨ op = .read →
        0 < (effect shared op).wakeupFd_ ∨
      ∃ other ∈ left ++ ⟨nextPhase mark.phase op (answer choice shared op),
        nextCall mark op (answer choice shared op)⟩ :: right, other.phase = .outside ∧
          other.call = .waking := by
    intro stays old counter
    obtain ⟨polled, unread⟩ := before old polling
    rcases counter with same | reads
    · rw [same]
      exact (woken old polled).imp_right
        (exists_replace (fun other : Mark F => other.phase = .outside ∧
          other.call = .waking) left right mark _ stays)
    · exact absurd reads unread
  cases moves with
  | storeQuit => exact Or.inr ⟨_, List.mem_append_right left (List.mem_cons_self ..), rfl, rfl⟩
  | write => exact Or.inl (Nat.succ_pos _)
  | writeOutside => exact Or.inl (Nat.succ_pos _)
  | writeQuit => exact Or.inl (Nat.succ_pos _)
  | read => exact carried (by simp) stored (Or.inr rfl)
  | clearQuit => exact carried (by simp) (by simpa [effect] using stored) (Or.inl rfl)
  | _ => exact carried (by simp) stored (Or.inl rfl)

theorem remembered_step (late : op = .setQuit true → shared.entered = true) :
    Remembered (effect shared op) (left ++
      ⟨nextPhase mark.phase op (answer choice shared op),
        nextCall mark op (answer choice shared op)⟩ :: right) := by
  constructor
  · exact sound_step shared left right job mark op _ remembered.toSound moves
  · exact kept_step shared left right job mark op remembered moves late
  · exact woken_step shared left right job mark op choice remembered moves

end Operations

theorem remembered_spawn (shared after : Shared F) (marks : List (Mark F)) (job : Job F)
    (remembered : Remembered shared marks) (launched : launch job shared = some after) :
    Remembered after (marks ++ [start job]) := by
  obtain ⟨sound, kept, woken⟩ := remembered
  have unchanged := sound_spawn shared after marks job sound launched
  obtain ⟨owned, rfl⟩ := launch_frame shared after job launched
  have phase : (start job).phase ≠ .polling := by cases job <;> simp [start]
  constructor
  · exact unchanged
  · exact kept
  · rintro old ⟨mark, member, polls⟩
    rw [List.mem_append, List.mem_singleton] at member
    rcases member with before | rfl
    · rcases woken old ⟨mark, before, polls⟩ with counted | ⟨other, inside, wakes⟩
      · exact Or.inl counted
      · exact Or.inr ⟨other, List.mem_append_left _ inside, wakes⟩
    · exact absurd polls phase

/-- quit() stores quit_ only after loop() has cleared it. -/
def Late (pool : Threads F) : Action (Job F) (Choice F) → Prop
  | .spawn _ => True
  | .step thread _ =>
      match pool.aboutTo thread with
      | some (_, .setQuit true) => pool.shared.entered = true
      | _ => True

end Request

instance {F : Type} (pool : Threads F) (action : Action (Job F) (Choice F)) :
    Decidable (Late pool action) := by
  induction action using Interleaving.Action.casesOn with
  | spawn job => exact isTrue trivial
  | step thread choice =>
      dsimp only [Late]
      generalize pool.aboutTo thread = next
      induction next using nextCases with
      | finished => exact isTrue trivial
      | about job op =>
          induction op using Op.casesOn with
          | setQuit value => induction value using Bool.casesOn <;> (dsimp only; infer_instance)
          | _ => exact isTrue trivial

section Runs
variable {F : Type} [DecidableEq F]

theorem run_remembered (waiting : List F) (count : Nat) (last : Threads F)
    (trace : List (Action (Job F) (Choice F)))
    (late : Transition.Guarded threads.step Late (constructed waiting count) trace)
    (ran : Transition.run threads.step (constructed waiting count) trace = some last) :
    Held monitor final Remembered last := by
  refine run_held threads monitor final Remembered Late ?_ ?_
    (constructed waiting count) last trace late ?_ ran
  · intro pool marks job shared _ _ remembered launched
    exact ⟨start job, program_follows job,
      remembered_spawn pool.shared shared marks job remembered launched⟩
  · intro shared left right before behind mark job op next choice result after _ _ moves late
      remembered performed
    obtain ⟨_, rfl, rfl⟩ := (perform_eq_some choice op shared after result).mp performed
    refine remembered_step shared left right job mark op choice remembered moves fun stores => ?_
    subst stores
    simpa only [Late, aboutTo_split] using late
  · exact ⟨[], List.Forall₂.nil, constructed_sound waiting count, by simp [constructed],
      by simp [constructed]⟩

/-- Once quit() has stored quit_ it stays true, and a poll of the loop thread is one
that the wake-up of quit() ends. -/
theorem quit_request_kept (waiting : List F) (count : Nat) (last : Threads F)
    (trace : List (Action (Job F) (Choice F)))
    (late : Transition.Guarded threads.step Late (constructed waiting count) trace)
    (ran : Transition.run threads.step (constructed waiting count) trace = some last)
    (stored : last.shared.quitStored = true) : last.shared.quit_ = true ∧
      ∀ thread job, last.aboutTo thread = some (job, .poll) →
        0 < last.shared.wakeupFd_ ∨ ∃ entry ∈ last.others thread, entry.2.head = some .write := by
  obtain ⟨marks, tied, remembered⟩ := run_remembered waiting count last trace late ran
  refine ⟨(remembered.kept stored).2, fun thread job polling => ?_⟩
  obtain ⟨left, mark, right, rfl, moves, others⟩ :=
    tied_others monitor final marks last tied thread job .poll polling
  cases moves
  rcases remembered.woken stored ⟨_, List.mem_append_right left (List.mem_cons_self ..), rfl⟩ with
    counted | ⟨⟨phase, stage⟩, member, outside, waking⟩
  · exact Or.inl counted
  · right
    simp only at outside waking
    subst outside waking
    have elsewhere := member_others
      (fun other : Mark F => other.phase = .outside) left right _ _ member rfl (by simp)
    obtain ⟨entry, inside, follows⟩ :=
      tied_thread monitor final (left ++ right) _ others _ elsewhere
    obtain ⟨op, head, writes⟩ := follows_head (monitor entry.1) entry.2 _ _
      (by simp [final]) follows
    cases writes
    exact ⟨entry, inside, head⟩

end Runs

/-- startLoop(), and the destructor while the loop polls for the first time. -/
def destroyedWhilePolling : List (Action (Job Nat) (Choice Nat)) :=
  [.spawn .startLoop, .step 0 {}, .spawn (.threadFunc 2)] ++ List.replicate 5 (.step 1 {}) ++
    [.step 0 {}, .spawn .destructor] ++ List.replicate 3 (.step 2 {})

theorem quit_request_kept_polling : ∃ last : Threads Nat,
    Transition.run threads.step (constructed [] 0) destroyedWhilePolling = some last ∧
      last.shared.quit_ = true ∧ ∀ thread job, last.aboutTo thread = some (job, .poll) →
        0 < last.shared.wakeupFd_ ∨ ∃ entry ∈ last.others thread, entry.2.head = some .write := by
  have reached : (Transition.run threads.step
      (constructed [] 0) destroyedWhilePolling).map (fun last => decide
      (last.shared.quitStored = true)) = some true := by
    decide +kernel
  obtain ⟨last, ran, state⟩ := Option.map_eq_some_iff.mp reached
  exact ⟨last, ran, quit_request_kept [] 0 last destroyedWhilePolling (by decide +kernel) ran
    (of_decide_eq_true state)⟩

/-- The destructor runs between the publication of loop_ and the first store of loop(). -/
def destroyedBeforeLoop : List (Action (Job Nat) (Choice Nat)) :=
  [.spawn .startLoop, .step 0 {}, .spawn (.threadFunc 2)] ++ List.replicate 2 (.step 1 {}) ++
    [.step 0 {}, .spawn .destructor] ++ List.replicate 4 (.step 2 {}) ++ List.replicate 3
    (.step 1 {})

theorem quit_request_lost : ∃ last : Threads Nat,
    Transition.run threads.step (constructed [] 0) destroyedBeforeLoop = some last ∧
      last.shared.quitStored = true ∧ last.shared.quit_ = false ∧
        last.aboutTo 1 = some (.threadFunc 2, .poll) ∧
          last.aboutTo 2 = some (.destructor, .join) := by
  have reached : (Transition.run threads.step
      (constructed [] 0) destroyedBeforeLoop).map (fun last => decide
      (last.shared.quitStored = true ∧ last.shared.quit_ = false ∧
        last.aboutTo 1 = some (.threadFunc 2, .poll) ∧
          last.aboutTo 2 = some (.destructor, .join))) = some true := by
    decide +kernel
  obtain ⟨last, ran, state⟩ := Option.map_eq_some_iff.mp reached
  exact ⟨last, ran, of_decide_eq_true state⟩

end MuduoChat.EventLoop
