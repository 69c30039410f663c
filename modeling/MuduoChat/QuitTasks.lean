import MuduoChat.EventLoop

/-!
quit() and the queue. The test of the while loop comes right after
doPendingFunctors(), so a quit() that stores quit_ between the swap and the test
ends the loop with what was queued since the swap left in pendingFunctors_.
Where quit() stores quit_ while the loop thread still has a swap ahead of it, or
while nothing it owes is in the queue, everything accepted before quit() was
called runs. `owed` counts the functors up to the last one whose queueInLoop()
had returned when quit() was first called. It stays at that: the runs are about one
quit(), and a second one, after loop() has set quit_ back, owes nothing more here.
-/

namespace MuduoChat.EventLoop
open Interleaving

section Queue
variable {F : Type}

/-- The functors of a batch that are still to be run. -/
def batchOf : Phase F → List F
  | .running rest => rest
  | _ => []

def batch (marks : List (Mark F)) : List F := marks.flatMap fun mark => batchOf mark.phase

/-- Everything appended has run, waits in the batch, or waits in the queue, in this order. -/
def Ordered (shared : Shared F) (batch : List F) : Prop :=
  shared.executed ++ batch ++ shared.pendingFunctors_ = shared.appended ∧
    shared.taken = shared.executed.length + batch.length

theorem batch_split (left right : List (Mark F)) (mark : Mark F) :
    batch (left ++ mark :: right) = batch left ++ batchOf mark.phase ++ batch right := by
  simp [batch]

theorem batch_outside (marks : List (Mark F)) (outside : ∀ mark ∈ marks, mark.phase = .outside) :
    batch marks = [] := by
  rw [batch, List.flatMap_eq_nil_iff]
  intro mark member
  rw [outside mark member]
  rfl

theorem batch_inside (left right : List (Mark F)) (mark : Mark F)
    (single : (left ++ mark :: right).countP inside ≤ 1) (within : inside mark = true)
    (new : Mark F) :
    batch (left ++ new :: right) = batchOf new.phase := by
  have outside := others_outside left right mark single within
  rw [batch_split, batch_outside left fun other member => outside other
    (List.mem_append_left right member),
    batch_outside right fun other member => outside other (List.mem_append_right left member),
    List.nil_append, List.append_nil]

theorem ordered_inside (shared : Shared F) (job : Job F) (mark : Mark F) (op : Op F)
    (choice : Choice F)
    (moves : Allowed job mark op) (ordered : Ordered shared (batchOf mark.phase)) :
    Ordered (effect shared op) (batchOf (nextPhase mark.phase op (answer choice shared op))) := by
  obtain ⟨order, taken⟩ := ordered
  cases moves with
  | append phase cb queuing =>
      refine ⟨?_, taken⟩
      simp only [effect, nextPhase, ← List.append_assoc, order]
  | loadQuit =>
      cases quit : answer choice shared .loadQuit with
      | true => exact ⟨order, taken⟩
      | false => exact ⟨order, taken⟩
  | swap =>
      simp only [batchOf, List.append_nil, List.length_nil, Nat.add_zero] at order taken
      refine ⟨?_, ?_⟩
      · simpa [effect, answer, nextPhase, batchOf] using order
      · simp [effect, answer, nextPhase, batchOf, taken]
  | run functor rest =>
      simp only [batchOf, List.length_cons] at order taken
      refine ⟨?_, ?_⟩
      · simpa [effect, nextPhase, batchOf] using order
      · simp only [effect, nextPhase, batchOf, List.length_append, List.length_singleton,
          List.tail_cons, taken]
        omega
  | appendOutside cb =>
      refine ⟨?_, taken⟩
      simp only [effect, nextPhase, ← List.append_assoc, order]
  | _ => exact ⟨order, taken⟩

/-- A thread outside can only add to the end of the queue. -/
theorem ordered_outside (shared : Shared F) (job : Job F) (mark : Mark F) (op : Op F)
    (waiting : List F)
    (moves : Allowed job mark op) (away : inside mark = false) (ordered : Ordered shared waiting) :
    Ordered (effect shared op) waiting := by
  obtain ⟨order, taken⟩ := ordered
  cases moves with
  | appendOutside cb =>
      refine ⟨?_, taken⟩
      simp only [effect, ← List.append_assoc, order]
  | append phase cb queuing => cases phase <;> simp_all [inside, queues]
  | _ => first | exact ⟨order, taken⟩ | simp [inside] at away

theorem ordered_step (shared : Shared F) (left right : List (Mark F)) (job : Job F) (mark : Mark F)
    (op : Op F)
    (choice : Choice F) (single : (left ++ mark :: right).countP inside ≤ 1)
    (moves : Allowed job mark op)
    (ordered : Ordered shared (batch (left ++ mark :: right))) :
    Ordered (effect shared op) (batch (left ++
      ⟨nextPhase mark.phase op (answer choice shared op),
        nextCall mark op (answer choice shared op)⟩ :: right)) := by
  cases within : inside mark with
  | true =>
      rw [batch_inside left right mark single within] at ordered ⊢
      exact ordered_inside shared job mark op choice moves ordered
  | false =>
      rw [batch_split] at ordered ⊢
      have stays : inside ⟨nextPhase mark.phase op (answer choice shared op),
          nextCall mark op (answer choice shared op)⟩ = false := by
        rw [← Bool.not_eq_true] at within ⊢
        exact fun enters => within (inside_after job mark op _ moves enters)
      have before := outside_phase mark within
      have after := outside_phase _ stays
      simp only at after
      rw [after]
      rw [before] at ordered
      exact ordered_outside shared job mark op _ moves within ordered

/-! Positions in the queue, and what quit() owes. -/

def position : Call → Option Nat
  | .posted position => some position
  | .owing position => some position
  | .noting position => some position
  | _ => none

def swapAhead : Phase F → Bool
  | .polling => true
  | .handling => true
  | .swapping => true
  | _ => false

def ended : Phase F → Bool
  | .leaving => true
  | .finished => true
  | _ => false

structure Counted (shared : Shared F) (marks : List (Mark F)) :
    Prop extends Sound shared marks where
  ordered : Ordered shared (batch marks)
  accepted : shared.accepted ≤ shared.appended.length
  owed : shared.owed ≤ shared.appended.length
  positions : ∀ mark ∈ marks, ∀ place, position mark.call = some place →
    place < shared.appended.length
  called : shared.quitCalled = true ∨ shared.quitStored = false ∧
    ∀ mark ∈ marks, mark.call ≠ .storing
  stored : shared.quitStored = true → shared.owed ≤ shared.taken ∨ shared.willSwap = true
  quitting : shared.quit_ = true → shared.quitStored = true
  swaps : shared.willSwap = true → ∃ mark ∈ marks, swapAhead mark.phase = true
  ending : ∀ mark ∈ marks, ended mark.phase = true →
    shared.quitCalled = true ∧ shared.owed ≤ shared.executed.length
  returned : shared.returned = true → ∃ mark ∈ marks, mark.phase = .finished

section Operations
variable (shared : Shared F) (left right : List (Mark F)) (job : Job F) (mark : Mark F) (op : Op F)
  (choice : Choice F) (counted : Counted shared (left ++ mark :: right))
    (moves : Allowed job mark op)
include counted moves

theorem appended_grows : shared.appended.length ≤ (effect shared op).appended.length := by
  cases moves <;> simp [effect]

theorem own_position (place : Nat)
    (noted : position (nextCall mark op (answer choice shared op)) = some place) :
    place < (effect shared op).appended.length := by
  have before := counted.positions mark (by simp)
  cases moves with
  | loadCalling phase place queuing =>
      cases calling : shared.callingPendingFunctors_ <;>
        simp_all [position, nextCall, answer, effect]
  | _ => simp_all [position, nextCall, answer, effect, queues]

theorem marks_counted : (effect shared op).accepted ≤ (effect shared op).appended.length ∧
    (effect shared op).owed ≤ (effect shared op).appended.length := by
  have accepted := counted.accepted
  have owed := counted.owed
  have before := counted.positions mark (by simp)
  cases moves with
  | noteQuit =>
      simp only [effect]
      split <;> omega
  | noteReturn phase place =>
      have appended := before place rfl
      simp only [effect]
      omega
  | _ => first | exact ⟨accepted, owed⟩ |
      (simp only [effect, List.length_append, List.length_singleton]; omega)

theorem called_step : (effect shared op).quitCalled = true ∨ (effect shared op).quitStored = false ∧
    ∀ other ∈ left ++ ⟨nextPhase mark.phase op (answer choice shared op),
      nextCall mark op (answer choice shared op)⟩ :: right, other.call ≠ .storing := by
  rcases counted.called with called | ⟨unstored, nobody⟩
  · left
    cases moves <;> first | exact called | rfl
  · rw [forall_replace (fun other : Mark F => other.call ≠ .storing)] at nobody ⊢
    cases moves with
    | noteQuit => exact Or.inl rfl
    | storeQuit => exact absurd rfl nobody.1
    | loadCalling phase place queuing =>
        refine Or.inr ⟨unstored, ?_, nobody.2⟩
        cases calling : shared.callingPendingFunctors_ <;> simp [nextCall, answer, calling]
    | append phase cb queuing => exact Or.inr ⟨unstored, by simp [nextCall, queuing], nobody.2⟩
    | clearQuit => exact Or.inr ⟨by simpa [effect] using unstored, by simp [nextCall], nobody.2⟩
    | _ => exact Or.inr ⟨unstored, by simp [nextCall, queues], nobody.2⟩

omit moves in
/-- While the loop thread makes its test, no swap is ahead of it and its batch is done. -/
theorem testing_done (testing : mark.phase = .testing) :
    shared.willSwap = false ∧ shared.taken = shared.executed.length := by
  have within : inside mark = true := by simp [inside, testing]
  constructor
  · by_contra ahead
    rw [Bool.not_eq_false] at ahead
    obtain ⟨other, member, swaps⟩ := counted.swaps ahead
    have elsewhere := member_others
      (fun other : Mark F => swapAhead other.phase = true) left right mark other member
      swaps (by simp [testing, swapAhead])
    rw [others_outside left right mark counted.single within other elsewhere] at swaps
    cases swaps
  · have taken := counted.ordered.2
    rwa [batch_inside left right mark counted.single within, testing] at taken

/-- What quit() owes stays covered, where it was when quit_ was stored. -/
theorem stored_step (timely : op = .setQuit true → shared.owed ≤ shared.taken ∨
    shared.willSwap = true)
    (stored : (effect shared op).quitStored = true) :
    (effect shared op).owed ≤ (effect shared op).taken ∨ (effect shared op).willSwap = true := by
  have owed := counted.owed
  have covered := counted.stored
  cases moves with
  | storeQuit => exact timely rfl
  | clearQuit => exact covered (by simpa [effect] using stored)
  | noteQuit =>
      rcases counted.called with called | ⟨unstored, _⟩
      · simpa only [effect, called, if_true] using covered stored
      · rw [show (effect shared .noteQuit).quitStored = shared.quitStored from rfl,
          unstored] at stored
        cases stored
  | loadQuit =>
      rcases covered stored with taken | ahead
      · exact Or.inl taken
      · rw [(testing_done shared left right _ counted rfl).1] at ahead
        cases ahead
  | swap =>
      left
      obtain ⟨order, taken⟩ := counted.ordered
      rw [batch_inside left right _ counted.single rfl] at order taken
      have length := congrArg List.length order
      simp only [batchOf, List.append_nil, List.length_nil, List.length_append,
        Nat.add_zero] at length taken
      simp only [effect]
      omega
  | _ => exact covered stored

theorem swaps_step (swaps : (effect shared op).willSwap = true) :
    ∃ other ∈ left ++ ⟨nextPhase mark.phase op (answer choice shared op),
      nextCall mark op (answer choice shared op)⟩ :: right, swapAhead other.phase = true := by
  have ahead := counted.swaps
  cases moves with
  | loadQuit =>
      refine ⟨_, List.mem_append_right left (List.mem_cons_self ..), ?_⟩
      simp only [effect, Bool.not_eq_true'] at swaps
      simp [nextPhase, answer, swaps, swapAhead]
  | swap => cases swaps
  | _ =>
      refine exists_replace (fun other : Mark F => swapAhead other.phase = true) left right _ _
        (fun here => ?_)
        (ahead swaps)
      exact here

theorem returned_step (returned : (effect shared op).returned = true) :
    ∃ other ∈ left ++ ⟨nextPhase mark.phase op (answer choice shared op),
      nextCall mark op (answer choice shared op)⟩ :: right, other.phase = .finished := by
  have before := counted.returned
  cases moves with
  | clearLooping => exact ⟨_, List.mem_append_right left (List.mem_cons_self ..), rfl⟩
  | setLooping =>
      exact exists_replace (fun other : Mark F => other.phase = .finished) left right _ _ (by simp)
        (before (by simpa [effect] using returned))
  | _ =>
      refine exists_replace (fun other : Mark F => other.phase = .finished) left right _ _
        (fun here => ?_)
        (before returned)
      first | exact here | cases here

/-- When the test ends the loop, everything owed has run. -/
theorem ending_step [DecidableEq F] (enabled_ : enabled choice shared op = true) :
    ∀ other ∈ left ++ ⟨nextPhase mark.phase op (answer choice shared op),
      nextCall mark op (answer choice shared op)⟩ :: right, ended other.phase = true →
      (effect shared op).quitCalled = true ∧
        (effect shared op).owed ≤ (effect shared op).executed.length := by
  have before := counted.ending
  rw [forall_replace (fun other : Mark F => ended other.phase = true →
    shared.quitCalled = true ∧ shared.owed ≤ shared.executed.length)] at before
  have kept : shared.quitCalled = true ∧ shared.owed ≤ shared.executed.length →
      (effect shared op).quitCalled = true ∧
        (effect shared op).owed ≤ (effect shared op).executed.length := by
    rintro ⟨called, owed⟩
    cases moves with
    | noteQuit => exact ⟨rfl, by simpa [effect, called] using owed⟩
    | run functor rest =>
        refine ⟨called, ?_⟩
        simp only [effect, List.length_append]
        omega
    | _ => exact ⟨called, owed⟩
  rw [forall_replace (fun other : Mark F => ended other.phase = true →
    (effect shared op).quitCalled = true ∧
    (effect shared op).owed ≤ (effect shared op).executed.length)]
  refine ⟨fun finished => ?_, fun other member finished => kept (before.2 other member finished)⟩
  cases moves with
  | loadQuit =>
      have quit : shared.quit_ = true := by
        cases value : shared.quit_ with
        | true => rfl
        | false => simp [nextPhase, answer, value, ended] at finished
      have stored := counted.quitting quit
      obtain ⟨idle, taken⟩ := testing_done shared left right _ counted rfl
      rcases counted.called with called | ⟨unstored, _⟩
      · refine ⟨called, ?_⟩
        rcases counted.stored stored with covered | ahead
        · exact taken ▸ covered
        · rw [idle] at ahead
          cases ahead
      · rw [unstored] at stored
        cases stored
  | stall => cases enabled_
  | clearLooping => exact kept (before.1 rfl)
  | _ => exact kept (before.1 finished)

theorem counted_step [DecidableEq F] (enabled_ : enabled choice shared op = true)
    (timely : op = .setQuit true → shared.owed ≤ shared.taken ∨ shared.willSwap = true) :
    Counted (effect shared op) (left ++
      ⟨nextPhase mark.phase op (answer choice shared op),
        nextCall mark op (answer choice shared op)⟩ :: right) := by
  obtain ⟨accepted, owed⟩ := marks_counted shared left right job mark op counted moves
  have grows := appended_grows shared left right job mark op counted moves
  have places := counted.positions
  constructor
  case toSound => exact sound_step shared left right job mark op _ counted.toSound moves
  case ordered =>
    exact ordered_step shared left right job mark op choice counted.single moves counted.ordered
  case accepted => exact accepted
  case owed => exact owed
  case positions =>
    rw [forall_replace (fun other : Mark F => ∀ place, position other.call = some place →
      place < (effect shared op).appended.length)]
    refine ⟨own_position shared left right job mark op choice counted moves,
      fun other member place noted => ?_⟩
    rw [forall_replace (fun other : Mark F => ∀ place, position other.call = some place →
      place < shared.appended.length)] at places
    exact Nat.lt_of_lt_of_le (places.2 other member place noted) grows
  case called => exact called_step shared left right job mark op choice counted moves
  case stored => exact stored_step shared left right job mark op counted moves timely
  case quitting =>
    have quitting := counted.quitting
    cases moves <;> first | exact quitting | simp [effect]
  case swaps => exact swaps_step shared left right job mark op choice counted moves
  case ending => exact ending_step shared left right job mark op choice counted moves enabled_
  case returned => exact returned_step shared left right job mark op choice counted moves

end Operations

theorem counted_spawn (shared after : Shared F) (marks : List (Mark F)) (job : Job F)
    (counted : Counted shared marks)
    (launched : launch job shared = some after) : Counted after (marks ++ [start job]) := by
  obtain ⟨sound, ordered, accepted, owed, positions, called, stored, quitting, swaps, ending,
      returned⟩ := counted
  have kept := sound_spawn shared after marks job sound launched
  obtain ⟨owned, rfl⟩ := launch_frame shared after job launched
  have begins : (start job).call = .nothing ∧ batchOf (start job).phase = [] ∧
      ended (start job).phase = false := by
    cases job <;> exact ⟨rfl, rfl, rfl⟩
  obtain ⟨plain, empty, begins⟩ := begins
  have more : ∀ property : Mark F → Prop, (∃ mark ∈ marks, property mark) →
      ∃ mark ∈ marks ++ [start job], property mark := by
    rintro property ⟨mark, member, has⟩
    exact ⟨mark, List.mem_append_left _ member, has⟩
  constructor
  case toSound => exact kept
  case ordered =>
    have same : batch (marks ++ [start job]) = batch marks := by simp [batch, empty]
    rw [same]
    exact ordered
  case accepted => exact accepted
  case owed => exact owed
  case positions => exact forall_append_one _ marks _ (by simp [plain, position]) positions
  case called =>
    rcases called with some_ | ⟨unstored, nobody⟩
    · exact Or.inl some_
    · exact Or.inr ⟨unstored, forall_append_one (fun mark : Mark F => mark.call ≠ .storing) marks _
        (by simp [plain]) nobody⟩
  case stored => exact stored
  case quitting => exact quitting
  case swaps => exact fun ahead => more _ (swaps ahead)
  case ending => exact forall_append_one _ marks _ (by simp [begins]) ending
  case returned => exact fun left_ => more _ (returned left_)

theorem constructed_counted (waiting : List F) (count : Nat) :
    Counted (constructed waiting count).shared [] := by
  constructor
  · exact constructed_sound waiting count
  · exact ⟨rfl, rfl⟩
  all_goals simp [constructed]

/-- quit() stores quit_ while a swap is ahead, or while nothing it owes is in the queue. -/
def Timely (pool : Threads F) : Action (Job F) (Choice F) → Prop
  | .spawn _ => True
  | .step thread _ =>
      match pool.aboutTo thread with
      | some (_, .setQuit true) => pool.shared.owed ≤ pool.shared.taken ∨
          pool.shared.willSwap = true
      | _ => True

end Queue

instance {F : Type} (pool : Threads F) (action : Action (Job F) (Choice F)) :
    Decidable (Timely pool action) := by
  induction action using Interleaving.Action.casesOn with
  | spawn job => exact isTrue trivial
  | step thread choice =>
      dsimp only [Timely]
      generalize pool.aboutTo thread = next
      induction next using nextCases with
      | finished => exact isTrue trivial
      | about job op =>
          induction op using Op.casesOn with
          | setQuit value => induction value using Bool.casesOn <;> (dsimp only; infer_instance)
          | _ => exact isTrue trivial

section Runs
variable {F : Type} [DecidableEq F]

theorem run_counted (waiting : List F) (count : Nat) (last : Threads F)
    (trace : List (Action (Job F) (Choice F)))
    (timely : Transition.Guarded threads.step Timely (constructed waiting count) trace)
    (ran : Transition.run threads.step (constructed waiting count) trace = some last) :
    Held monitor final Counted last := by
  refine run_held threads monitor final Counted Timely ?_ ?_
    (constructed waiting count) last trace timely ?_ ran
  · intro pool marks job shared _ _ counted launched
    exact ⟨start job, program_follows job,
      counted_spawn pool.shared shared marks job counted launched⟩
  · intro shared left right before behind mark job op next choice result after _ _ moves timely
      counted performed
    obtain ⟨enabled_, rfl, rfl⟩ := (perform_eq_some choice op shared after result).mp performed
    refine counted_step shared left right job mark op choice counted moves enabled_ fun stores => ?_
    subst stores
    simpa only [Timely, aboutTo_split] using timely
  · exact ⟨[], List.Forall₂.nil, constructed_counted waiting count⟩

/-- Everything accepted before quit() was called has run, once and in the order of
the queue, and what is left in the queue came later. -/
def NothingDropped (shared : Shared F) : Prop :=
  shared.executed ++ shared.pendingFunctors_ = shared.appended ∧
    shared.owed ≤ shared.executed.length

theorem quit_drops_nothing (waiting : List F) (count : Nat) (last : Threads F)
    (trace : List (Action (Job F) (Choice F)))
    (timely : Transition.Guarded threads.step Timely (constructed waiting count) trace)
    (ran : Transition.run threads.step (constructed waiting count) trace = some last)
    (returned : last.shared.returned = true) : NothingDropped last.shared := by
  obtain ⟨marks, _, counted⟩ := run_counted waiting count last trace timely ran
  obtain ⟨mark, member, finished⟩ := counted.returned returned
  obtain ⟨left, right, rfl⟩ := List.append_of_mem member
  have within : inside mark = true := by simp [inside, finished]
  have order := counted.ordered.1
  rw [batch_inside left right mark counted.single within, finished] at order
  exact ⟨by simpa [batchOf] using order, (counted.ending mark member (by simp [finished, ended])).2⟩

end Runs

/-- One iteration in which another thread queues a functor and then quits while the
loop is still polling. -/
def quitWhilePolling : List (Action (Job Nat) (Choice Nat)) :=
  .spawn (.loop 2) :: List.replicate 3 (.step 0 {}) ++ .spawn (.queueInLoop 5) :: List.replicate 3
    (.step 1 {}) ++
    .spawn .quit :: List.replicate 3
      (.step 2 {}) ++ .step 0 { active := [.wakeup] } :: List.replicate 7 (.step 0 {})

theorem quit_drops_nothing_polling : ∃ last : Threads Nat,
    Transition.run threads.step (constructed [] 0) quitWhilePolling = some last ∧
      last.shared.owed = 1 ∧
      last.shared.returned = true ∧ NothingDropped last.shared := by
  have reached : (Transition.run threads.step
      (constructed [] 0) quitWhilePolling).map (fun last => decide
      (last.shared.owed = 1 ∧ last.shared.returned = true)) = some true := by
    decide +kernel
  obtain ⟨last, ran, state⟩ := Option.map_eq_some_iff.mp reached
  obtain ⟨owed, returned⟩ := of_decide_eq_true state
  exact ⟨last, ran, owed, returned,
    quit_drops_nothing [] 0 last quitWhilePolling (by decide +kernel) ran returned⟩

/-- The functor is queued and quit() called when the loop thread has just swapped. -/
def quitAfterSwap : List (Action (Job Nat) (Choice Nat)) :=
  .spawn (.loop 2) :: List.replicate 6 (.step 0 {}) ++ .spawn (.queueInLoop 5) :: List.replicate 3
    (.step 1 {}) ++
    .spawn .quit :: List.replicate 3 (.step 2 {}) ++ List.replicate 3 (.step 0 {})

theorem queued_task_dropped : ∃ last : Threads Nat,
    Transition.run threads.step (constructed [] 0) quitAfterSwap = some last ∧
      last.shared.returned = true ∧
      last.shared.owed = 1 ∧ last.shared.executed = [] ∧ last.shared.pendingFunctors_ = [5] ∧
        ¬ NothingDropped last.shared := by
  have reached : (Transition.run threads.step
      (constructed [] 0) quitAfterSwap).map (fun last => decide
      (last.shared.returned = true ∧ last.shared.owed = 1 ∧ last.shared.executed = [] ∧
        last.shared.pendingFunctors_ = [5])) = some true := by
    decide +kernel
  obtain ⟨last, ran, state⟩ := Option.map_eq_some_iff.mp reached
  obtain ⟨returned, owed, executed, queued⟩ := of_decide_eq_true state
  refine ⟨last, ran, returned, owed, executed, queued, fun nothing => ?_⟩
  have prompt := nothing.2
  rw [owed, executed] at prompt
  cases prompt

end MuduoChat.EventLoop
