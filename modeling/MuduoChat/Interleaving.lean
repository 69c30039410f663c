import Mathlib.Data.List.Count
import Mathlib.Data.List.Forall2
import MuduoChat.Transition

/-!
Threads that run programs over a shared state, one atomic operation at a time and
in any order. A program is a tree: an operation and, for each result of it, what
follows. A monitor reads a program as a protocol: a mark says where a thread
stands, which operations it may take there and where each result leads. An
invariant over the shared state and the marks of all threads then needs one
case for each operation, whatever programs the threads run. Nothing here names
a program.
-/

namespace MuduoChat.Interleaving

inductive Prog (Op : Type) (Res : Op → Type) (α : Type) : Type where
  | done (value : α)
  | act (op : Op) (next : Res op → Prog Op Res α)

section Programs
variable {Op : Type} {Res : Op → Type} {α β : Type}

def Prog.bind : Prog Op Res α → (α → Prog Op Res β) → Prog Op Res β
  | .done value, next => next value
  | .act op rest, next => .act op fun result => (rest result).bind next

instance : Monad (Prog Op Res) where
  pure := .done
  bind := .bind

def call (op : Op) : Prog Op Res (Res op) := .act op .done

/-- The operation a program is about to take. -/
def Prog.head : Prog Op Res α → Option Op
  | .done _ => none
  | .act op _ => some op

@[simp] theorem pure_eq_done (value : α) : (pure value : Prog Op Res α) = .done value := rfl

@[simp] theorem bind_eq_bind (program : Prog Op Res α) (next : α → Prog Op Res β) :
    program.bind next = (program >>= next) := rfl

@[simp] theorem done_bind (value : α) (next : α → Prog Op Res β) :
  (Prog.done value >>= next) = next value := rfl

@[simp] theorem act_bind (op : Op) (rest : Res op → Prog Op Res α) (next : α → Prog Op Res β) :
    (Prog.act op rest >>= next) = .act op fun result => rest result >>= next := rfl

@[simp] theorem call_bind (op : Op) (next : Res op → Prog Op Res β) :
  (call op >>= next) = .act op next := rfl

end Programs

/-! Programs read as protocols. -/

structure Monitor (Op : Type) (Res : Op → Type) (Mark : Type) where
  allowed : Mark → Op → Prop
  after : Mark → (op : Op) → Res op → Mark

section Protocols
variable {Op : Type} {Res : Op → Type} {Mark α β : Type}

def Follows (monitor : Monitor Op Res Mark) : Prog Op Res α → (α → Mark → Prop) → Mark → Prop
  | .done value, post, mark => post value mark
  | .act op next, post, mark =>
      monitor.allowed mark op ∧ ∀ result, Follows monitor (next result) post
        (monitor.after mark op result)

@[simp] theorem follows_done (monitor : Monitor Op Res Mark) (value : α) (post : α → Mark → Prop)
  (mark : Mark) :
    Follows monitor (.done value) post mark ↔ post value mark := Iff.rfl

@[simp] theorem follows_act (monitor : Monitor Op Res Mark) (op : Op)
  (next : Res op → Prog Op Res α)
    (post : α → Mark → Prop) (mark : Mark) :
    Follows monitor (.act op next) post mark ↔
      monitor.allowed mark op ∧ ∀ result, Follows monitor (next result) post
        (monitor.after mark op result) :=
  Iff.rfl

@[simp] theorem follows_call (monitor : Monitor Op Res Mark) (op : Op)
  (post : Res op → Mark → Prop) (mark : Mark) :
    Follows monitor (call op) post mark ↔
      monitor.allowed mark op ∧ ∀ result, post result (monitor.after mark op result) := Iff.rfl

theorem follows_bind (monitor : Monitor Op Res Mark) (program : Prog Op Res α)
    (next : α → Prog Op Res β)
    (post : β → Mark → Prop) (mark : Mark) :
    Follows monitor (program >>= next) post mark ↔
      Follows monitor program (fun value => Follows monitor (next value) post) mark := by
  induction program generalizing mark with
  | done value => exact Iff.rfl
  | act op rest ih =>
      rw [act_bind, follows_act, follows_act]
      exact and_congr Iff.rfl (forall_congr' fun result => ih result _)

theorem follows_mono (monitor : Monitor Op Res Mark) (program : Prog Op Res α)
    (post weaker : α → Mark → Prop)
    (implied : ∀ value mark, post value mark → weaker value mark) (mark : Mark)
    (follows : Follows monitor program post mark) : Follows monitor program weaker mark := by
  induction program generalizing mark with
  | done value => exact implied value mark follows
  | act op rest ih => exact ⟨follows.1, fun result => ih result _ (follows.2 result)⟩

/-- One program after another that always ends at the same mark. -/
theorem follows_seq (monitor : Monitor Op Res Mark) (program : Prog Op Res α)
    (next : α → Prog Op Res β)
    (post : β → Mark → Prop) (mark middle : Mark)
    (first : Follows monitor program (fun _ last => last = middle) mark)
    (second : ∀ value, Follows monitor (next value) post middle) :
    Follows monitor (program >>= next) post mark := by
  rw [follows_bind]
  refine follows_mono monitor program _ _ (fun value last ended => ?_) mark first
  rw [ended]
  exact second value

/-- A thread whose mark is not final has a next operation, one its mark allows. -/
theorem follows_head (monitor : Monitor Op Res Mark) (program : Prog Op Res α)
    (post : α → Mark → Prop)
    (mark : Mark) (unfinished : ∀ value, ¬ post value mark)
    (follows : Follows monitor program post mark) :
    ∃ op, program.head = some op ∧ monitor.allowed mark op := by
  cases program with
  | done value => exact absurd follows (unfinished value)
  | act op rest => exact ⟨op, rfl, follows.1⟩

end Protocols

/-! Pools of threads. `launch` is the effect of starting a job, refused where the
job cannot start; `choice` is what the environment decides in an operation. -/

structure System (Shared Job Op : Type) (Res : Op → Type) (Choice : Type) where
  program : Job → Prog Op Res Unit
  launch : Job → Shared → Option Shared
  perform : Choice → (op : Op) → Shared → Option (Res op × Shared)

structure Pool (Shared Job Op : Type) (Res : Op → Type) where
  shared : Shared
  threads : List (Job × Prog Op Res Unit)

inductive Action (Job Choice : Type) where
  | spawn (job : Job)
  | step (thread : Nat) (choice : Choice)
  deriving DecidableEq

section Pools
variable {Shared Job Op : Type} {Res : Op → Type} {Choice Mark : Type}

def System.step (system : System Shared Job Op Res Choice) (pool : Pool Shared Job Op Res) :
    Action Job Choice → Option (Pool Shared Job Op Res)
  | .spawn job => (system.launch job pool.shared).map fun shared =>
      { shared := shared, threads := pool.threads ++ [(job, system.program job)] }
  | .step thread choice =>
      match pool.threads[thread]? with
      | some (job, .act op next) => (system.perform choice op pool.shared).map fun result =>
          { shared := result.2, threads := pool.threads.set thread (job, next result.1) }
      | _ => none

/-- The operation a thread is about to take. -/
def Pool.aboutTo (pool : Pool Shared Job Op Res) (thread : Nat) : Option (Job × Op) :=
  pool.threads[thread]?.bind fun entry => entry.2.head.map fun op => (entry.1, op)

/-- The other threads. -/
def Pool.others (pool : Pool Shared Job Op Res) (thread : Nat) : List (Job × Prog Op Res Unit) :=
  pool.threads.eraseIdx thread

def Quiet (pool : Pool Shared Job Op Res) : Prop := ∀ entry ∈ pool.threads, entry.2.head = none

instance (pool : Pool Shared Job Op Res) : Decidable (Quiet pool) :=
  inferInstanceAs (Decidable (∀ _ ∈ _, _))

/-- What depends on the next operation of a thread, given operation by operation. -/
@[reducible] def nextCases {motive : Option (Job × Op) → Type} (finished : motive none)
    (about : ∀ job op, motive (some (job, op))) : (next : Option (Job × Op)) → motive next
  | none => finished
  | some (job, op) => about job op

/-- A thread that keeps to its job's protocol from a mark on. -/
def Tied (monitor : Job → Monitor Op Res Mark) (final : Mark → Prop) (mark : Mark)
    (entry : Job × Prog Op Res Unit) : Prop :=
  Follows (monitor entry.1) entry.2 (fun _ => final) mark

def Held (monitor : Job → Monitor Op Res Mark) (final : Mark → Prop)
    (invariant : Shared → List Mark → Prop)
    (pool : Pool Shared Job Op Res) : Prop :=
  ∃ marks, List.Forall₂ (Tied monitor final) marks pool.threads ∧ invariant pool.shared marks

theorem step_shape (system : System Shared Job Op Res Choice) (pool after : Pool Shared Job Op Res)
    (thread : Nat) (choice : Choice)
    (stepped : system.step pool (.step thread choice) = some after) :
    ∃ left right job op next result, pool.threads = left ++ (job, .act op next) :: right ∧
      thread = left.length ∧ system.perform choice op pool.shared = some (result, after.shared) ∧
      after.threads = left ++ (job, next result) :: right := by
  simp only [System.step] at stepped
  cases entry : pool.threads[thread]? with
  | none => simp [entry] at stepped
  | some found =>
      obtain ⟨job, program⟩ := found
      obtain ⟨bound, same⟩ := List.getElem?_eq_some_iff.mp entry
      have cut : pool.threads = pool.threads.take thread ++ (job, program) :: pool.threads.drop
          (thread + 1) := by
        rw [← same, ← List.drop_eq_getElem_cons bound, List.take_append_drop]
      have length : (pool.threads.take thread).length = thread := by
        rw [List.length_take, Nat.min_eq_left (Nat.le_of_lt bound)]
      cases program with
      | done value => simp [entry] at stepped
      | act op next =>
          simp only [entry, Option.map_eq_some_iff] at stepped
          obtain ⟨⟨result, shared⟩, performed, rfl⟩ := stepped
          refine ⟨_, _, job, op, next, result, cut, length.symm, performed, ?_⟩
          rw [List.set_eq_take_append_cons_drop, if_pos bound]

theorem others_split (left right : List (Job × Prog Op Res Unit)) (entry : Job × Prog Op Res Unit)
    (shared : Shared) :
    Pool.others { shared := shared, threads := left ++ entry :: right } left.length = left ++
      right := by
  simp [Pool.others, List.eraseIdx_append_of_length_le]

theorem aboutTo_split (left right : List (Job × Prog Op Res Unit)) (job : Job) (op : Op)
    (next : Res op → Prog Op Res Unit) (shared : Shared) :
    Pool.aboutTo { shared := shared, threads := left ++ (job, .act op next) :: right } left.length =
      some (job, op) := by
  simp [Pool.aboutTo, Prog.head]

theorem aboutTo_shape (pool : Pool Shared Job Op Res) (thread : Nat) (job : Job) (op : Op)
    (next : pool.aboutTo thread = some (job, op)) :
    ∃ left right rest, pool.threads = left ++ (job, .act op rest) :: right ∧
      thread = left.length := by
  simp only [Pool.aboutTo, Option.bind_eq_some_iff, Option.map_eq_some_iff, Prod.mk.injEq] at next
  obtain ⟨⟨owner, program⟩, entry, found, head, rfl, rfl⟩ := next
  obtain ⟨bound, same⟩ := List.getElem?_eq_some_iff.mp entry
  cases program with
  | done value => cases head
  | act first rest =>
      cases head
      refine ⟨pool.threads.take thread, pool.threads.drop (thread + 1), rest, ?_, ?_⟩
      · rw [← same, ← List.drop_eq_getElem_cons bound, List.take_append_drop]
      · rw [List.length_take, Nat.min_eq_left (Nat.le_of_lt bound)]

theorem forall₂_middle {α β : Type} (relation : α → β → Prop) (marks : List α)
    (before behind : List β) (entry : β)
    (related : List.Forall₂ relation marks (before ++ entry :: behind)) :
    ∃ left mark right, marks = left ++ mark :: right ∧ List.Forall₂ relation left before ∧
      relation mark entry ∧
      List.Forall₂ relation right behind := by
  induction before generalizing marks with
  | nil =>
      obtain ⟨mark, right, first, rest, rfl⟩ := List.forall₂_cons_right_iff.mp related
      exact ⟨[], mark, right, rfl, .nil, first, rest⟩
  | cons other before ih =>
      obtain ⟨mark, marks, first, rest, rfl⟩ := List.forall₂_cons_right_iff.mp related
      obtain ⟨left, here, right, rfl, one, two, three⟩ := ih marks rest
      exact ⟨mark :: left, here, right, rfl, .cons first one, two, three⟩

/-- The mark of a thread allows its next operation. -/
theorem tied_about (monitor : Job → Monitor Op Res Mark) (final : Mark → Prop) (marks : List Mark)
    (pool : Pool Shared Job Op Res) (tied : List.Forall₂ (Tied monitor final) marks pool.threads)
    (thread : Nat) (job : Job) (op : Op) (next : pool.aboutTo thread = some (job, op)) :
    ∃ mark, marks[thread]? = some mark ∧ (monitor job).allowed mark op := by
  obtain ⟨before, behind, rest, threads, rfl⟩ := aboutTo_shape pool thread job op next
  rw [threads] at tied
  obtain ⟨left, mark, right, rfl, tiedLeft, first, _⟩ := forall₂_middle _ marks _ _ _ tied
  exact ⟨mark, by simp [← tiedLeft.length_eq], first.1⟩

/-- The other marks are those of the other threads. -/
theorem tied_others (monitor : Job → Monitor Op Res Mark) (final : Mark → Prop) (marks : List Mark)
    (pool : Pool Shared Job Op Res) (tied : List.Forall₂ (Tied monitor final) marks pool.threads)
    (thread : Nat) (job : Job) (op : Op) (next : pool.aboutTo thread = some (job, op)) :
    ∃ left mark right, marks = left ++ mark :: right ∧ (monitor job).allowed mark op ∧
      List.Forall₂ (Tied monitor final) (left ++ right) (pool.others thread) := by
  obtain ⟨before, behind, rest, split, rfl⟩ := aboutTo_shape pool thread job op next
  obtain ⟨shared, all⟩ := pool
  simp only at split
  subst split
  obtain ⟨left, mark, right, rfl, tiedLeft, first, tiedRight⟩ := forall₂_middle _ marks _ _ _ tied
  rw [others_split]
  exact ⟨left, mark, right, rfl, first.1, List.rel_append tiedLeft tiedRight⟩

/-- A mark of the others belongs to one of the other threads. -/
theorem tied_thread (monitor : Job → Monitor Op Res Mark) (final : Mark → Prop) (marks : List Mark)
    (threads : List (Job × Prog Op Res Unit))
    (tied : List.Forall₂ (Tied monitor final) marks threads)
    (mark : Mark) (member : mark ∈ marks) : ∃ entry ∈ threads, Tied monitor final mark entry := by
  induction tied with
  | nil => simp at member
  | cons first _ ih =>
      rcases List.mem_cons.mp member with rfl | later
      · exact ⟨_, List.mem_cons_self .., first⟩
      · obtain ⟨entry, inside, follows⟩ := ih later
        exact ⟨entry, List.mem_cons_of_mem _ inside, follows⟩

theorem quiet_final (monitor : Job → Monitor Op Res Mark) (final : Mark → Prop) (marks : List Mark)
    (pool : Pool Shared Job Op Res) (tied : List.Forall₂ (Tied monitor final) marks pool.threads)
    (quiet : Quiet pool) (mark : Mark) (member : mark ∈ marks) : final mark := by
  obtain ⟨⟨job, program⟩, inside, follows⟩ :=
    tied_thread monitor final marks pool.threads tied mark member
  have finished := quiet _ inside
  cases program with
  | done value => exact follows
  | act op next => simp [Prog.head] at finished

/-! The marks of a pool after one thread has moved. -/

theorem forall_replace (property : Mark → Prop) (left right : List Mark) (mark : Mark) :
    (∀ other ∈ left ++ mark :: right, property other) ↔
      property mark ∧ ∀ other ∈ left ++ right, property other := by
  simp only [List.mem_append, List.mem_cons]
  grind

theorem exists_replace (property : Mark → Prop) (left right : List Mark) (old new : Mark)
    (kept : property old → property new) (some_ : ∃ mark ∈ left ++ old :: right, property mark) :
    ∃ mark ∈ left ++ new :: right, property mark := by
  obtain ⟨mark, member, has⟩ := some_
  rw [List.mem_append, List.mem_cons] at member
  rcases member with before | rfl | behind
  · exact ⟨mark, List.mem_append_left _ before, has⟩
  · exact ⟨new, by simp, kept has⟩
  · exact ⟨mark, List.mem_append_right _ (List.mem_cons_of_mem new behind), has⟩

theorem others_member (left right : List Mark) (mark other : Mark)
    (member : other ∈ left ++ right) :
    other ∈ left ++ mark :: right := by
  rw [List.mem_append] at member
  rcases member with before | behind
  · exact List.mem_append_left _ before
  · exact List.mem_append_right left (List.mem_cons_of_mem mark behind)

theorem member_others (property : Mark → Prop) (left right : List Mark) (mark other : Mark)
    (member : other ∈ left ++ mark :: right) (has : property other) (lacks : ¬ property mark) :
    other ∈ left ++ right := by
  rw [List.mem_append, List.mem_cons] at member
  rcases member with before | rfl | behind
  · exact List.mem_append_left right before
  · exact absurd has lacks
  · exact List.mem_append_right left behind

/-- At most one of the marks has the property, and this one has it. -/
theorem countP_alone (property : Mark → Bool) (left right : List Mark) (mark : Mark)
    (here : property mark = true)
    (single : (left ++ mark :: right).countP property ≤ 1) (other : Mark)
    (member : other ∈ left ++ right) :
    property other = false := by
  simp only [List.countP_append, List.countP_cons, here, if_true] at single
  have leftNone : left.countP property = 0 := by omega
  have rightNone : right.countP property = 0 := by omega
  rw [List.countP_eq_zero] at leftNone rightNone
  rcases List.mem_append.mp member with inLeft | inRight
  · simpa using leftNone other inLeft
  · simpa using rightNone other inRight

theorem countP_replace (property : Mark → Bool) (left right : List Mark) (old new : Mark)
    (single : (left ++ old :: right).countP property ≤ 1)
    (less : property new = true → property old = true) :
    (left ++ new :: right).countP property ≤ 1 := by
  simp only [List.countP_append, List.countP_cons] at single ⊢
  cases kept : property new with
  | false => simp only [Bool.false_eq_true, if_false]; omega
  | true => simpa [less kept] using single

theorem forall_append_one (property : Mark → Prop) (marks : List Mark) (new : Mark)
    (here : property new)
    (old : ∀ mark ∈ marks, property mark) : ∀ mark ∈ marks ++ [new], property mark := by
  intro mark member
  rcases List.mem_append.mp member with before | last
  · exact old mark before
  · rw [List.mem_singleton.mp last]; exact here

theorem countP_append_one (property : Mark → Bool) (marks : List Mark) (new : Mark)
    (single : marks.countP property ≤ 1)
    (alone : property new = true → ∀ mark ∈ marks, property mark = false) :
    (marks ++ [new]).countP property ≤ 1 := by
  cases here : property new with
  | false => simpa [here] using single
  | true =>
      have nobody : marks.countP property = 0 := by
        rw [List.countP_eq_zero]
        intro mark member
        simp [alone here mark member]
      simp [nobody, here]

section Invariants
variable (system : System Shared Job Op Res Choice) (monitor : Job → Monitor Op Res Mark)
  (final : Mark → Prop) (invariant : Shared → List Mark → Prop)
  (guard : Pool Shared Job Op Res → Action Job Choice → Prop)
  (spawned : ∀ pool marks job shared, List.Forall₂ (Tied monitor final) marks pool.threads →
    guard pool (.spawn job) → invariant pool.shared marks →
      system.launch job pool.shared = some shared →
    ∃ mark, Tied monitor final mark (job, system.program job) ∧ invariant shared (marks ++ [mark]))
  (stepped : ∀ shared left right before behind mark job op next choice result after,
    List.Forall₂ (Tied monitor final) left before → List.Forall₂ (Tied monitor final) right behind →
    (monitor job).allowed mark op →
    guard { shared := shared, threads := before ++ (job, .act op next) :: behind }
      (.step before.length choice) →
    invariant shared (left ++ mark :: right) →
      system.perform choice op shared = some (result, after) →
    invariant after (left ++ (monitor job).after mark op result :: right))
include spawned stepped

/-- One action, one operation of one thread: the invariant is kept where that
operation keeps it. -/
theorem step_held (pool after : Pool Shared Job Op Res) (action : Action Job Choice)
    (held : Held monitor final invariant pool) (guarded : guard pool action)
    (moved : system.step pool action = some after) : Held monitor final invariant after := by
  obtain ⟨marks, tied, kept⟩ := held
  cases action with
  | spawn job =>
      simp only [System.step, Option.map_eq_some_iff] at moved
      obtain ⟨shared, launched, rfl⟩ := moved
      obtain ⟨mark, begun, placed⟩ := spawned pool marks job shared tied guarded kept launched
      exact ⟨marks ++ [mark], List.rel_append tied (List.Forall₂.cons begun List.Forall₂.nil),
        placed⟩
  | step thread choice =>
      obtain ⟨before, behind, job, op, next, result, threads, here, performed, placed⟩ :=
        step_shape system pool after thread choice moved
      obtain ⟨shared, all⟩ := pool
      obtain ⟨afterShared, afterThreads⟩ := after
      simp only at threads placed performed
      subst threads here placed
      obtain ⟨left, mark, right, rfl, tiedLeft, first, tiedRight⟩ :=
        forall₂_middle _ marks _ _ _ tied
      refine ⟨left ++ (monitor job).after mark op result :: right, ?_, ?_⟩
      · exact List.rel_append tiedLeft (List.Forall₂.cons (first.2 result) tiedRight)
      · exact stepped shared left right before behind mark job op next choice result
          afterShared tiedLeft
          tiedRight first.1 guarded kept performed

theorem run_held (pool after : Pool Shared Job Op Res) (trace : List (Action Job Choice))
    (guarded : Transition.Guarded system.step guard pool trace)
    (held : Held monitor final invariant pool)
    (ran : Transition.run system.step pool trace = some after) :
    Held monitor final invariant after :=
  Transition.run_preserves system.step guard (Held monitor final invariant)
    (fun before action next =>
      step_held system monitor final invariant guard spawned stepped before next
      action) pool after trace guarded held ran

end Invariants

/-! A pool with an observer: what is noted of each operation, with the thread that takes it. -/

structure Watched (Shared Job Op : Type) (Res : Op → Type) (Notes : Type) where
  pool : Pool Shared Job Op Res
  notes : Notes

section Observers
variable {Notes : Type} (system : System Shared Job Op Res Choice) (note : Nat → Op → Notes → Notes)

def System.watch (watched : Watched Shared Job Op Res Notes) (action : Action Job Choice) :
    Option (Watched Shared Job Op Res Notes) :=
  (system.step watched.pool action).map fun pool =>
    { pool := pool
      notes :=
        match action with
        | .spawn _ => watched.notes
        | .step thread _ =>
            match watched.pool.aboutTo thread with
            | some (_, op) => note thread op watched.notes
            | none => watched.notes }

variable (monitor : Job → Monitor Op Res Mark) (final : Mark → Prop)
    (invariant : Shared → Notes → List Mark → Prop)

def Noted (watched : Watched Shared Job Op Res Notes) : Prop :=
  Held monitor final (fun shared marks => invariant shared watched.notes marks) watched.pool

/-- One action of a watched pool. The thread that moves is known by its place. -/
theorem watch_noted (guard : Watched Shared Job Op Res Notes → Action Job Choice → Prop)
    (spawned : ∀ (watched : Watched Shared Job Op Res Notes) marks job shared,
      invariant watched.pool.shared watched.notes marks →
      system.launch job watched.pool.shared = some shared →
      ∃ mark, Tied monitor final mark (job, system.program job) ∧
        invariant shared watched.notes (marks ++ [mark]))
    (stepped : ∀ (watched : Watched Shared Job Op Res Notes) left right mark job op choice result after,
      watched.pool.aboutTo left.length = some (job, op) →
      guard watched (.step left.length choice) → (monitor job).allowed mark op →
      invariant watched.pool.shared watched.notes (left ++ mark :: right) →
      system.perform choice op watched.pool.shared = some (result, after) →
      invariant after (note left.length op watched.notes)
        (left ++ (monitor job).after mark op result :: right))
    (watched after : Watched Shared Job Op Res Notes) (action : Action Job Choice)
    (noted : Noted monitor final invariant watched) (guarded : guard watched action)
    (moved : system.watch note watched action = some after) :
    Noted monitor final invariant after := by
  simp only [System.watch, Option.map_eq_some_iff] at moved
  obtain ⟨pool, moved, rfl⟩ := moved
  obtain ⟨marks, tied, kept⟩ := noted
  cases action with
  | spawn job =>
      simp only [System.step, Option.map_eq_some_iff] at moved
      obtain ⟨shared, launched, rfl⟩ := moved
      obtain ⟨mark, begun, placed⟩ := spawned watched marks job shared kept launched
      exact ⟨marks ++ [mark], List.rel_append tied (List.Forall₂.cons begun List.Forall₂.nil),
        placed⟩
  | step thread choice =>
      obtain ⟨before, behind, job, op, next, result, threads, here, performed, placed⟩ :=
        step_shape system watched.pool pool thread choice moved
      have about : watched.pool.aboutTo before.length = some (job, op) := by
        simp [Pool.aboutTo, threads, Prog.head]
      rw [threads] at tied
      obtain ⟨left, mark, right, rfl, tiedLeft, first, tiedRight⟩ :=
        forall₂_middle _ marks _ _ _ tied
      have place : thread = left.length := here.trans tiedLeft.length_eq.symm
      rw [← tiedLeft.length_eq] at about
      subst place
      refine ⟨left ++ (monitor job).after mark op result :: right, ?_, ?_⟩
      · rw [placed]
        exact List.rel_append tiedLeft (List.Forall₂.cons (first.2 result) tiedRight)
      · simp only [about]
        exact stepped watched left right mark job op choice result pool.shared about guarded
          first.1 kept performed

end Observers

/-! One thread on its own: a program run from its first operation to its last. -/

def runProg (perform : Choice → (op : Op) → Shared → Option (Res op × Shared)) {α : Type} :
    Prog Op Res α → List Choice → Shared → Option (α × Shared)
  | .done value, [], shared => some (value, shared)
  | .act op next, choice :: rest, shared =>
      (perform choice op shared).bind fun result => runProg perform (next result.1) rest result.2
  | _, _, _ => none

/-- What a program run alone can give. -/
def Runs (perform : Choice → (op : Op) → Shared → Option (Res op × Shared)) {α : Type}
    (program : Prog Op Res α)
    (shared : Shared) (value : α) (after : Shared) : Prop :=
  ∃ choices, runProg perform program choices shared = some (value, after)

@[simp] theorem runs_done {α : Type}
  (perform : Choice → (op : Op) → Shared → Option (Res op × Shared)) (value last : α)
    (shared after : Shared) : Runs perform (.done value) shared last after ↔ last = value ∧
    after = shared := by
  constructor
  · rintro ⟨choices, ran⟩
    cases choices with
    | nil => simp_all [runProg]
    | cons choice rest => simp [runProg] at ran
  · rintro ⟨rfl, rfl⟩
    exact ⟨[], rfl⟩

@[simp] theorem runs_act {α : Type}
  (perform : Choice → (op : Op) → Shared → Option (Res op × Shared)) (op : Op)
    (next : Res op → Prog Op Res α) (shared after : Shared) (value : α) :
    Runs perform (.act op next) shared value after ↔ ∃ choice result middle,
      perform choice op shared = some (result, middle) ∧
        Runs perform (next result) middle value after := by
  constructor
  · rintro ⟨choices, ran⟩
    cases choices with
    | nil => simp [runProg] at ran
    | cons choice rest =>
        simp only [runProg, Option.bind_eq_some_iff] at ran
        obtain ⟨⟨result, middle⟩, performed, tail⟩ := ran
        exact ⟨choice, result, middle, performed, rest, tail⟩
  · rintro ⟨choice, result, middle, performed, rest, tail⟩
    exact ⟨choice :: rest, by simp [runProg, performed, tail]⟩

theorem runs_bind {α β : Type} (perform : Choice → (op : Op) → Shared → Option (Res op × Shared))
    (program : Prog Op Res α) (next : α → Prog Op Res β) (shared after : Shared) (last : β) :
    Runs perform (program >>= next) shared last after ↔ ∃ value middle,
      Runs perform program shared value middle ∧ Runs perform (next value) middle last after := by
  induction program generalizing shared with
  | done value => simp
  | act op rest ih =>
      simp only [act_bind, runs_act, ih]
      constructor
      · rintro ⟨choice, result, state, performed, value, middle, first, second⟩
        exact ⟨value, middle, ⟨choice, result, state, performed, first⟩, second⟩
      · rintro ⟨value, middle, ⟨choice, result, state, performed, first⟩, second⟩
        exact ⟨choice, result, state, performed, value, middle, first, second⟩

/-- A program run alone keeps to its protocol as well. -/
theorem runs_follows {α : Type} (perform : Choice → (op : Op) → Shared → Option (Res op × Shared))
    (monitor : Monitor Op Res Mark) (invariant : Shared → Mark → Prop)
    (kept : ∀ mark op choice shared result after, monitor.allowed mark op → invariant shared mark →
      perform choice op shared = some (result, after) →
        invariant after (monitor.after mark op result))
    (program : Prog Op Res α) (post : α → Mark → Prop) (mark : Mark) (shared after : Shared)
    (value : α)
    (follows : Follows monitor program post mark) (start : invariant shared mark)
    (ran : Runs perform program shared value after) :
    ∃ last, post value last ∧ invariant after last := by
  induction program generalizing mark shared with
  | done result =>
      obtain ⟨rfl, rfl⟩ := (runs_done perform result value shared after).mp ran
      exact ⟨mark, follows, start⟩
  | act op next ih =>
      obtain ⟨choice, result, middle, performed, tail⟩ :=
        (runs_act perform op next shared after value).mp ran
      exact ih result _ middle (follows.2 result)
        (kept mark op choice shared result middle follows.1 start performed) tail

end Pools
end MuduoChat.Interleaving
