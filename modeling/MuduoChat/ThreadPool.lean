import Mathlib.Algebra.BigOperators.Group.Finset.Basic
import Mathlib.Algebra.Order.BigOperators.Group.Finset
import Mathlib.Data.Fintype.EquivFin
import MuduoChat.Transition

/-!
EventLoopThreadPool::start with EventLoopThread.cc and Thread.cc: the base thread starts the
threads one after another, and waits for each until its EventLoop is there. A thread makes its
loop on its stack, runs the init callback on it, stores its address in loop_ and calls notify_one.
A wait may also end with nothing notified. A loop is told to quit by others (`leave`). Addresses
are numbers; the names of the threads and what is logged are left out. `called` is a record of the
calls of the callback.
-/

namespace MuduoChat.ThreadPool
open Transition (run Guarded)

/-- The lambda of Thread::start, and threadFunc with the address of its loop. `unlocked`
is before the call of loop(). -/
inductive Func where
  | unborn
  | entering
  | posting
  | constructing
  | calling (loop : Nat)
  | locking (loop : Nat)
  | storing (loop : Nat)
  | notifying (loop : Nat)
  | unlocking (loop : Nat)
  | unlocked (loop : Nat)
  | looping (loop : Nat)
  | relocking (loop : Nat)
  | clearing (loop : Nat)
  | leaving (loop : Nat)
  | ended (loop : Nat)
  deriving DecidableEq

inductive Holder where
  | starter
  | thread
  deriving DecidableEq

/-- `sem` is the semaphore of Thread::start, `tid_` says if it is set. -/
structure EventLoopThread where
  loop_ : Option Nat := none
  mutex_ : Option Holder := none
  tid_ : Bool := false
  sem : Nat := 0
  func : Func := .unborn
  called : List Nat := []
  deriving DecidableEq

/-- The base thread in start: at the test of the for loop, at `new EventLoopThread` and
Thread::start, in sem_wait, and in startLoop. -/
inductive Starter where
  | deciding
  | creating
  | waitingTid
  | locking
  | testing
  | waiting
  | woken
  | returning (loop : Nat)
  | started
  deriving DecidableEq

/-- `i` is the counter of the for loop. -/
structure Pool where
  starter : Starter
  i : Nat
  threads_ : Nat → EventLoopThread
  loops_ : List Nat
  called : List Nat

inductive Action where
  | start
  | spurious
  | construct (j loop : Nat)
  | thread (j : Nat)
  | leave (j : Nat)
  deriving DecidableEq

section Steps
variable (baseLoop_ numThreads_ : Nat) (cb : Bool)

/-- The steps of a thread that depend on nothing but its EventLoopThread. -/
def threadFunc (t : EventLoopThread) : Option EventLoopThread :=
  match t.func with
  | .entering => some { t with tid_ := true, func := .posting }
  | .posting => some { t with sem := t.sem + 1, func := .constructing }
  | .calling loop =>
      some { t with called := if cb then t.called ++ [loop] else t.called, func := .locking loop }
  | .locking loop =>
      if t.mutex_ = none then some { t with mutex_ := some .thread, func := .storing loop }
      else none
  | .storing loop => some { t with loop_ := some loop, func := .notifying loop }
  | .notifying loop => some { t with func := .unlocking loop }
  | .unlocking loop => some { t with mutex_ := none, func := .unlocked loop }
  | .unlocked loop => some { t with func := .looping loop }
  | .relocking loop =>
      if t.mutex_ = none then some { t with mutex_ := some .thread, func := .clearing loop }
      else none
  | .clearing loop => some { t with loop_ := none, func := .leaving loop }
  | .leaving loop => some { t with mutex_ := none, func := .ended loop }
  | .unborn | .constructing | .looping _ | .ended _ => none

def Func.notifies : Func → Bool
  | .notifying _ => true
  | _ => false

def lock (starter : Starter) (t : EventLoopThread) : Option (Starter × EventLoopThread) :=
  if t.mutex_ = none then some (starter, { t with mutex_ := some .starter }) else none

/-- The base thread between `new EventLoopThread` and the return of startLoop, with the thread it
is about. -/
def startLoop (t : EventLoopThread) : Starter → Option (Starter × EventLoopThread)
  | .creating => some (.waitingTid, { func := .entering })
  | .waitingTid => if 0 < t.sem then some (.locking, { t with sem := t.sem - 1 }) else none
  | .locking => lock .testing t
  | .testing =>
      match t.loop_ with
      | none => some (.waiting, { t with mutex_ := none })
      | some loop => some (.returning loop, { t with mutex_ := none })
  | .woken => lock .testing t
  | .deciding | .waiting | .returning _ | .started => none

def start (pool : Pool) : Option Pool :=
  match pool.starter with
  | .deciding =>
      if pool.i < numThreads_ then some { pool with starter := .creating }
      else
        some { pool with starter := .started,
                         called := if numThreads_ = 0 ∧ cb then [baseLoop_] else [] }
  | .returning loop =>
      some { pool with starter := .deciding, i := pool.i + 1, loops_ := pool.loops_ ++ [loop] }
  | starter => (startLoop (pool.threads_ pool.i) starter).map fun next =>
      { pool with starter := next.1, threads_ := Function.update pool.threads_ pool.i next.2 }

/-- The base thread waits on the condition variable of thread `i`. -/
def notified (j : Nat) (pool : Pool) : Starter :=
  if (pool.threads_ j).func.notifies ∧ j = pool.i ∧ pool.starter = .waiting then .woken
  else pool.starter

def step (pool : Pool) : Action → Option Pool
  | .start => start baseLoop_ numThreads_ cb pool
  | .spurious => if pool.starter = .waiting then some { pool with starter := .woken } else none
  | .construct j loop =>
      if (pool.threads_ j).func = .constructing then
        some { pool with threads_ := Function.update pool.threads_ j
                           { pool.threads_ j with func := .calling loop } }
      else none
  | .thread j => (threadFunc cb (pool.threads_ j)).map fun t =>
      { pool with starter := notified j pool, threads_ := Function.update pool.threads_ j t }
  | .leave j =>
      match (pool.threads_ j).func with
      | .looping loop =>
          some { pool with threads_ := Function.update pool.threads_ j
                             { pool.threads_ j with func := .relocking loop } }
      | _ => none

/-- The loop of a thread, as long as it is there. -/
def Func.live : Func → Option Nat
  | .calling loop | .locking loop | .storing loop | .notifying loop | .unlocking loop
  | .unlocked loop | .looping loop
  | .relocking loop | .clearing loop | .leaving loop => some loop
  | .unborn | .entering | .posting | .constructing | .ended _ => none

/-- A new loop has an address of its own, and nobody stops a loop that start has not yet put into
loops_. -/
def Allowed (pool : Pool) : Action → Prop
  | .construct _ loop => loop ≠ baseLoop_ ∧
      ∀ k < numThreads_, (pool.threads_ k).func.live ≠ some loop
  | .leave j => j < pool.loops_.length
  | _ => True

instance (pool : Pool) (action : Action) :
    Decidable (Allowed baseLoop_ numThreads_ pool action) := by
  cases action <;> simp only [Allowed] <;> infer_instance

end Steps

/-- The pool after its constructor. -/
def fresh : Pool where
  starter := .deciding
  i := 0
  threads_ _ := {}
  loops_ := []
  called := []

/-! A thread while it is started is where threadFunc and the base thread are; nothing else is to be known of it. -/

section Places
variable (cb : Bool)

def Func.loop : Func → Option Nat
  | .calling loop | .locking loop | .storing loop | .notifying loop | .unlocking loop
  | .unlocked loop | .looping loop
  | .relocking loop | .clearing loop | .leaving loop | .ended loop => some loop
  | .unborn | .entering | .posting | .constructing => none

def Func.stored : Func → Option Nat
  | .notifying loop | .unlocking loop | .unlocked loop | .looping loop | .relocking loop
  | .clearing loop => some loop
  | .unborn | .entering | .posting | .constructing | .calling _ | .locking _ | .storing _
  | .leaving _ | .ended _ => none

def Func.holds : Func → Bool
  | .storing _ | .notifying _ | .unlocking _ | .clearing _ | .leaving _ => true
  | .unborn | .entering | .posting | .constructing | .calling _ | .locking _ | .unlocked _
  | .looping _ | .relocking _
  | .ended _ => false

def Func.numbered : Func → Bool
  | .unborn | .entering => false
  | _ => true

def Func.posted : Func → Bool
  | .unborn | .entering | .posting => false
  | _ => true

/-- threadFunc has not come past notify_one. -/
def Func.early : Func → Bool
  | .unborn | .entering | .posting | .constructing | .calling _ | .locking _ | .storing _
  | .notifying _ => true
  | _ => false

def Func.told : Func → List Nat
  | .unborn | .entering | .posting | .constructing | .calling _ => []
  | .locking loop | .storing loop | .notifying loop | .unlocking loop | .unlocked loop
  | .looping loop | .relocking loop
  | .clearing loop | .leaving loop | .ended loop => if cb then [loop] else []

/-- Not yet started, or after loop(). -/
def Func.outside : Func → Bool
  | .unborn | .relocking _ | .clearing _ | .leaving _ | .ended _ => true
  | _ => false

def picture (starter : Starter) (func : Func) : EventLoopThread where
  loop_ := func.stored
  mutex_ := if func.holds then some .thread else if starter = .testing then some .starter else none
  tid_ := func.numbered
  sem := if starter = .waitingTid ∧ func.posted then 1 else 0
  func := func
  called := func.told cb

/-- Where threadFunc can be while the base thread is at `starter`, in startLoop for this thread. -/
structure Agree (starter : Starter) (func : Func) : Prop where
  started : func.outside = false
  past : starter ≠ .waitingTid → func.posted = true
  tests : starter = .testing → func.holds = false
  waits : starter = .waiting → func.early = true
  returns : ∀ loop, starter = .returning loop → func = .unlocked loop ∨ func = .looping loop

/-- About to call loop(), in it, or after it. -/
def Func.given (loop : Nat) (func : Func) : Prop :=
  func = .unlocked loop ∨ func = .looping loop ∨ func = .relocking loop ∨ func = .clearing loop ∨
    func = .leaving loop ∨
    func = .ended loop

/-- A thread as the base thread finds it. -/
inductive View where
  | before
  | during (starter : Starter)
  | after (loop : Nat)
  deriving DecidableEq

def Fits (t : EventLoopThread) : View → Prop
  | .before => t = {}
  | .during starter => t = picture cb starter t.func ∧ Agree starter t.func
  | .after loop => t = picture cb .started t.func ∧ t.func.given loop

/-- Where the base thread is when a thread has taken its next step. -/
def wake (func : Func) (starter : Starter) : Starter :=
  if func.notifies ∧ starter = .waiting then .woken else starter

def View.wake (func : Func) : View → View
  | .during starter => .during (ThreadPool.wake func starter)
  | view => view

/-- The base thread is between the creation of thread `i` and push_back. -/
def Starter.within : Starter → Bool
  | .deciding | .creating | .started => false
  | _ => true

theorem during_next (starter : Starter) (func : Func) (after : EventLoopThread)
    (agree : Agree starter func)
    (stepped : threadFunc cb (picture cb starter func) = some after) :
    Fits cb after (.during (wake func starter)) := by
  obtain ⟨started, past, tests, waits, returns⟩ := agree
  cases func <;> simp only [threadFunc, picture, Option.some.injEq, reduceCtorEq] at stepped
  case locking loop =>
    -- the base thread does not hold the mutex
    have other : starter ≠ .testing := by
      rintro rfl
      simp [Func.holds] at stepped
    simp only [Func.holds, other, Bool.false_eq_true, if_false, if_true,
      Option.some.injEq] at stepped
    subst stepped
    refine ⟨?_, ?_⟩
    · simp_all [picture, wake, Func.notifies, Func.stored, Func.holds, Func.numbered, Func.posted,
        Func.early,
        Func.told, Func.outside]
    · constructor <;>
        simp_all [wake, Func.notifies, Func.holds, Func.posted, Func.early, Func.outside]
  case notifying loop =>
    subst stepped
    by_cases waiting : starter = .waiting
    · subst waiting
      exact ⟨rfl, rfl, fun _ => rfl, by simp [wake, Func.notifies], by simp [wake, Func.notifies],
        by simp [wake, Func.notifies]⟩
    · have same : wake (.notifying loop) starter = starter := if_neg fun both => waiting both.2
      rw [same]
      refine ⟨rfl, rfl, fun _ => rfl, fun testing => ?_, fun here => absurd here waiting,
        fun loop here => ?_⟩
      · cases tests testing
      · rcases returns loop here with place | place <;> cases place
  case relocking loop => cases started
  all_goals
    subst stepped
    refine ⟨?_, ?_⟩
    · simp_all [picture, wake, Func.notifies, Func.stored, Func.holds, Func.numbered, Func.posted,
        Func.early,
        Func.told, Func.outside]
    · constructor <;>
        simp_all [wake, Func.notifies, Func.holds, Func.posted, Func.early, Func.outside]

theorem after_next (loop : Nat) (t after : EventLoopThread) (fits : Fits cb t (.after loop))
    (stepped : threadFunc cb t = some after) : Fits cb after (.after loop) := by
  obtain ⟨same, given⟩ := fits
  rw [same] at stepped
  rcases given with place | place | place | place | place | place <;> rw [place] at stepped <;>
    cases stepped <;>
    exact ⟨rfl, by simp [Func.given]⟩

theorem threadFunc_fits (view : View) (t after : EventLoopThread) (fits : Fits cb t view)
    (stepped : threadFunc cb t = some after) : Fits cb after (view.wake t.func) := by
  cases view with
  | before =>
      cases fits
      cases stepped
  | during starter => exact during_next cb starter t.func after fits.2 (fits.1 ▸ stepped)
  | after loop => exact after_next cb loop t after fits stepped

theorem threadFunc_live (t after : EventLoopThread) (stepped : threadFunc cb t = some after)
    (loop : Nat)
    (live : after.func.live = some loop) : t.func.live = some loop := by
  unfold threadFunc at stepped
  cases func : t.func <;> simp only [func] at stepped
  case locking | relocking =>
    split at stepped <;> cases stepped
    exact live
  case unborn | constructing | looping | ended => cases stepped
  case entering | posting | leaving =>
    cases stepped
    cases live
  all_goals
    cases stepped
    exact live

theorem construct_fits (view : View) (t : EventLoopThread) (fits : Fits cb t view)
    (place : t.func = .constructing)
    (loop : Nat) : Fits cb { t with func := .calling loop } view := by
  cases view with
  | before =>
      cases fits
      cases place
  | during starter =>
      obtain ⟨same, agree⟩ := fits
      rw [place] at same agree
      obtain ⟨started, past, tests, waits, returns⟩ := agree
      refine ⟨?_, rfl, fun _ => rfl, fun _ => rfl, fun _ => rfl, fun other here => ?_⟩
      · rw [same]
        rfl
      · rcases returns other here with running | running <;> cases running
  | after other =>
      obtain ⟨_, given⟩ := fits
      simp [Func.given, place] at given

theorem leave_fits (loop : Nat) (t : EventLoopThread) (fits : Fits cb t (.after loop))
    (running : Nat)
    (place : t.func = .looping running) :
    Fits cb { t with func := .relocking running } (.after loop) := by
  obtain ⟨same, given⟩ := fits
  rw [place] at same given
  obtain rfl : running = loop := by simpa [Func.given] using given
  refine ⟨?_, .inr (.inr (.inl rfl))⟩
  rw [same]
  rfl

/-- startLoop goes on, and the thread is as it then finds it. -/
theorem startLoop_next (starter next : Starter) (func : Func) (after : EventLoopThread)
    (found : starter.within = true)
    (agree : Agree starter func) (stepped : startLoop
      (picture cb starter func) starter = some (next, after)) :
    next.within = true ∧ after = picture cb next func ∧ Agree next func := by
  obtain ⟨started, past, tests, waits, returns⟩ := agree
  cases starter with
  | waitingTid =>
      have posted : func.posted = true := by
        by_contra early
        simp [startLoop, picture, early] at stepped
      simp [startLoop, picture, posted] at stepped
      obtain ⟨rfl, rfl⟩ := stepped
      exact ⟨rfl, by simp [picture], started, fun _ => posted, by simp, by simp, by simp⟩
  | locking | woken =>
      have posted := past (by simp)
      have free : func.holds = false := by
        by_contra held
        simp [startLoop, lock, picture, held] at stepped
      simp [startLoop, lock, picture, free] at stepped
      obtain ⟨rfl, rfl⟩ := stepped
      exact ⟨rfl, by simp [picture, free], started, fun _ => posted, fun _ => free, by simp,
        by simp⟩
  | testing =>
      have posted := past (by simp)
      have free := tests rfl
      cases stored : func.stored with
      | none =>
          simp [startLoop, picture, stored] at stepped
          obtain ⟨rfl, rfl⟩ := stepped
          refine ⟨rfl, by simp [picture, free, stored], started, fun _ => posted, by simp,
            fun _ => ?_, by simp⟩
          -- nothing is stored, and the thread has not left loop()
          cases func <;> simp [Func.stored, Func.outside, Func.early] at stored started ⊢
      | some loop =>
          simp [startLoop, picture, stored] at stepped
          obtain ⟨rfl, rfl⟩ := stepped
          refine ⟨rfl, by simp [picture, free, stored], started, fun _ => posted, by simp, by simp,
            fun other same => ?_⟩
          cases same
          -- stored, and the mutex is free again: the thread has come to loop(), or is about to call
          -- it
          cases func <;> simp [Func.stored, Func.outside, Func.holds] at stored started free <;>
            simp [stored]
  | waiting | returning _ => cases stepped
  | deciding | creating | started => cases found

end Places

/-! The pool. -/

section Pools
variable (baseLoop_ numThreads_ : Nat) (cb : Bool)

def view (pool : Pool) (j : Nat) : View :=
  match pool.loops_[j]? with
  | some loop => .after loop
  | none => if j = pool.i ∧ pool.starter.within then .during pool.starter else .before

structure Orderly (pool : Pool) : Prop where
  counted : pool.loops_.length = pool.i
  bounded : pool.i ≤ numThreads_
  inside : pool.starter.within = true ∨ pool.starter = .creating → pool.i < numThreads_
  finished : pool.starter = .started → pool.i = numThreads_
  fits : ∀ j, Fits cb (pool.threads_ j) (view pool j)
  apart : ∀ j k loop, (pool.threads_ j).func.live = some loop →
    (pool.threads_ k).func.live = some loop → j = k
  base : ∀ j, (pool.threads_ j).func.live ≠ some baseLoop_
  called : pool.called = if pool.starter = .started ∧ numThreads_ = 0 ∧ cb then [baseLoop_] else []

/-- One thread changes, and the base thread may go on where it is about this thread. -/
theorem placed_orderly (pool : Pool) (orderly : Orderly baseLoop_ numThreads_ cb pool) (j : Nat)
    (t : EventLoopThread)
    (starter : Starter) (about : starter = pool.starter ∨
      (j = pool.i ∧ starter.within = true ∧ pool.i < numThreads_))
    (fits : Fits cb t (view { pool with starter := starter } j))
    (live : ∀ loop, t.func.live = some loop → (pool.threads_ j).func.live = some loop ∨
      (loop ≠ baseLoop_ ∧ ∀ k, (pool.threads_ k).func.live ≠ some loop)) :
    Orderly baseLoop_ numThreads_ cb
      { pool with starter := starter, threads_ := Function.update pool.threads_ j t } := by
  constructor
  case counted => exact orderly.counted
  case bounded => exact orderly.bounded
  case inside =>
    intro inside
    rcases about with same | ⟨_, _, below⟩
    · exact orderly.inside (same ▸ inside)
    · exact below
  case finished =>
    intro finished
    rcases about with same | ⟨_, within, _⟩
    · exact orderly.finished (same ▸ finished)
    · rw [show starter = .started from finished] at within
      cases within
  case fits =>
    intro k
    dsimp only
    by_cases same : k = j
    · subst same
      rw [Function.update_self]
      exact fits
    · rw [Function.update_of_ne same]
      have seen : view
          { pool with starter := starter, threads_ := Function.update pool.threads_ j t } k =
        view pool k := by
        rcases about with rfl | ⟨rfl, _⟩
        · rfl
        · simp [view, same]
      rw [seen]
      exact orderly.fits k
  case apart =>
    -- the loop of the changed thread is its old one, or nobody's
    have only (k : Nat) (loop : Nat) (other : k ≠ j) (one : t.func.live = some loop) :
        (pool.threads_ k).func.live ≠ some loop := by
      intro two
      rcases live loop one with old | ⟨_, new⟩
      · exact other (orderly.apart k j loop two old)
      · exact new k two
    intro k l loop one two
    dsimp only at one two
    by_cases first : k = j <;> by_cases second : l = j
    · rw [first, second]
    · subst first
      rw [Function.update_self] at one
      rw [Function.update_of_ne second] at two
      exact absurd two (only l loop second one)
    · subst second
      rw [Function.update_self] at two
      rw [Function.update_of_ne first] at one
      exact absurd one (only k loop first two)
    · rw [Function.update_of_ne first] at one
      rw [Function.update_of_ne second] at two
      exact orderly.apart k l loop one two
  case base =>
    intro k
    dsimp only
    by_cases same : k = j
    · subst same
      rw [Function.update_self]
      intro here
      rcases live baseLoop_ here with old | ⟨new, _⟩
      · exact orderly.base k old
      · exact new rfl
    · rw [Function.update_of_ne same]
      exact orderly.base k
  case called =>
    rw [orderly.called]
    rcases about with rfl | ⟨_, within, below⟩
    · rfl
    · have some_ : numThreads_ ≠ 0 := by omega
      simp [some_]

/-- Where the thread of the counter is seen from. -/
theorem view_current (pool : Pool) (counted : pool.loops_.length = pool.i)
    (within : pool.starter.within = true) :
    view pool pool.i = .during pool.starter := by
  have none_ : pool.loops_[pool.i]? = none := List.getElem?_eq_none (by omega)
  simp [view, none_, within]

theorem view_above (pool : Pool) (counted : pool.loops_.length = pool.i) (j : Nat)
    (above : pool.i < j) :
    view pool j = .before := by
  have none_ : pool.loops_[j]? = none := List.getElem?_eq_none (by omega)
  have other : j ≠ pool.i := by omega
  simp [view, none_, other]

theorem unborn_above (pool : Pool) (orderly : Orderly baseLoop_ numThreads_ cb pool) (j : Nat)
    (above : numThreads_ ≤ j) :
    pool.threads_ j = {} := by
  have fits := orderly.fits j
  have seen : view pool j = .before := by
    rcases Nat.lt_or_eq_of_le (Nat.le_trans orderly.bounded above) with below | same
    · exact view_above pool orderly.counted j below
    · have out : pool.starter.within = false := by
        by_contra within
        have := orderly.inside (.inl (by simpa using within))
        omega
      have none_ : pool.loops_[j]? = none := List.getElem?_eq_none (by rw [orderly.counted, same])
      simp [view, none_, out]
  rw [seen] at fits
  exact fits

theorem thread_orderly (pool : Pool) (orderly : Orderly baseLoop_ numThreads_ cb pool) (j : Nat)
    (t : EventLoopThread)
    (stepped : threadFunc cb (pool.threads_ j) = some t) :
    Orderly baseLoop_ numThreads_ cb
      { pool with starter := notified j pool, threads_ := Function.update pool.threads_ j t } := by
  have fits := threadFunc_fits cb _ _ t (orderly.fits j) stepped
  have live := threadFunc_live cb _ t stepped
  -- only the thread that start() waits for can wake it, by notify_one
  by_cases told : (pool.threads_ j).func.notifies ∧ j = pool.i ∧ pool.starter = .waiting
  · have next : notified j pool = .woken := if_pos told
    obtain ⟨notifies, rfl, waiting⟩ := told
    have below := orderly.inside (.inl (by rw [waiting]; rfl))
    rw [next]
    refine placed_orderly baseLoop_ numThreads_ cb pool orderly pool.i t .woken
      (.inr ⟨rfl, rfl, below⟩) ?_
      fun loop some_ => .inl (live loop some_)
    rw [view_current pool orderly.counted (by rw [waiting]; rfl)] at fits
    rw [view_current { pool with starter := .woken } orderly.counted rfl]
    simpa [View.wake, wake, notifies, waiting] using fits
  · have next : notified j pool = pool.starter := if_neg told
    rw [next]
    refine placed_orderly baseLoop_ numThreads_ cb pool orderly j t pool.starter (.inl rfl) ?_
      fun loop some_ => .inl (live loop some_)
    have seen : (view pool j).wake (pool.threads_ j).func = view pool j := by
      unfold view
      split
      · rfl
      · split
        · rename_i here
          have quiet : ¬ ((pool.threads_ j).func.notifies ∧ pool.starter = .waiting) := fun both =>
            told ⟨both.1, here.1, both.2⟩
          exact congrArg View.during (if_neg quiet)
        · rfl
    rw [seen] at fits
    exact fits

theorem construct_orderly (pool : Pool) (orderly : Orderly baseLoop_ numThreads_ cb pool)
    (j loop : Nat)
    (place : (pool.threads_ j).func = .constructing)
    (allowed : Allowed baseLoop_ numThreads_ pool (.construct j loop)) :
    Orderly baseLoop_ numThreads_ cb
      { pool with threads_ := Function.update pool.threads_ j
                    { pool.threads_ j with func := .calling loop } } := by
  refine placed_orderly baseLoop_ numThreads_ cb pool orderly j _ pool.starter (.inl rfl)
    (construct_fits cb _ _ (orderly.fits j) place loop) fun other same => .inr ?_
  obtain rfl : loop = other := Option.some.inj same
  refine ⟨allowed.1, fun k => ?_⟩
  rcases Nat.lt_or_ge k numThreads_ with below | above
  · exact allowed.2 k below
  · rw [unborn_above baseLoop_ numThreads_ cb pool orderly k above]
    simp [Func.live]

theorem leave_orderly (pool : Pool) (orderly : Orderly baseLoop_ numThreads_ cb pool) (j loop : Nat)
    (place : (pool.threads_ j).func = .looping loop) (allowed : j < pool.loops_.length) :
    Orderly baseLoop_ numThreads_ cb
      { pool with threads_ := Function.update pool.threads_ j
                    { pool.threads_ j with func := .relocking loop } } := by
  have fits := orderly.fits j
  have seen : view pool j = .after pool.loops_[j] := by simp [view, allowed]
  refine placed_orderly baseLoop_ numThreads_ cb pool orderly j _ pool.starter (.inl rfl) ?_
    fun other same => .inl ?_
  · rw [seen] at fits
    exact seen ▸ leave_fits cb _ _ fits loop place
  · rw [place]
    exact same

/-- The base thread is between two threads, before and after. -/
theorem between_orderly (pool : Pool) (orderly : Orderly baseLoop_ numThreads_ cb pool)
    (starter : Starter)
    (called : List Nat)
    (before : pool.starter.within = false) (behind : starter.within = false)
    (bounds : starter = .creating → pool.i < numThreads_)
    (finished : starter = .started → pool.i = numThreads_)
    (told : called = if starter = .started ∧ numThreads_ = 0 ∧ cb then [baseLoop_] else []) :
    Orderly baseLoop_ numThreads_ cb { pool with starter := starter, called := called } := by
  constructor
  case counted => exact orderly.counted
  case bounded => exact orderly.bounded
  case inside =>
    rintro (within | creating)
    · rw [show starter.within = true from within] at behind
      cases behind
    · exact bounds creating
  case finished => exact finished
  case fits =>
    intro j
    have seen : view { pool with starter := starter, called := called } j = view pool j := by
      simp [view, before, behind]
    rw [seen]
    exact orderly.fits j
  case apart => exact orderly.apart
  case base => exact orderly.base
  case called => exact told

/-- push_back of the loop of a thread that runs it. -/
theorem returning_orderly (pool : Pool) (orderly : Orderly baseLoop_ numThreads_ cb pool)
    (loop : Nat)
    (place : pool.starter = .returning loop) :
    Orderly baseLoop_ numThreads_ cb
      { pool with starter := .deciding, i := pool.i + 1, loops_ := pool.loops_ ++ [loop] } := by
  have within : pool.starter.within = true := by rw [place]; rfl
  have below := orderly.inside (.inl within)
  constructor
  case counted => simp [orderly.counted]
  case bounded => exact below
  case inside => rintro (same | same) <;> cases same
  case finished => exact fun same => by cases same
  case fits =>
    intro j
    dsimp only
    -- threads before i keep their loops, thread i gets one, those after it are not yet born
    rcases Nat.lt_trichotomy j pool.i with old | rfl | new
    · have seen : view
          { pool with starter := .deciding, i := pool.i + 1, loops_ := pool.loops_ ++ [loop] } j =
        view pool j := by
        have inside : j < pool.loops_.length := orderly.counted ▸ old
        simp [view, List.getElem?_append_left inside, inside]
      rw [seen]
      exact orderly.fits j
    · have seen : view
          { pool with starter := .deciding, i := pool.i + 1,
                      loops_ := pool.loops_ ++ [loop] } pool.i =
          .after loop := by
        have here : (pool.loops_ ++ [loop])[pool.i]? = some loop := by rw [← orderly.counted]; simp
        simp [view, here]
      obtain ⟨same, agree⟩ := view_current pool orderly.counted within ▸ orderly.fits pool.i
      rw [seen]
      -- startLoop returns the loop its thread has stored, and the thread is past the notify
      have running := agree.returns loop place
      rcases running with running | running <;> rw [place, running] at same
      · exact ⟨by rw [running]; exact same, .inl running⟩
      · exact ⟨by rw [running]; exact same, .inr (.inl running)⟩
    · have seen : view
          { pool with starter := .deciding, i := pool.i + 1, loops_ := pool.loops_ ++ [loop] } j =
        .before := by
        have none_ : (pool.loops_ ++ [loop])[j]? = none := by simp [orderly.counted]; omega
        simp [view, none_, Starter.within]
      rw [seen]
      exact view_above pool orderly.counted j new ▸ orderly.fits j
  case apart => exact orderly.apart
  case base => exact orderly.base
  case called =>
    rw [orderly.called, place]
    rfl

theorem start_orderly (pool after : Pool) (orderly : Orderly baseLoop_ numThreads_ cb pool)
    (stepped : start baseLoop_ numThreads_ cb pool = some after) :
    Orderly baseLoop_ numThreads_ cb after := by
  by_cases within : pool.starter.within = true
  · have below := orderly.inside (.inl within)
    by_cases last : ∃ loop, pool.starter = .returning loop
    · obtain ⟨loop, place⟩ := last
      simp only [start, place] at stepped
      cases stepped
      exact returning_orderly baseLoop_ numThreads_ cb pool orderly loop place
    -- inside startLoop the base thread touches the EventLoopThread only
    · have called : start baseLoop_ numThreads_ cb pool =
        (startLoop (pool.threads_ pool.i) pool.starter).map fun next =>
          { pool with starter := next.1,
                      threads_ := Function.update pool.threads_ pool.i next.2 } := by
        unfold start
        split
        · rename_i place
          rw [place] at within
          cases within
        · exact absurd ⟨_, ‹_›⟩ last
        · rfl
      rw [called] at stepped
      obtain ⟨next, went, rfl⟩ := Option.map_eq_some_iff.mp stepped
      have fits := view_current pool orderly.counted within ▸ orderly.fits pool.i
      obtain ⟨same, agree⟩ := fits
      rw [same] at went
      obtain ⟨on, picture_, agrees⟩ :=
        startLoop_next cb pool.starter next.1 _ next.2 within agree went
      have func : next.2.func = (pool.threads_ pool.i).func := by rw [picture_]; rfl
      refine placed_orderly baseLoop_ numThreads_ cb pool orderly pool.i next.2 next.1
        (.inr ⟨rfl, on, below⟩) ?_
        fun loop live => .inl (func ▸ live)
      rw [view_current { pool with starter := next.1 } orderly.counted on]
      exact ⟨func ▸ picture_, func ▸ agrees⟩
  · have out : pool.starter.within = false := by simpa using within
    cases place : pool.starter with
    | deciding =>
        simp only [start, place] at stepped
        have same : pool.called = [] := by rw [orderly.called, place]; rfl
        split at stepped
        · rename_i more
          cases stepped
          exact same ▸ between_orderly baseLoop_ numThreads_ cb pool orderly .creating
            pool.called out rfl
            (fun _ => more)
            (fun other => by cases other) (by rw [same]; rfl)
        · rename_i done
          cases stepped
          exact between_orderly baseLoop_ numThreads_ cb pool orderly .started _ out rfl
            (fun other => by cases other)
            (fun _ => Nat.le_antisymm orderly.bounded (Nat.le_of_not_lt done)) (by simp)
    | creating =>
        simp only [start, place, startLoop] at stepped
        cases stepped
        have below := orderly.inside (.inr place)
        refine placed_orderly baseLoop_ numThreads_ cb pool orderly pool.i
          { func := .entering } .waitingTid
          (.inr ⟨rfl, rfl, below⟩) ?_
          fun loop live => by cases live
        rw [view_current { pool with starter := .waitingTid } orderly.counted rfl]
        exact ⟨rfl, rfl, fun other => absurd rfl other, by simp, by simp, by simp⟩
    | started =>
        simp only [start, place, startLoop] at stepped
        cases stepped
    | waitingTid | locking | testing | waiting | woken | returning _ =>
        rw [place] at out
        cases out

theorem spurious_orderly (pool : Pool) (orderly : Orderly baseLoop_ numThreads_ cb pool)
    (place : pool.starter = .waiting) :
    Orderly baseLoop_ numThreads_ cb { pool with starter := .woken } := by
  have within : pool.starter.within = true := by rw [place]; rfl
  have below := orderly.inside (.inl within)
  have fits := view_current pool orderly.counted within ▸ orderly.fits pool.i
  -- the thread stays as it is, so this is a step of the base thread about it
  have moved := placed_orderly baseLoop_ numThreads_ cb pool orderly pool.i
    (pool.threads_ pool.i) .woken
    (.inr ⟨rfl, rfl, below⟩) (by
    rw [view_current { pool with starter := .woken } orderly.counted rfl]
    obtain ⟨same, agree⟩ := fits
    rw [place] at same agree
    exact ⟨same, agree.started, fun _ => agree.past (by simp), by simp, by simp, by simp⟩)
      fun loop live => .inl live
  rwa [Function.update_eq_self] at moved

theorem step_orderly (pool : Pool) (action : Action) (after : Pool)
    (orderly : Orderly baseLoop_ numThreads_ cb pool)
    (allowed : Allowed baseLoop_ numThreads_ pool action)
    (stepped : step baseLoop_ numThreads_ cb pool action = some after) :
    Orderly baseLoop_ numThreads_ cb after := by
  cases action with
  | start => exact start_orderly baseLoop_ numThreads_ cb pool after orderly stepped
  | spurious =>
      simp only [step] at stepped
      split at stepped
      · rename_i waiting
        cases stepped
        exact spurious_orderly baseLoop_ numThreads_ cb pool orderly waiting
      · cases stepped
  | construct j loop =>
      simp only [step] at stepped
      split at stepped
      · rename_i place
        cases stepped
        exact construct_orderly baseLoop_ numThreads_ cb pool orderly j loop place allowed
      · cases stepped
  | thread j =>
      obtain ⟨t, went, rfl⟩ := Option.map_eq_some_iff.mp stepped
      exact thread_orderly baseLoop_ numThreads_ cb pool orderly j t went
  | leave j =>
      simp only [step] at stepped
      split at stepped
      · rename_i loop place
        cases stepped
        exact leave_orderly baseLoop_ numThreads_ cb pool orderly j loop place allowed
      · cases stepped

theorem fresh_orderly : Orderly baseLoop_ numThreads_ cb fresh := by
  constructor
  case inside => rintro (same | same) <;> cases same
  case fits =>
    intro j
    have seen : view fresh j = .before := by simp [view, fresh, Starter.within]
    rw [seen]
    rfl
  case bounded => exact Nat.zero_le _
  case counted | called => rfl
  case base => exact fun j same => by cases same
  case apart => exact fun j k loop same => by cases same
  case finished => exact fun same => by cases same

variable (trace : List Action) (pool : Pool)
  (allowed : Guarded (step baseLoop_ numThreads_ cb) (Allowed baseLoop_ numThreads_) fresh trace)
  (ran : run (step baseLoop_ numThreads_ cb) fresh trace = some pool)
include allowed ran

theorem run_orderly : Orderly baseLoop_ numThreads_ cb pool :=
  Transition.run_preserves (step baseLoop_ numThreads_ cb) (Allowed baseLoop_ numThreads_)
    (Orderly baseLoop_ numThreads_ cb)
    (fun before action after kept guard stepped =>
      step_orderly baseLoop_ numThreads_ cb before action after kept guard stepped)
    fresh pool trace allowed (fresh_orderly baseLoop_ numThreads_ cb) ran

/-- Over every order of the steps of the base thread and of the new threads: a loop in loops_ was
made by its own thread, on which the callback has run once before, and that thread has notified and
unlocked: it is about to call loop(), in it, or past it. Loops that run are different, and none is
the base loop. There is never more than one thread underway, which posts the semaphore only while
start() waits on it. When start returns, there is a loop for each thread, or the callback was called
with the base loop. -/
theorem pool_started :
    (∀ j loop, pool.loops_[j]? = some loop → (pool.threads_ j).tid_ = true ∧
      (pool.threads_ j).called = (if cb then [loop] else []) ∧ (pool.threads_ j).func.given loop) ∧
    (∀ j k loop, (pool.threads_ j).func = .looping loop → loop ≠ baseLoop_ ∧
      ((pool.threads_ k).func = .looping loop → j = k)) ∧
    (∀ j, pool.loops_.length < j → pool.threads_ j = {}) ∧
    (∀ j, (pool.threads_ j).func = .posting → j = pool.i ∧ pool.starter = .waitingTid) ∧
    (pool.starter = .started → pool.loops_.length = numThreads_ ∧
      pool.called = if numThreads_ = 0 ∧ cb then [baseLoop_] else []) := by
  have orderly := run_orderly baseLoop_ numThreads_ cb trace pool allowed ran
  refine ⟨?_, ?_, ?_, ?_, ?_⟩
  · intro j loop found
    have fits := orderly.fits j
    have seen : view pool j = .after loop := by simp [view, found]
    rw [seen] at fits
    obtain ⟨same, given⟩ := fits
    rw [same]
    rcases given with place | place | place | place | place | place <;> rw [place] <;>
      exact ⟨rfl, rfl, by simp [Func.given, picture]⟩
  · intro j k loop one
    have here : (pool.threads_ j).func.live = some loop := by rw [one]; rfl
    refine ⟨fun same => orderly.base j (same ▸ here), fun two => orderly.apart j k loop here ?_⟩
    rw [two]
    rfl
  · intro j above
    have fits := orderly.fits j
    rw [view_above pool orderly.counted j (orderly.counted ▸ above)] at fits
    exact fits
  · intro j place
    have fits := orderly.fits j
    cases seen : view pool j with
    | before =>
        rw [seen] at fits
        rw [show pool.threads_ j = {} from fits] at place
        cases place
    | after loop =>
        rw [seen] at fits
        have given := fits.2
        rw [place] at given
        simp [Func.given] at given
    | during starter =>
        rw [seen] at fits
        obtain ⟨_, agree⟩ := fits
        unfold view at seen
        split at seen
        · cases seen
        · split at seen
          · rename_i here
            cases seen
            refine ⟨here.1, ?_⟩
            by_contra past
            have posted := agree.past past
            rw [place] at posted
            cases posted
          · cases seen
  · intro started
    refine ⟨orderly.counted.trans (orderly.finished started), ?_⟩
    rw [orderly.called]
    simp [started]

omit allowed ran

/-! No run goes on for ever. -/

def Func.left : Func → Nat
  | .unborn => 16
  | .entering => 15
  | .posting => 14
  | .constructing => 13
  | .calling _ => 12
  | .locking _ => 11
  | .storing _ => 10
  | .notifying _ => 9
  | .unlocking _ => 6
  | .unlocked _ => 5
  | .looping _ => 4
  | .relocking _ => 3
  | .clearing _ => 2
  | .leaving _ => 1
  | .ended _ => 0

/-- With the number of the threads that are not yet in loops_. -/
def Starter.left (threads : Nat) : Starter → Nat
  | .deciding => 8 * threads + 1
  | .creating => 8 * threads
  | .waitingTid => 8 * threads - 1
  | .locking | .woken => 8 * threads - 2
  | .testing => 8 * threads - 3
  | .waiting => 8 * threads - 4
  | .returning _ => 8 * threads - 5
  | .started => 0

def total (threads : Nat → EventLoopThread) : Nat :=
    ∑ j ∈ Finset.range numThreads_, (threads j).func.left

def cost (pool : Pool) : Nat :=
    pool.starter.left (numThreads_ - pool.i) + total numThreads_ pool.threads_

theorem total_update (threads : Nat → EventLoopThread) (j : Nat) (below : j < numThreads_)
    (t : EventLoopThread) :
    total numThreads_ (Function.update threads j t) + (threads j).func.left =
      total numThreads_ threads +
      t.func.left := by
  have member : j ∈ Finset.range numThreads_ := Finset.mem_range.mpr below
  unfold total
  rw [← Finset.add_sum_erase _ _ member, ← Finset.add_sum_erase _
    (fun j => (threads j).func.left) member,
    Function.update_self]
  have others : ∑ k ∈ (Finset.range numThreads_).erase j,
      (Function.update threads j t k).func.left =
      ∑ k ∈ (Finset.range numThreads_).erase j, (threads k).func.left := by
    refine Finset.sum_congr rfl fun k inside => ?_
    rw [Function.update_of_ne (Finset.ne_of_mem_erase inside)]
  rw [others]
  omega

theorem threadFunc_left (t after : EventLoopThread) (stepped : threadFunc cb t = some after) :
    after.func.left + (if t.func.notifies then 3 else 1) ≤ t.func.left := by
  unfold threadFunc at stepped
  cases func : t.func <;> simp only [func] at stepped
  case locking | relocking =>
    split at stepped <;> cases stepped
    simp [Func.left, Func.notifies]
  case unborn | constructing | looping | ended => cases stepped
  all_goals
    cases stepped
    simp [Func.left, Func.notifies]

theorem startLoop_left (threads : Nat) (starter next : Starter) (t after : EventLoopThread)
    (some_ : 0 < threads)
    (stepped : startLoop t starter = some (next, after)) :
    next.left threads + 1 ≤ starter.left threads := by
  cases starter with
  | creating | waitingTid =>
      simp only [startLoop] at stepped
      try split at stepped
      all_goals cases stepped
      simp only [Starter.left]
      omega
  | locking | woken =>
      simp only [startLoop, lock] at stepped
      split at stepped <;> cases stepped
      simp only [Starter.left]
      omega
  | testing =>
      simp only [startLoop] at stepped
      split at stepped <;> cases stepped <;> simp only [Starter.left] <;> omega
  | deciding | waiting | returning _ | started => cases stepped

theorem startLoop_func (starter next : Starter) (t after : EventLoopThread)
    (unborn : starter = .creating → t = {})
    (stepped : startLoop t starter = some (next, after)) : after.func.left ≤ t.func.left := by
  cases starter with
  | creating =>
      cases stepped
      rw [unborn rfl]
      simp [Func.left]
  | waitingTid =>
      simp only [startLoop] at stepped
      split at stepped <;> cases stepped
      exact Nat.le_refl _
  | locking | woken =>
      simp only [startLoop, lock] at stepped
      split at stepped <;> cases stepped
      exact Nat.le_refl _
  | testing =>
      simp only [startLoop] at stepped
      split at stepped <;> cases stepped <;> exact Nat.le_refl _
  | deciding | waiting | returning _ | started => cases stepped

/-- A thread that takes a step has been started. -/
theorem born_below (pool : Pool) (orderly : Orderly baseLoop_ numThreads_ cb pool) (j : Nat)
    (born : (pool.threads_ j).func ≠ .unborn) : j < numThreads_ := by
  by_contra above
  rw [unborn_above baseLoop_ numThreads_ cb pool orderly j (Nat.le_of_not_lt above)] at born
  exact born rfl

/-- A thread's step, with the base thread woken if it was notified. -/
theorem thread_cost (pool : Pool) (j : Nat) (t : EventLoopThread)
    (starter : Starter) (below : j < numThreads_) (spent : Nat)
    (moved : t.func.left + spent ≤ (pool.threads_ j).func.left)
    (base : starter.left (numThreads_ - pool.i) + 1 ≤ pool.starter.left
      (numThreads_ - pool.i) + spent) :
    cost numThreads_
      { pool with starter := starter, threads_ := Function.update pool.threads_ j t } + 1 ≤
      cost numThreads_ pool := by
  have sum := total_update numThreads_ pool.threads_ j below t
  simp only [cost]
  omega

theorem start_cost (pool after : Pool) (orderly : Orderly baseLoop_ numThreads_ cb pool)
    (stepped : start baseLoop_ numThreads_ cb pool = some after) :
    cost numThreads_ after + 1 ≤ cost numThreads_ pool := by
  unfold start at stepped
  split at stepped
  · rename_i place
    split at stepped <;> cases stepped <;> simp only [cost, place, Starter.left] <;> omega
  · rename_i loop place
    cases stepped
    have below := orderly.inside (.inl (by rw [place]; rfl))
    simp only [cost, place, Starter.left]
    omega
  · obtain ⟨next, went, rfl⟩ := Option.map_eq_some_iff.mp stepped
    have below : pool.i < numThreads_ := by
      apply orderly.inside
      cases place : pool.starter with
      | deciding | started =>
          rw [place] at went
          cases went
      | creating => exact .inr rfl
      | waitingTid | locking | testing | waiting | woken | returning _ => exact .inl rfl
    have spent := startLoop_left (numThreads_ - pool.i) pool.starter next.1 _ next.2 (by omega) went
    have unborn (place : pool.starter = .creating) : pool.threads_ pool.i = {} := by
      have fits := orderly.fits pool.i
      have none_ : pool.loops_[pool.i]? = none := List.getElem?_eq_none (by rw [orderly.counted])
      have seen : view pool pool.i = .before := by simp [view, none_, place, Starter.within]
      rw [seen] at fits
      exact fits
    have same : next.2.func.left ≤ (pool.threads_ pool.i).func.left :=
      startLoop_func pool.starter next.1 _ next.2 unborn went
    exact thread_cost numThreads_ pool pool.i next.2 next.1 below 0 same spent

theorem step_cost (pool : Pool) (action : Action) (after : Pool)
    (orderly : Orderly baseLoop_ numThreads_ cb pool)
    (stepped : step baseLoop_ numThreads_ cb pool action = some after) :
    cost numThreads_ after + 1 ≤ cost numThreads_ pool + if action = .spurious then 3 else 0 := by
  cases action with
  | start => exact start_cost baseLoop_ numThreads_ cb pool after orderly stepped
  | spurious =>
      simp only [step] at stepped
      split at stepped <;> cases stepped
      rename_i place
      simp only [cost, place, Starter.left, if_true]
      omega
  | construct j loop =>
      simp only [step] at stepped
      split at stepped <;> cases stepped
      rename_i place
      have below := born_below baseLoop_ numThreads_ cb pool orderly j (by simp [place])
      exact thread_cost numThreads_ pool j _ pool.starter below 1 (by simp [place, Func.left])
        (Nat.le_refl _)
  | leave j =>
      simp only [step] at stepped
      split at stepped <;> cases stepped
      rename_i loop place
      have below := born_below baseLoop_ numThreads_ cb pool orderly j (by simp [place])
      exact thread_cost numThreads_ pool j _ pool.starter below 1 (by simp [place, Func.left])
        (Nat.le_refl _)
  | thread j =>
      obtain ⟨t, went, rfl⟩ := Option.map_eq_some_iff.mp stepped
      have below : j < numThreads_ := by
        refine born_below baseLoop_ numThreads_ cb pool orderly j fun place => ?_
        rw [threadFunc, place] at went
        cases went
      have spent := threadFunc_left cb _ t went
      -- a notification costs the base thread two more steps
      by_cases told : (pool.threads_ j).func.notifies ∧ j = pool.i ∧ pool.starter = .waiting
      · rw [if_pos told.1] at spent
        refine thread_cost numThreads_ pool j t _ below 3 spent ?_
        rw [notified, if_pos told, told.2.2]
        simp only [Starter.left]
        omega
      · have one : t.func.left + 1 ≤ (pool.threads_ j).func.left := by split at spent <;> omega
        refine thread_cost numThreads_ pool j t _ below 1 one ?_
        rw [notified, if_neg told]

/-- Some address is nobody's. -/
theorem free_address (pool : Pool) :
    ∃ loop, loop ≠ baseLoop_ ∧ ∀ k < numThreads_, (pool.threads_ k).func.live ≠ some loop := by
  obtain ⟨loop, free⟩ := Infinite.exists_notMem_finset
    (insert baseLoop_ ((Finset.range numThreads_).image
      fun k => (pool.threads_ k).func.live.getD 0))
  simp only [Finset.mem_insert, Finset.mem_image, Finset.mem_range, not_or, not_exists,
    not_and] at free
  refine ⟨loop, free.1, fun k below live => free.2 k below ?_⟩
  rw [live]
  rfl

/-- Some step can be taken that is neither a spurious wake-up nor the end of a loop. -/
def Moves (pool : Pool) : Prop :=
  ∃ action, action ≠ .spurious ∧ (∀ k, action ≠ .leave k) ∧
    Allowed baseLoop_ numThreads_ pool action ∧
    (step baseLoop_ numThreads_ cb pool action).isSome = true

theorem start_moves (pool : Pool) (stepped : (start baseLoop_ numThreads_ cb pool).isSome = true) :
    Moves baseLoop_ numThreads_ cb pool :=
  ⟨.start, by simp, by simp, trivial, stepped⟩

/-- A thread that is not in loop() can go on, unless another has the mutex it is to lock. -/
theorem thread_moves (pool : Pool) (j : Nat) (inside : (pool.threads_ j).func.outside = false)
    (free : (pool.threads_ j).func.holds = false → (pool.threads_ j).mutex_ = none)
    (before : ∀ loop, (pool.threads_ j).func ≠ .looping loop) :
    Moves baseLoop_ numThreads_ cb pool := by
  cases func : (pool.threads_ j).func with
  | constructing =>
      obtain ⟨loop, other, unused⟩ := free_address baseLoop_ numThreads_ pool
      exact ⟨.construct j loop, by simp, by simp, ⟨other, unused⟩, by simp [step, func]⟩
  | unborn | relocking _ | clearing _ | leaving _ | ended _ =>
      rw [func] at inside
      cases inside
  | looping loop => exact absurd func (before loop)
  | locking loop =>
      rw [func] at free
      exact ⟨.thread j, by simp, by simp, trivial, by simp [step, threadFunc, func, free rfl]⟩
  | entering | posting | calling _ | storing _ | notifying _ | unlocking _ | unlocked _ =>
      exact ⟨.thread j, by simp, by simp, trivial, by simp [step, threadFunc, func]⟩

theorem orderly_moves (pool : Pool) (orderly : Orderly baseLoop_ numThreads_ cb pool)
    (underway : pool.starter ≠ .started) :
    Moves baseLoop_ numThreads_ cb pool := by
  have current (within : pool.starter.within = true) :=
    view_current pool orderly.counted within ▸ orderly.fits pool.i
  cases place : pool.starter with
  | started => exact absurd place underway
  | deciding =>
      apply start_moves
      simp only [start, place]
      split <;> rfl
  | creating | returning _ =>
      exact start_moves baseLoop_ numThreads_ cb pool (by simp [start, place, startLoop])
  | testing =>
      apply start_moves
      cases stored : (pool.threads_ pool.i).loop_ <;> simp [start, place, startLoop, stored]
  | waitingTid =>
      obtain ⟨same, agree⟩ := current (by rw [place]; rfl)
      rw [place] at same agree
      by_cases posted : (pool.threads_ pool.i).func.posted = true
      · have sem : (pool.threads_ pool.i).sem = 1 := by rw [same]; simp [picture, posted]
        exact start_moves baseLoop_ numThreads_ cb pool (by simp [start, place, startLoop, sem])
      · refine thread_moves baseLoop_ numThreads_ cb pool pool.i agree.started (fun out => ?_)
          fun loop looping => posted ?_
        · rw [same]
          simp [picture, out]
        · rw [looping]
          rfl
  | locking | woken =>
      obtain ⟨same, agree⟩ := current (by rw [place]; rfl)
      rw [place] at same agree
      by_cases held : (pool.threads_ pool.i).func.holds = true
      · refine thread_moves baseLoop_ numThreads_ cb pool pool.i agree.started (fun out => ?_)
          fun loop looping => ?_
        · rw [held] at out
          cases out
        · rw [looping] at held
          cases held
      · have free : (pool.threads_ pool.i).mutex_ = none := by rw [same]; simp [picture, held]
        exact start_moves baseLoop_ numThreads_ cb pool
          (by simp [start, place, startLoop, lock, free])
  | waiting =>
      -- the thread has not notified, so it goes on
      obtain ⟨same, agree⟩ := current (by rw [place]; rfl)
      rw [place] at same agree
      refine thread_moves baseLoop_ numThreads_ cb pool pool.i agree.started (fun out => ?_)
        fun loop looping => ?_
      · rw [same]
        simp [picture, out]
      · have early := agree.waits rfl
        rw [looping] at early
        cases early

theorem fresh_cost : cost numThreads_ fresh = 24 * numThreads_ + 1 := by
  have every : total numThreads_ fresh.threads_ = numThreads_ * 16 := by
    simp [total, fresh, Func.left]
  simp only [cost, every]
  simp only [fresh, Starter.left]
  omega

include allowed ran

/-- Until start returns, some thread can go on, whatever has happened before. Every thread takes at
most 24 steps, and each wait that ends with nothing notified costs three more; so start returns
unless such waits never end. A loop that is told to quit before startLoop has seen it would keep
start() waiting, which Allowed leaves out. -/
theorem pool_starts :
    (pool.starter = .started ∨ Moves baseLoop_ numThreads_ cb pool) ∧
      trace.length ≤ 24 * numThreads_ + 1 + 3 * trace.count .spurious := by
  have orderly := run_orderly baseLoop_ numThreads_ cb trace pool allowed ran
  refine ⟨Classical.or_iff_not_imp_left.mpr (orderly_moves baseLoop_ numThreads_ cb pool orderly),
    ?_⟩
  have bounded := Transition.run_bounded (step baseLoop_ numThreads_ cb)
    (Allowed baseLoop_ numThreads_)
    (Orderly baseLoop_ numThreads_ cb) (cost numThreads_) (fun action => action == .spurious) 3
    (fun before action after kept guard stepped =>
      step_orderly baseLoop_ numThreads_ cb before action after kept guard stepped)
    (fun before action after kept stepped =>
      by simpa using step_cost baseLoop_ numThreads_ cb before action after kept stepped)
    fresh pool trace allowed (fresh_orderly baseLoop_ numThreads_ cb) ran
  rw [fresh_cost, ← List.count_eq_countP] at bounded
  omega

omit allowed ran

end Pools

/-- A pool of one thread: the base thread waits before the loop is there, is woken for nothing,
waits again, and is notified. -/
def oneThread : List Action :=
  [.start, .start, .thread 0, .thread 0, .start, .start, .start, .construct 0 7, .spurious, .start,
    .start,
    .thread 0, .thread 0, .thread 0, .thread 0, .thread 0, .start, .start, .start, .start]

theorem oneThread_allowed : Guarded (step 3 1 true) (Allowed 3 1) fresh oneThread := by decide

theorem pool_started_one :
    ∃ pool, run (step 3 1 true) fresh oneThread = some pool ∧ pool.starter = .started ∧
      pool.loops_ = [7] ∧
      (pool.threads_ 0).called = [7] :=
  ⟨_, rfl, rfl, rfl, ((pool_started 3 1 true oneThread _ oneThread_allowed rfl).1 0 7 rfl).2.1⟩

/-- start() has returned, and the thread has not yet called loop(). -/
example : (run (step 3 1 true) fresh oneThread).map (fun pool => (pool.starter,
  (pool.threads_ 0).func)) =
    some (.started, .unlocked 7) := by decide

theorem pool_starts_one : oneThread.length ≤ 28 :=
  (pool_starts 3 1 true oneThread _ oneThread_allowed rfl).2

/-- The loop of the thread is over before startLoop looks at loop_: start() waits with nobody to
notify it. -/
example : (run (step 3 1 true) fresh
    [.start, .start, .thread 0, .thread 0, .start, .construct 0 7, .thread 0, .thread 0, .thread 0,
      .thread 0,
      .thread 0, .thread 0, .leave 0, .thread 0, .thread 0, .thread 0, .start, .start]).map
      (fun pool => (pool.starter, (pool.threads_ 0).func)) = some (.waiting, .ended 7) := by decide

end MuduoChat.ThreadPool
