import Mathlib.Data.List.Nodup
import MuduoChat.EPollPoller

/-!
EpollPoller::poll and fillActiveChannels, over the histories of a loop's channels. epoll_wait
gives the descriptors of its interest set that have an event, as many as the array has room for;
an array that was filled is doubled. `pending` is what the kernel has for each descriptor.
`filled` counts the polls that filled the array; the code does not keep it. What is logged is left
out.
-/

namespace MuduoChat.ActiveChannels
open EPollPoller (Channel ChannelOp DistinctFds EpollEvent Event Events Fresh Poller Registered)

def EPOLLERR : Events := 0x008
def EPOLLHUP : Events := 0x010

def kInitEventListsize : Nat := 16

variable {C : Type} [DecidableEq C]

/-- `events_` is the size of the vector. -/
structure Loop (C : Type) where
  poller : Poller C
  revents_ : C → Events
  events_ : Nat
  activeChannels_ : List C
  filled : Nat

/-- What epoll_wait would say of a descriptor: what was asked for, errors and hang-ups. -/
def reportable (poller : Poller C) (pending : Int → Events) (fd : Int) : Option (EpollEvent C) :=
  (poller.interest fd).bind fun event =>
    let events := pending fd &&& (event.events ||| EPOLLERR ||| EPOLLHUP)
    if events = 0 then none else some ⟨events, event.ptr⟩

/-- An answer of epoll_wait: different descriptors, and all there are unless the array is full. -/
structure Answer (loop : Loop C) (pending : Int → Events)
    (answer : List (Int × EpollEvent C)) : Prop where
  distinct : (answer.map Prod.fst).Nodup
  reported : ∀ entry ∈ answer, reportable loop.poller pending entry.1 = some entry.2
  room : answer.length ≤ loop.events_
  all : answer.length < loop.events_ → ∀ fd event, reportable loop.poller pending fd = some event →
    (fd, event) ∈ answer

def fillActiveChannels : List (Int × EpollEvent C) → Loop C → Loop C
  | [], loop => loop
  | (_, event) :: rest, loop => fillActiveChannels rest
      { loop with
        revents_ := Function.update loop.revents_ event.ptr event.events
        activeChannels_ := loop.activeChannels_ ++ [event.ptr] }

/-- `activeChannels_.clear()` of the loop, and poll. An answer with nothing in it is a timeout or an
interrupt. -/
def poll (answer : List (Int × EpollEvent C)) (loop : Loop C) : Loop C :=
  let active := fillActiveChannels answer { loop with activeChannels_ := [] }
  if 0 < answer.length ∧ answer.length = loop.events_ then
    { active with events_ := loop.events_ * 2, filled := loop.filled + 1 }
  else active

inductive Action (C : Type) where
  | event (event : Event C)
  | poll (pending : Int → Events) (answer : List (Int × EpollEvent C))

def step (loop : Loop C) : Action C → Option (Loop C)
  | .event event => (EPollPoller.step loop.poller event).map fun poller =>
      { loop with poller := poller }
  | .poll _ answer => some (poll answer loop)

def Allowed (loop : Loop C) : Action C → Prop
  | .event event => DistinctFds loop.poller event
  | .poll pending answer => Answer loop pending answer

/-- A new loop. -/
structure New (loop : Loop C) : Prop where
  fresh : Fresh loop.poller
  events_ : loop.events_ = kInitEventListsize
  filled : loop.filled = 0

/-! One poll. -/

/-- The channel that the last entry for it leaves its revents to. -/
theorem fill_revents (answer : List (Int × EpollEvent C)) (loop : Loop C) (c : C) (events : Events)
    (known : ∀ entry ∈ answer, entry.2.ptr = c → entry.2.events = events) :
    (fillActiveChannels answer loop).revents_ c =
      if ∃ entry ∈ answer, entry.2.ptr = c then events else loop.revents_ c := by
  induction answer generalizing loop with
  | nil => simp [fillActiveChannels]
  | cons entry rest ih =>
      obtain ⟨fd, event⟩ := entry
      obtain ⟨here, others⟩ := List.forall_mem_cons.mp known
      rw [fillActiveChannels, ih _ others]
      by_cases later : ∃ entry ∈ rest, entry.2.ptr = c
      · have some_ : ∃ entry ∈ (fd, event) :: rest, entry.2.ptr = c :=
          later.imp fun entry found => ⟨List.mem_cons_of_mem _ found.1, found.2⟩
        rw [if_pos later, if_pos some_]
      · rw [if_neg later]
        by_cases same : event.ptr = c
        · have some_ : ∃ entry ∈ (fd, event) :: rest, entry.2.ptr = c :=
            ⟨_, List.mem_cons_self, same⟩
          rw [if_pos some_, ← here same, ← same]
          exact Function.update_self _ _ _
        · have none_ : ¬ ∃ entry ∈ (fd, event) :: rest, entry.2.ptr = c := by
            rintro ⟨entry, member, found⟩
            rcases List.mem_cons.mp member with rfl | inside
            · exact same found
            · exact later ⟨entry, inside, found⟩
          rw [if_neg none_]
          exact Function.update_of_ne (Ne.symm same) _ _

theorem fill_active (answer : List (Int × EpollEvent C)) (loop : Loop C) :
    (fillActiveChannels answer loop).activeChannels_ = loop.activeChannels_ ++
    answer.map fun entry =>
    entry.2.ptr := by
  induction answer generalizing loop with
  | nil => simp [fillActiveChannels]
  | cons entry rest ih => simp [fillActiveChannels, ih]

theorem fill_frame (answer : List (Int × EpollEvent C)) (loop : Loop C) :
    (fillActiveChannels answer loop).poller = loop.poller ∧
    (fillActiveChannels answer loop).events_ = loop.events_ ∧
      (fillActiveChannels answer loop).filled = loop.filled := by
  induction answer generalizing loop with
  | nil => exact ⟨rfl, rfl, rfl⟩
  | cons entry rest ih => exact ih _

theorem poll_fill (answer : List (Int × EpollEvent C)) (loop : Loop C) :
    (poll answer loop).poller = loop.poller ∧
      (poll answer loop).activeChannels_ = answer.map (fun entry => entry.2.ptr) ∧
      (poll answer loop).revents_ =
        (fillActiveChannels answer { loop with activeChannels_ := [] }).revents_ := by
  have poller := (fill_frame answer { loop with activeChannels_ := [] }).1
  have active := fill_active answer { loop with activeChannels_ := [] }
  unfold poll
  simp only
  split <;> exact ⟨poller, active, rfl⟩

/-! Runs. -/

/-- The events of a channel that are to be reported. -/
def due (poller : Poller C) (pending : Int → Events) (c : C) : Events :=
  pending (poller.channel c).fd &&& ((poller.channel c).events ||| EPOLLERR ||| EPOLLHUP)

omit [DecidableEq C] in
theorem reportable_iff (poller : Poller C) (registered : Registered poller)
    (pending : Int → Events) (fd : Int)
    (event : EpollEvent C) :
    reportable poller pending fd = some event ↔
      ∃ c, (poller.channel c).fd = fd ∧ (poller.channel c).index = .kAdded ∧
        due poller pending c ≠ 0 ∧
        event = ⟨due poller pending c, c⟩ := by
  constructor
  · intro found
    obtain ⟨asked, known, reported⟩ := Option.bind_eq_some_iff.mp found
    obtain ⟨c, same, added, rfl⟩ := (registered.kernel fd asked).mp known
    subst same
    simp only at reported
    split at reported
    · cases reported
    · rename_i some_
      exact ⟨c, rfl, added, some_, (Option.some.inj reported).symm⟩
  · rintro ⟨c, rfl, added, some_, rfl⟩
    have known := (registered.kernel _ _).mpr ⟨c, rfl, added, rfl⟩
    simp only [reportable, known, Option.bind_some]
    exact if_neg some_

theorem step_kept (loop : Loop C) (action : Action C) (registered : Registered loop.poller)
    (allowed : Allowed loop action) :
    ∃ after, step loop action = some after ∧ Registered after.poller := by
  cases action with
  | event event =>
      obtain ⟨poller, stepped, kept⟩ :=
        EPollPoller.step_registered loop.poller event registered allowed
      exact ⟨{ loop with poller := poller }, by simp [step, stepped], kept⟩
  | poll pending answer => exact ⟨poll answer loop, rfl, (poll_fill answer loop).1 ▸ registered⟩

section Poll
variable (start loop : Loop C) (new : New start) (trace : List (Action C))
  (allowed : Transition.Guarded step Allowed start trace)
    (ran : Transition.run step start trace = some loop)
include new allowed ran

theorem run_registered : Registered loop.poller := by
  obtain ⟨after, reached, registered⟩ := Transition.run_progress step Allowed
    (fun loop => Registered loop.poller)
    (fun before action kept guard => step_kept before action kept guard) start trace allowed
    (EPollPoller.fresh_registered start.poller new.fresh)
  rw [ran] at reached
  cases reached
  exact registered

/-- Whatever happened before to channels that have distinct, open fds while they are in use, a
poll hands out channels that are registered at that moment, each once and with what is due to it,
and leaves out none unless the array was full. -/
theorem active_channels (pending : Int → Events) (answer : List (Int × EpollEvent C))
    (answered : Answer loop pending answer) :
    ((poll answer loop).activeChannels_).Nodup ∧
      (∀ c ∈ (poll answer loop).activeChannels_, loop.poller.inUse c = true ∧
        loop.poller.channels_ (loop.poller.channel c).fd = some c ∧
        (poll answer loop).revents_ c = due loop.poller pending c ∧ due loop.poller pending c ≠ 0) ∧
      (answer.length < loop.events_ → ∀ c, (loop.poller.channel c).index = .kAdded →
        due loop.poller pending c ≠ 0 →
        c ∈ (poll answer loop).activeChannels_) ∧
      ∀ c, c ∉ (poll answer loop).activeChannels_ →
        (poll answer loop).revents_ c = loop.revents_ c := by
  have registered := run_registered start loop new trace allowed ran
  obtain ⟨_, active, revents⟩ := poll_fill answer loop
  have entries : ∀ entry ∈ answer, (loop.poller.channel entry.2.ptr).fd = entry.1 ∧
      (loop.poller.channel entry.2.ptr).index = .kAdded ∧
        entry.2.events = due loop.poller pending entry.2.ptr ∧
      due loop.poller pending entry.2.ptr ≠ 0 := by
    intro entry member
    obtain ⟨c, same, added, some_, event⟩ := (reportable_iff _ registered _ _ _).mp
      (answered.reported entry member)
    rw [event]
    exact ⟨same, added, rfl, some_⟩
  have filled (c : C) := fill_revents answer { loop with activeChannels_ := [] } c
    (due loop.poller pending c)
    fun entry member same => same ▸ (entries entry member).2.2.1
  rw [active, revents]
  refine ⟨?_, ?_, ?_, ?_⟩
  · -- two entries for one channel would be for one descriptor
    refine List.Nodup.map_on (fun first one second two same => ?_)
      (List.Nodup.of_map _ answered.distinct)
    have fds : first.1 = second.1 := by rw [← (entries first one).1, ← (entries second two).1, same]
    exact List.inj_on_of_nodup_map answered.distinct one two fds
  · intro c member
    obtain ⟨entry, inside, rfl⟩ := List.mem_map.mp member
    obtain ⟨_, added, _, some_⟩ := entries entry inside
    refine ⟨(registered.used _).mpr (by simp [added]),
      (registered.table _ _).mpr ⟨rfl, .inl added⟩, ?_, some_⟩
    rw [filled, if_pos ⟨entry, inside, rfl⟩]
  · intro short c added some_
    have reported := (reportable_iff _ registered pending _ _).mpr ⟨c, rfl, added, some_, rfl⟩
    exact List.mem_map.mpr ⟨_, answered.all short _ _ reported, rfl⟩
  · intro c absent
    rw [filled, if_neg]
    rintro ⟨entry, inside, same⟩
    exact absent (List.mem_map.mpr ⟨entry, inside, same⟩)

end Poll

/-- A loop with one channel, on descriptor 5, and that channel while it is read from. -/
def oneChannel : Loop Bool where
  poller := EPollPoller.sharedFd
  revents_ _ := 0
  events_ := kInitEventListsize
  activeChannels_ := []
  filled := 0

theorem oneChannel_new : New oneChannel :=
    ⟨⟨fun _ => rfl, fun _ => rfl, fun _ => rfl, fun _ => rfl, rfl⟩, rfl, rfl⟩

def watched : Poller Bool :=
  EPollPoller.place EPollPoller.sharedFd true ⟨5, EPollPoller.kReadEvent, .kAdded⟩ [⟨.add, 5, true⟩]

theorem watched_step : step oneChannel (.event (.call true .enableReading)) =
    some { oneChannel with poller := watched } := by
  have stepped := EPollPoller.call_spec EPollPoller.sharedFd true
    (EPollPoller.fresh_registered _ oneChannel_new.fresh)
    (fun _ used => by cases used) rfl .enableReading
  simp only [step, oneChannel, stepped, Option.map_some]
  rfl

theorem watched_run :
    Transition.run step oneChannel [.event (.call true .enableReading)] =
      some { oneChannel with poller := watched } := by
  rw [Transition.run, watched_step, Option.bind_some]
  rfl

/-- The kernel's answer when there is something to read on the descriptor. -/
theorem watched_answer :
    Answer { oneChannel with poller := watched }
      (fun _ => EPollPoller.EPOLLIN) [(5, ⟨EPollPoller.EPOLLIN, true⟩)] where
  distinct := by simp
  reported := by
    intro entry member
    obtain rfl := List.mem_singleton.mp member
    rfl
  room := by decide
  all := by
    intro _ fd event found
    by_cases same : fd = 5
    · subst same
      cases found
      exact List.mem_singleton.mpr rfl
    · have unknown : watched.interest fd = none := Function.update_of_ne same _ _
      simp [reportable, unknown] at found

theorem active_channels_watched :
    (poll [(5, ⟨EPollPoller.EPOLLIN,
      true⟩)] { oneChannel with poller := watched }).activeChannels_.Nodup ∧
      true ∈ (poll [(5, ⟨EPollPoller.EPOLLIN,
        true⟩)] { oneChannel with poller := watched }).activeChannels_ := by
  have guarded : Transition.Guarded step Allowed oneChannel [.event (.call true .enableReading)] :=
    by
    refine ⟨⟨fun _ => rfl, fun _ used => ?_⟩, ?_⟩
    · cases used
    · rw [watched_step]
      trivial
  obtain ⟨once, _, none_missed, _⟩ :=
    active_channels oneChannel { oneChannel with poller := watched } oneChannel_new
    [.event (.call true .enableReading)] guarded watched_run (fun _ => EPollPoller.EPOLLIN)
    [(5, ⟨EPollPoller.EPOLLIN, true⟩)] watched_answer
  exact ⟨once, none_missed (by decide) true rfl (by decide)⟩

/-! How often a poll leaves out a channel. -/

def few (bound : Nat) : Action C → Prop
  | .event _ => True
  | .poll _ answer => answer.length ≤ bound

/-- The size is the first one, doubled for each poll that filled it; the last of these polls had
that many events. -/
def Sized (bound : Nat) (loop : Loop C) : Prop :=
  loop.events_ = kInitEventListsize <<< loop.filled ∧
    (loop.filled = 0 ∨ kInitEventListsize <<< (loop.filled - 1) ≤ bound)

theorem step_sized (bound : Nat) (before : Loop C) (action : Action C) (after : Loop C)
    (sized : Sized bound before)
    (guarded : few bound action) (stepped : step before action = some after) :
    Sized bound after := by
  cases action with
  | event event =>
      obtain ⟨poller, _, rfl⟩ := Option.map_eq_some_iff.mp stepped
      exact sized
  | poll pending answer =>
      cases stepped
      obtain ⟨_, events, filled⟩ := fill_frame answer { before with activeChannels_ := [] }
      unfold poll
      simp only
      split
      · rename_i full
        refine ⟨?_, .inr ?_⟩
        · simp only [sized.1, Nat.shiftLeft_succ, Nat.mul_comm]
        · simp only [Nat.add_sub_cancel]
          rw [← sized.1, ← full.2]
          exact guarded
      · unfold Sized
        rw [events, filled]
        exact sized

/-- Where at most `bound` descriptors are ready at a time, the polls that fill the array, and so may
leave out a channel, are few: the size would double each time, and it never comes to more than twice
the bound, or stays the first one. -/
theorem filled_bounded (bound : Nat) (start loop : Loop C) (new : New start)
    (trace : List (Action C))
    (guarded : Transition.Guarded step (fun _ action => few bound action) start trace)
    (ran : Transition.run step start trace = some loop) :
    loop.events_ = kInitEventListsize <<< loop.filled ∧
      (loop.filled = 0 ∨ kInitEventListsize <<< (loop.filled - 1) ≤ bound) ∧
      loop.events_ ≤ max kInitEventListsize (bound * 2) := by
  have sized : Sized bound start := ⟨by rw [new.events_, new.filled]; rfl, .inl new.filled⟩
  obtain ⟨size, last⟩ := Transition.run_preserves step (fun _ action => few bound action)
    (Sized bound)
    (fun before action after kept guard stepped =>
      step_sized bound before action after kept guard stepped)
    start loop trace guarded sized ran
  refine ⟨size, last, ?_⟩
  rw [size]
  rcases last with zero | below
  · rw [zero]
    exact Nat.le_max_left _ _
  · refine Nat.le_trans ?_ (Nat.le_max_right _ _)
    cases filled : loop.filled with
    | zero =>
        rw [filled] at below
        exact Nat.le_trans below (by omega)
    | succ n =>
        rw [filled, Nat.add_sub_cancel] at below
        rw [Nat.shiftLeft_succ, Nat.mul_comm]
        exact Nat.mul_le_mul_right 2 below

/-- Sixteen ready descriptors, which fill the first array. -/
def sixteen : List (Int × EpollEvent Bool) := (List.range 16).map fun fd =>
    ((fd : Int), ⟨EPollPoller.EPOLLIN, true⟩)

theorem filled_bounded_sixteen :
    ∃ loop, Transition.run step oneChannel [.poll (fun _ => EPollPoller.EPOLLIN) sixteen] =
      some loop ∧
      loop.filled = 1 ∧
      loop.events_ ≤ 32 := by
  refine ⟨_, rfl, rfl, ?_⟩
  exact (filled_bounded 16 oneChannel _ oneChannel_new [.poll
    (fun _ => EPollPoller.EPOLLIN) sixteen]
    ⟨Nat.le_refl 16, trivial⟩ rfl).2.2

end MuduoChat.ActiveChannels
