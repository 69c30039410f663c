import Mathlib.Data.BitVec
import Mathlib.Data.Fintype.Basic
import Mathlib.Logic.Function.Basic
import MuduoChat.Transition

/-!
MyMuduo/Channel.h, Channel.cc and EPollPoller.cc, with the epoll set of the
kernel. The same fact is kept in three places: the channel's index, the map
channels_ and the kernel's interest set. A channel is a pointer of an arbitrary
type `C` into the channel objects of one loop. LOG_FATAL ends the process, so a
step that reaches it has no successor. `calls` is a record of the epoll_ctl
calls for the statements below; the code does not keep one.
-/

namespace MuduoChat.EPollPoller

abbrev Events := BitVec 32

def EPOLLIN : Events := 0x001
def EPOLLPRI : Events := 0x002
def EPOLLOUT : Events := 0x004

def kNoneEvent : Events := 0
def kReadEvent : Events := EPOLLIN ||| EPOLLPRI
def kWriteEvent : Events := EPOLLOUT

inductive Index where
  | kNew
  | kAdded
  | kDeleted
  deriving DecidableEq

structure Channel where
  fd : Int
  events : Events
  index : Index
  deriving DecidableEq

def isNoneEvent (channel : Channel) : Bool := channel.events == kNoneEvent
def isWriting (channel : Channel) : Bool := channel.events &&& kWriteEvent != 0
def isReading (channel : Channel) : Bool := channel.events &&& kReadEvent != 0

/-- `epoll_event`: the mask and `data.ptr`. -/
structure EpollEvent (C : Type) where
  events : Events
  ptr : C
  deriving DecidableEq

inductive Ctl where
  | add
  | mod
  | del
  deriving DecidableEq

structure Call where
  operation : Ctl
  fd : Int
  accepted : Bool
  deriving DecidableEq

structure Poller (C : Type) where
  channel : C → Channel
  channels_ : Int → Option C
  interest : Int → Option (EpollEvent C)
  opened : Int → Bool
  inUse : C → Bool
  calls : List Call

variable {C : Type} [DecidableEq C]

/-- The kernel's answer to epoll_ctl: EBADF for a closed fd, EEXIST for an ADD
of a present one, ENOENT for a MOD or DEL of an absent one. -/
def epollCtl (poller : Poller C) (operation : Ctl) (fd : Int) (event : EpollEvent C) :
    Option (Int → Option (EpollEvent C)) :=
  if poller.opened fd then
    match operation, poller.interest fd with
    | .add, none => some (Function.update poller.interest fd (some event))
    | .mod, some _ => some (Function.update poller.interest fd (some event))
    | .del, some _ => some (Function.update poller.interest fd none)
    | _, _ => none
  else none

/-- EpollPoller::update. A failed DEL is logged, a failed ADD or MOD is fatal. -/
def update (poller : Poller C) (operation : Ctl) (c : C) : Option (Poller C) :=
  let fd := (poller.channel c).fd
  match epollCtl poller operation fd ⟨(poller.channel c).events, c⟩ with
  | some interest =>
      some { poller with interest := interest, calls := poller.calls ++ [⟨operation, fd, true⟩] }
  | none =>
      if operation = .del then
        some { poller with calls := poller.calls ++ [⟨operation, fd, false⟩] }
      else none

def setChannel (poller : Poller C) (c : C) (channel : Channel) : Poller C :=
  { poller with channel := Function.update poller.channel c channel }

def setIndex (poller : Poller C) (c : C) (index : Index) : Poller C :=
  setChannel poller c { poller.channel c with index := index }

def setEvents (poller : Poller C) (c : C) (events : Events) : Poller C :=
  setChannel poller c { poller.channel c with events := events }

def updateChannel (poller : Poller C) (c : C) : Option (Poller C) :=
  let channel := poller.channel c
  if channel.index = .kNew ∨ channel.index = .kDeleted then
    let mapped :=
      if channel.index = .kNew then
        { poller with channels_ := Function.update poller.channels_ channel.fd (some c) }
      else poller
    update (setIndex mapped c .kAdded) .add c
  else if isNoneEvent channel then
    (update poller .del c).map fun deleted => setIndex deleted c .kDeleted
  else update poller .mod c

def removeChannel (poller : Poller C) (c : C) : Option (Poller C) :=
  let channel := poller.channel c
  let erased := { poller with channels_ := Function.update poller.channels_ channel.fd none }
  if channel.index = .kAdded then
    (update erased .del c).map fun deleted => setIndex deleted c .kNew
  else some (setIndex erased c .kNew)

inductive ChannelOp where
  | enableReading
  | disableReading
  | enableWriting
  | disableWriting
  | disableAll
  | remove
  deriving DecidableEq

/-- The new mask, for the operations of Channel.h that end in update(). -/
def nextEvents (events : Events) : ChannelOp → Events
  | .enableReading => events ||| kReadEvent
  | .disableReading => events &&& ~~~kReadEvent
  | .enableWriting => events ||| kWriteEvent
  | .disableWriting => events &&& ~~~kWriteEvent
  | .disableAll => kNoneEvent
  | .remove => events

def channelStep (poller : Poller C) (c : C) : ChannelOp → Option (Poller C)
  | .remove => removeChannel poller c
  | op => updateChannel (setEvents poller c (nextEvents (poller.channel c).events op)) c

/-! A loop's history: operations on its channels, and fds opened and closed by
the process. `inUse` marks a channel from its first operation until it is
removed. -/

inductive Event (C : Type) where
  | call (c : C) (op : ChannelOp)
  | openFd (fd : Int)
  | closeFd (fd : Int)
  deriving DecidableEq

def mark (poller : Poller C) (c : C) (op : ChannelOp) : Poller C :=
  { poller with inUse := Function.update poller.inUse c (decide (op ≠ .remove)) }

/-- Closing an fd takes it out of the interest set. -/
def step (poller : Poller C) : Event C → Option (Poller C)
  | .call c op => (channelStep poller c op).map fun next => mark next c op
  | .openFd fd => some { poller with opened := Function.update poller.opened fd true }
  | .closeFd fd => some { poller with
      opened := Function.update poller.opened fd false
      interest := Function.update poller.interest fd none }

/-- No other channel in use has the fd of this one. -/
def Alone (poller : Poller C) (c : C) : Prop :=
  ∀ other, poller.inUse other = true → other ≠ c → (poller.channel other).fd ≠ (poller.channel c).fd

instance [Fintype C] (poller : Poller C) (c : C) : Decidable (Alone poller c) :=
  inferInstanceAs (Decidable (∀ _, _ → _))

/-- remove() of a channel that is in no table any more. -/
def Again (poller : Poller C) (c : C) (op : ChannelOp) : Prop := op = .remove ∧
    poller.inUse c = false

instance (poller : Poller C) (c : C) (op : ChannelOp) : Decidable (Again poller c op) :=
  inferInstanceAs (Decidable (_ ∧ _))

/-- The channels in use have distinct, open fds, the one just used included. A
channel that is removed again may have a closed fd, but not that of one in use. -/
def DistinctFds (poller : Poller C) : Event C → Prop
  | .call c op => (¬ Again poller c op → poller.opened (poller.channel c).fd = true) ∧
      Alone poller c
  | .openFd _ => True
  | .closeFd fd => ∀ c, poller.inUse c = true → (poller.channel c).fd ≠ fd

instance [Fintype C] (poller : Poller C) (event : Event C) :
    Decidable (DistinctFds poller event) := by
  cases event <;> simp only [DistinctFds] <;> infer_instance

/-- The channels in use have distinct, open fds; nothing is asked of one that is removed again. -/
def DistinctInUse (poller : Poller C) : Event C → Prop
  | .call c op => ¬ Again poller c op → poller.opened (poller.channel c).fd = true ∧ Alone poller c
  | event => DistinctFds poller event

instance [Fintype C] (poller : Poller C) (event : Event C) :
    Decidable (DistinctInUse poller event) := by
  cases event <;> simp only [DistinctInUse] <;> infer_instance

structure Registered (poller : Poller C) : Prop where
  kernel : ∀ fd event, poller.interest fd = some event ↔
    ∃ c, (poller.channel c).fd = fd ∧ (poller.channel c).index = .kAdded ∧
      event = ⟨(poller.channel c).events, c⟩
  table : ∀ fd c, poller.channels_ fd = some c ↔
    (poller.channel c).fd = fd ∧
      ((poller.channel c).index = .kAdded ∨ (poller.channel c).index = .kDeleted)
  used : ∀ c, poller.inUse c = true ↔ (poller.channel c).index ≠ .kNew
  legal : ∀ call ∈ poller.calls, call.accepted = true

/-- A new loop's poller over channel objects that were never registered. -/
structure Fresh (poller : Poller C) : Prop where
  index : ∀ c, (poller.channel c).index = .kNew
  channels_ : ∀ fd, poller.channels_ fd = none
  interest : ∀ fd, poller.interest fd = none
  inUse : ∀ c, poller.inUse c = false
  calls : poller.calls = []

omit [DecidableEq C] in
theorem fresh_registered (poller : Poller C) (fresh : Fresh poller) : Registered poller where
  kernel fd event := by simp [fresh.interest, fresh.index]
  table fd c := by simp [fresh.channels_, fresh.index]
  used c := by simp [fresh.inUse, fresh.index]
  legal call member := by simp [fresh.calls] at member

/-- The three records rewritten for one channel, together. -/
def place (poller : Poller C) (c : C) (channel : Channel) (calls : List Call) : Poller C :=
  { channel := Function.update poller.channel c channel
    channels_ := Function.update poller.channels_ channel.fd
      (if channel.index = .kNew then none else some c)
    interest := Function.update poller.interest channel.fd
      (if channel.index = .kAdded then some ⟨channel.events, c⟩ else none)
    opened := poller.opened
    inUse := Function.update poller.inUse c (decide (channel.index ≠ .kNew))
    calls := poller.calls ++ calls }

/-- An fd that no other channel in use has may be rewritten at will. -/
theorem place_registered (poller : Poller C) (c : C) (channel : Channel) (calls : List Call)
    (registered : Registered poller) (sameFd : channel.fd = (poller.channel c).fd)
    (alone : ∀ other, poller.inUse other = true → other ≠ c →
      (poller.channel other).fd ≠ (poller.channel c).fd)
    (accepted : ∀ call ∈ calls, call.accepted = true) :
    Registered (place poller c channel calls) := by
  have elsewhere : ∀ other, other ≠ c → (poller.channel other).index ≠ .kNew →
      (poller.channel other).fd ≠ channel.fd := by
    intro other different placed
    rw [sameFd]
    exact alone other ((registered.used other).mpr placed) different
  -- the kernel's entry for this descriptor is the channel's own: no other placed channel has it
  refine ⟨?_, ?_, ?_, ?_⟩
  · intro fd event
    by_cases here : fd = channel.fd
    · subst here
      simp only [place, Function.update_self]
      constructor
      · intro found
        split at found
        · rename_i added
          exact ⟨c, by simp, by simpa using added, by simpa using found.symm⟩
        · cases found
      · rintro ⟨other, same, added, rfl⟩
        by_cases self : other = c
        · subst self
          simp only [Function.update_self] at added ⊢
          simp [added]
        · simp only [Function.update_of_ne self] at same added
          exact absurd same (elsewhere other self (by simp [added]))
    · simp only [place, Function.update_of_ne here, registered.kernel]
      refine exists_congr fun other => ?_
      by_cases self : other = c
      · subst self
        simp only [Function.update_self]
        exact ⟨fun h => absurd (h.1.symm.trans sameFd.symm) here, fun h => absurd h.1.symm here⟩
      · simp only [Function.update_of_ne self]
  · intro fd other
    by_cases self : other = c
    · subst self
      by_cases here : fd = channel.fd
      · subst here
        cases channel with
        | mk fd events index => cases index <;> simp [place]
      · simp only [place, Function.update_of_ne here, Function.update_self, registered.table]
        exact ⟨fun h => absurd (h.1.symm.trans sameFd.symm) here, fun h => absurd h.1.symm here⟩
    · by_cases here : fd = channel.fd
      · subst here
        simp only [place, Function.update_self, Function.update_of_ne self]
        constructor
        · intro found
          split at found <;> simp_all
        · rintro ⟨same, placed⟩
          refine absurd same (elsewhere other self ?_)
          rcases placed with added | deleted <;> simp [*]
      · simp only [place, Function.update_of_ne here, Function.update_of_ne self, registered.table]
  · intro other
    by_cases self : other = c
    · subst self; simp [place]
    · simp only [place, Function.update_of_ne self, registered.used]
  · intro call member
    rcases List.mem_append.mp member with old | new
    · exact registered.legal call old
    · exact accepted call new

theorem interest_of_index (poller : Poller C) (c : C) (registered : Registered poller)
    (alone : ∀ other, poller.inUse other = true → other ≠ c →
      (poller.channel other).fd ≠ (poller.channel c).fd) :
    poller.interest (poller.channel c).fd =
      if (poller.channel c).index = .kAdded then some ⟨(poller.channel c).events, c⟩ else none := by
  by_cases added : (poller.channel c).index = .kAdded
  · rw [if_pos added]
    exact (registered.kernel _ _).mpr ⟨c, rfl, added, rfl⟩
  · rw [if_neg added, Option.eq_none_iff_forall_ne_some]
    intro event found
    obtain ⟨other, same, placed, rfl⟩ := (registered.kernel _ _).mp found
    have self : other = c := by
      by_contra different
      exact alone other ((registered.used other).mpr (by simp [placed])) different same
    subst self
    exact added placed

/-- The channel after an operation on it. -/
def settled (channel : Channel) : ChannelOp → Channel
  | .remove => { channel with index := .kNew }
  | op =>
      let events := nextEvents channel.events op
      { channel with
        events := events
        index := if channel.index = .kAdded ∧ events = kNoneEvent then .kDeleted else .kAdded }

/-- The epoll_ctl calls of an operation. -/
def issued (channel : Channel) : ChannelOp → List Call
  | .remove => if channel.index = .kAdded then [⟨.del, channel.fd, true⟩] else []
  | op =>
      if channel.index ≠ .kAdded then [⟨.add, channel.fd, true⟩]
      else if nextEvents channel.events op = kNoneEvent then [⟨.del, channel.fd, true⟩]
      else [⟨.mod, channel.fd, true⟩]

theorem issued_accepted (channel : Channel) (op : ChannelOp) :
    ∀ call ∈ issued channel op, call.accepted = true := by
  intro call member
  cases op <;> simp only [issued] at member <;> split at member <;>
    first
    | simp at member
      try simp [member]
    | split at member <;> simp at member <;> simp [member]

@[simp] theorem settled_fd (channel : Channel) (op : ChannelOp) :
  (settled channel op).fd = channel.fd := by
  cases op <;> rfl

section StepSpec
variable (poller : Poller C) (c : C) (registered : Registered poller)
  (alone : ∀ other, poller.inUse other = true → other ≠ c →
    (poller.channel other).fd ≠ (poller.channel c).fd)
include registered alone

/-- A channel that is not in the epoll set needs no epoll_ctl, so its fd may be closed. -/
theorem remove_spec (opened : (poller.channel c).index = .kAdded →
    poller.opened (poller.channel c).fd = true) :
    (removeChannel poller c).map (fun next => mark next c .remove) =
    some (place poller c (settled (poller.channel c) .remove)
      (issued (poller.channel c) .remove)) := by
  have held := interest_of_index poller c registered alone
  unfold removeChannel
  by_cases added : (poller.channel c).index = .kAdded
  · rw [if_pos added] at held
    simp [added, update, epollCtl, opened added, held, mark, place, settled, issued, setIndex,
      setChannel]
  · rw [if_neg added] at held
    have absent : Function.update poller.interest (poller.channel c).fd none = poller.interest := by
      rw [← held]; exact Function.update_eq_self _ _
    simp [added, mark, place, settled, issued, setIndex, setChannel, absent]

theorem update_spec (opened : poller.opened (poller.channel c).fd = true) (op : ChannelOp)
    (notRemove : op ≠ .remove) :
    (updateChannel (setEvents poller c (nextEvents (poller.channel c).events op)) c).map
        (fun next => mark next c op) =
      some (place poller c (settled (poller.channel c) op) (issued (poller.channel c) op)) := by
  have held := interest_of_index poller c registered alone
  have result : settled (poller.channel c) op =
      { poller.channel c with
        events := nextEvents (poller.channel c).events op
        index := if (poller.channel c).index = .kAdded ∧
          nextEvents (poller.channel c).events op = kNoneEvent then .kDeleted else .kAdded } := by
    cases op <;> first | rfl | exact absurd rfl notRemove
  have calls : issued (poller.channel c) op =
      if (poller.channel c).index ≠ .kAdded then [⟨.add, (poller.channel c).fd, true⟩]
      else if nextEvents (poller.channel c).events op = kNoneEvent then
        [⟨.del, (poller.channel c).fd, true⟩]
      else [⟨.mod, (poller.channel c).fd, true⟩] := by
    cases op <;> first | rfl | exact absurd rfl notRemove
  rw [result, calls]
  generalize nextEvents (poller.channel c).events op = events
  unfold updateChannel
  cases index : (poller.channel c).index with
  | kNew =>
      rw [index] at held
      simp [setEvents, setChannel, setIndex, index, update, epollCtl, opened, held, mark, place,
        notRemove]
  | kDeleted =>
      rw [index] at held
      have mapped : Function.update poller.channels_ (poller.channel c).fd
          (some c) = poller.channels_ := by
        rw [← (registered.table _ c).mpr ⟨rfl, Or.inr index⟩]
        exact Function.update_eq_self _ _
      simp [setEvents, setChannel, setIndex, index, update, epollCtl, opened, held, mark, place,
        notRemove, mapped]
  | kAdded =>
      rw [index] at held
      have mapped : Function.update poller.channels_ (poller.channel c).fd
          (some c) = poller.channels_ := by
        rw [← (registered.table _ c).mpr ⟨rfl, Or.inl index⟩]
        exact Function.update_eq_self _ _
      by_cases empty : events = kNoneEvent
      · simp [setEvents, setChannel, setIndex, index, isNoneEvent, empty, update, epollCtl, opened,
          held,
          mark, place, notRemove, mapped]
      · simp [setEvents, setChannel, index, isNoneEvent, empty, update, epollCtl, opened, held,
          mark, place, notRemove, mapped]

/-- An operation never fails and rewrites the three records together. -/
theorem allowed_spec (op : ChannelOp)
    (opened : ¬ Again poller c op → poller.opened (poller.channel c).fd = true) :
    step poller (.call c op) =
      some (place poller c (settled (poller.channel c) op) (issued (poller.channel c) op)) := by
  by_cases remove : op = .remove
  · subst remove
    refine remove_spec poller c registered alone fun added => opened fun again => ?_
    have used := (registered.used c).mpr (by simp [added])
    simp [again.2] at used
  · have shape : channelStep poller c op =
        updateChannel (setEvents poller c (nextEvents (poller.channel c).events op)) c := by
      cases op <;> first | rfl | exact absurd rfl remove
    simp only [step, shape]
    exact update_spec poller c registered alone (opened fun again => remove again.1) op remove

theorem call_spec (opened : poller.opened (poller.channel c).fd = true) (op : ChannelOp) :
    step poller (.call c op) =
    some (place poller c (settled (poller.channel c) op) (issued (poller.channel c) op)) :=
  allowed_spec poller c registered alone op fun _ => opened

end StepSpec

theorem step_registered (poller : Poller C) (event : Event C) (registered : Registered poller)
    (distinct : DistinctFds poller event) :
    ∃ next, step poller event = some next ∧ Registered next := by
  cases event with
  | call c op =>
      exact ⟨_, allowed_spec poller c registered distinct.2 op distinct.1,
        place_registered poller c _ _ registered (settled_fd _ op) distinct.2
          (issued_accepted _ op)⟩
  | openFd fd =>
      exact ⟨_, rfl, registered.kernel, registered.table, registered.used, registered.legal⟩
  | closeFd fd =>
      refine ⟨_, rfl, ?_, registered.table, registered.used, registered.legal⟩
      intro other event
      by_cases closed : other = fd
      · subst closed
        simp only [Function.update_self, reduceCtorEq, false_iff]
        rintro ⟨c, same, added, _⟩
        exact distinct c ((registered.used c).mpr (by simp [added])) same
      · simp only [Function.update_of_ne closed, registered.kernel]

/-- From a new loop, over every history of its channels and fds: no step reaches
LOG_FATAL, the three records agree, every epoll_ctl call was legal, and a removed
channel is in neither table and can be registered again. -/
theorem poller_records_agree (start : Poller C) (fresh : Fresh start) (events : List (Event C))
    (distinct : Transition.Guarded step DistinctFds start events) :
    ∃ poller, Transition.run step start events = some poller ∧
      (∀ fd event, poller.interest fd = some event ↔
        ∃ c, (poller.channel c).fd = fd ∧ (poller.channel c).index = .kAdded ∧
          event = ⟨(poller.channel c).events, c⟩) ∧
      (∀ fd c, poller.channels_ fd = some c ↔ (poller.channel c).fd = fd ∧
        ((poller.channel c).index = .kAdded ∨ (poller.channel c).index = .kDeleted)) ∧
      (∀ call ∈ poller.calls, call.accepted = true) ∧
      (∀ c, DistinctFds poller (.call c .remove) →
        ∃ removed, step poller (.call c .remove) = some removed ∧
          removed.interest (poller.channel c).fd = none ∧
            removed.channels_ (poller.channel c).fd = none ∧
          (poller.opened (poller.channel c).fd = true → ∀ op, op ≠ .remove → ∃ again,
            step removed (.call c op) = some again ∧
            again.interest (poller.channel c).fd = some ⟨(again.channel c).events, c⟩)) := by
  obtain ⟨poller, ran, registered⟩ := Transition.run_progress step DistinctFds Registered
    (fun before event kept guard => step_registered before event kept guard)
    start events distinct (fresh_registered start fresh)
  refine ⟨poller, ran, registered.kernel, registered.table, registered.legal, ?_⟩
  intro c usable
  have stepped := allowed_spec poller c registered usable.2 .remove usable.1
  refine ⟨_, stepped, by simp [place, settled], by simp [place, settled], ?_⟩
  intro opened op notRemove
  have kept := place_registered poller c _ _ registered (settled_fd _ .remove) usable.2
    (issued_accepted (poller.channel c) .remove)
  have again := call_spec _ c kept (by
    intro other used different
    simp only [place, Function.update_of_ne different, Function.update_self, settled_fd] at used ⊢
    exact usable.2 other used different) (by simpa [place] using opened) op
  refine ⟨_, again, ?_⟩
  cases op <;> first | exact absurd rfl notRemove | simp [place, settled]

/-- Two channel objects that get the same fd one after the other. -/
def sharedFd : Poller Bool where
  channel _ := ⟨5, kNoneEvent, .kNew⟩
  channels_ _ := none
  interest _ := none
  opened fd := fd == 5
  inUse _ := false
  calls := []

theorem poller_records_agree_shared_fd :
    ∃ poller, Transition.run step sharedFd
        [.call true .enableReading, .call true .disableAll, .call true .enableWriting,
          .call true .remove,
          .closeFd 5, .openFd 5, .call false .enableReading] = some poller ∧
      ∀ call ∈ poller.calls, call.accepted = true := by
  have fresh : Fresh sharedFd := ⟨fun _ => rfl, fun _ => rfl, fun _ => rfl, fun _ => rfl, rfl⟩
  obtain ⟨poller, ran, _, _, legal, _⟩ := poller_records_agree sharedFd fresh
    [.call true .enableReading, .call true .disableAll, .call true .enableWriting,
      .call true .remove,
      .closeFd 5, .openFd 5, .call false .enableReading] (by decide)
  exact ⟨poller, ran, legal⟩

/-- A channel is removed again when its fd belongs to another one, whose entry it takes away. -/
def removedAgain : List (Event Bool) :=
  [.call true .enableReading, .call true .remove, .closeFd 5, .openFd 5,
    .call false .enableReading, .call true .remove]

theorem removed_again_unmaps :
    ¬ ∀ events : List (Event Bool), Transition.Guarded step DistinctInUse sharedFd events →
    ∃ poller, Transition.run step sharedFd events = some poller ∧
      ∀ fd c, poller.channels_ fd = some c ↔ (poller.channel c).fd = fd ∧
        ((poller.channel c).index = .kAdded ∨ (poller.channel c).index = .kDeleted) := by
  intro claimed
  obtain ⟨poller, ran, table⟩ := claimed removedAgain (by decide)
  have reached : (Transition.run step sharedFd removedAgain).map (fun poller =>
      (poller.channels_ 5, poller.channel false)) = some (none, ⟨5, kReadEvent, .kAdded⟩) := by
        decide
  rw [ran, Option.map_some, Option.some.injEq, Prod.mk.injEq] at reached
  have mapped := (table 5 false).mpr (by rw [reached.2]; exact ⟨rfl, .inl rfl⟩)
  rw [reached.1] at mapped
  cases mapped

end MuduoChat.EPollPoller
