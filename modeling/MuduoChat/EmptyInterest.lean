import MuduoChat.EPollPoller

/-!
Channels without interests. updateChannel asks isNoneEvent() only when the channel's index
is kAdded; with any other index it adds the channel with whatever mask it has. So a channel
that is disabled before it was enabled, or a second time, goes into the kernel's interest
set with an empty mask, and epoll reports EPOLLHUP and EPOLLERR for it all the same.
The entries are followed here without any assumption on the fds of the channels.
-/

namespace MuduoChat.EmptyInterest
open EPollPoller

variable {C : Type} [DecidableEq C]

/-- A channel whose events() is empty is the channel of no entry of the interest set. -/
def NotPolled (poller : Poller C) : Prop :=
  ∀ c, isNoneEvent (poller.channel c) = true → ∀ fd event, poller.interest fd = some event →
    event.ptr ≠ c

/-- No call but remove leaves the mask empty on a channel that is not in the interest set. -/
def LeavesSome (poller : Poller C) : Event C → Prop
  | .call c op => op = .remove ∨ (poller.channel c).index = .kAdded ∨
      nextEvents (poller.channel c).events op ≠ kNoneEvent
  | _ => True

instance (poller : Poller C) : DecidablePred (LeavesSome poller)
  | .call _ _ => inferInstanceAs (Decidable (_ ∨ _ ∨ _))
  | .openFd _ | .closeFd _ => .isTrue trivial

/-- Every entry is that of an added channel, with its fd and its mask. -/
structure Tracked (poller : Poller C) : Prop where
  opened : ∀ fd event, poller.interest fd = some event → poller.opened fd = true
  entry : ∀ fd event, poller.interest fd = some event →
    (poller.channel event.ptr).fd = fd ∧ (poller.channel event.ptr).index = .kAdded ∧
      (poller.channel event.ptr).events = event.events

omit [DecidableEq C] in
theorem fresh_tracked (poller : Poller C) (fresh : Fresh poller) : Tracked poller where
  opened fd event found := by simp [fresh.interest] at found
  entry fd event found := by simp [fresh.interest] at found

omit [DecidableEq C] in
theorem notPolled_iff (poller : Poller C) (tracked : Tracked poller) :
    NotPolled poller ↔ ∀ fd event, poller.interest fd = some event → event.events ≠ kNoneEvent := by
  constructor
  · intro notPolled fd event found empty
    obtain ⟨_, _, same⟩ := tracked.entry fd event found
    exact notPolled event.ptr (by rw [isNoneEvent, same, empty]; rfl) fd event found rfl
  · intro masks c none_ fd event found self
    obtain ⟨_, _, same⟩ := tracked.entry fd event found
    rw [self] at same
    exact masks fd event found (same.symm.trans (eq_of_beq none_))

/-! What an epoll_ctl call leaves in the interest set. -/

omit [DecidableEq C] in
theorem update_put (poller next : Poller C) (operation : Ctl) (c : C) (puts : operation ≠ .del)
    (updated : update poller operation c = some next) :
    next.channel = poller.channel ∧ next.opened = poller.opened ∧
      poller.opened (poller.channel c).fd = true ∧
      next.interest = Function.update poller.interest (poller.channel c).fd
        (some ⟨(poller.channel c).events, c⟩) := by
  unfold update epollCtl at updated
  by_cases opened : poller.opened (poller.channel c).fd
  · cases operation with
    | del => exact absurd rfl puts
    | add =>
        cases held : poller.interest (poller.channel c).fd <;>
          simp only [opened, held, if_true] at updated
        · cases updated
          exact ⟨rfl, rfl, opened, rfl⟩
        · cases updated
    | mod =>
        cases held : poller.interest (poller.channel c).fd <;>
          simp only [opened, held, if_true] at updated
        · cases updated
        · cases updated
          exact ⟨rfl, rfl, opened, rfl⟩
  · simp [opened, puts] at updated

omit [DecidableEq C] in
/-- A DEL that fails leaves no entry either: there was none. -/
theorem update_del (poller next : Poller C) (c : C)
    (openFds : ∀ fd event, poller.interest fd = some event → poller.opened fd = true)
    (updated : update poller .del c = some next) :
    next.channel = poller.channel ∧ next.opened = poller.opened ∧
      next.interest = Function.update poller.interest (poller.channel c).fd none := by
  cases held : poller.interest (poller.channel c).fd with
  | some event =>
      have opened := openFds _ event held
      simp only [update, epollCtl, opened, held, if_true, Option.some.injEq] at updated
      subst updated
      exact ⟨rfl, rfl, rfl⟩
  | none =>
      -- ENOENT is logged, and the interest set is as if there had been something to delete
      have absent : Function.update poller.interest (poller.channel c).fd none = poller.interest :=
        by
        rw [← held]
        exact Function.update_eq_self _ _
      have refused : epollCtl poller .del (poller.channel c).fd
          ⟨(poller.channel c).events, c⟩ = none := by
        simp [epollCtl, held]
      simp only [update, refused, if_true, Option.some.injEq] at updated
      subst updated
      exact ⟨rfl, rfl, absent.symm⟩

/-! What a call leaves. -/

/-- The interest set after an operation on a channel. -/
def settledInterest (poller : Poller C) (c : C) (op : ChannelOp) : Int → Option (EpollEvent C) :=
  let channel := poller.channel c
  let next := settled channel op
  if op = .remove ∧ channel.index ≠ .kAdded then poller.interest
  else
    Function.update poller.interest channel.fd (if next.index = .kAdded then
      some ⟨next.events, c⟩ else none)

theorem remove_effect (poller next : Poller C) (c : C) (tracked : Tracked poller)
    (stepped : step poller (.call c .remove) = some next) :
    next.channel = Function.update poller.channel c (settled (poller.channel c) .remove) ∧
      next.opened = poller.opened ∧ next.interest = settledInterest poller c .remove := by
  obtain ⟨removed, done, rfl⟩ := Option.map_eq_some_iff.mp stepped
  simp only [channelStep, removeChannel] at done
  by_cases added : (poller.channel c).index = .kAdded
  · rw [if_pos added] at done
    obtain ⟨deleted, updated, rfl⟩ := Option.map_eq_some_iff.mp done
    obtain ⟨channel, opened, interest⟩ := update_del { poller with
        channels_ := Function.update poller.channels_
          (poller.channel c).fd none } deleted c tracked.opened updated
    simp only [mark, setIndex, setChannel, channel, opened, interest, settled, settledInterest,
      added]
    simp
  · rw [if_neg added] at done
    cases done
    simp [mark, setIndex, setChannel, settled, settledInterest, added]

theorem settled_of_mask (channel : Channel) (op : ChannelOp) (notRemove : op ≠ .remove) :
    settled channel op =
      { channel with
        events := nextEvents channel.events op
        index := if channel.index = .kAdded ∧ nextEvents channel.events op = kNoneEvent then
          .kDeleted else .kAdded } := by
  cases op with
  | remove => exact absurd rfl notRemove
  | _ => rfl

theorem mask_effect (poller next : Poller C) (c : C) (op : ChannelOp) (tracked : Tracked poller)
    (notRemove : op ≠ .remove) (stepped : step poller (.call c op) = some next) :
    next.channel = Function.update poller.channel c (settled (poller.channel c) op) ∧
      next.opened = poller.opened ∧ next.interest = settledInterest poller c op ∧
      ((settled (poller.channel c) op).index = .kAdded →
        poller.opened (poller.channel c).fd = true) := by
  obtain ⟨updated, done, rfl⟩ := Option.map_eq_some_iff.mp stepped
  have shape : channelStep poller c op =
      updateChannel (setEvents poller c (nextEvents (poller.channel c).events op)) c := by
    cases op with
    | remove => exact absurd rfl notRemove
    | _ => rfl
  have set : (setEvents poller c (nextEvents (poller.channel c).events op)).channel c =
      { poller.channel c with events := nextEvents (poller.channel c).events op } := by
    simp [setEvents, setChannel]
  rw [shape] at done
  simp only [settledInterest, settled_of_mask _ op notRemove, notRemove, false_and, if_false]
  generalize nextEvents (poller.channel c).events op = events at done set
  simp only [updateChannel, set, isNoneEvent, beq_iff_eq] at done
  cases index : (poller.channel c).index with
  | kNew =>
      simp only [index, true_or, if_true] at done
      obtain ⟨channel, opened, open_, interest⟩ := update_put _ updated .add c (by decide) done
      simp only [setIndex, setEvents, setChannel,
        Function.update_self] at channel opened open_ interest
      simp [mark, channel, opened, interest, open_]
  | kDeleted =>
      simp only [index, or_true, reduceCtorEq, if_true, if_false] at done
      obtain ⟨channel, opened, open_, interest⟩ := update_put _ updated .add c (by decide) done
      simp only [setIndex, setEvents, setChannel,
        Function.update_self] at channel opened open_ interest
      simp [mark, channel, opened, interest, open_]
  | kAdded =>
      simp only [index, reduceCtorEq, or_self, if_false] at done
      by_cases empty : events = kNoneEvent
      · rw [if_pos empty] at done
        obtain ⟨deleted, deletes, rfl⟩ := Option.map_eq_some_iff.mp done
        obtain ⟨channel, opened, interest⟩ :=
          update_del (setEvents poller c events) deleted c tracked.opened deletes
        simp only [setEvents, setChannel, Function.update_self] at channel opened interest
        simp [mark, setIndex, setChannel, channel, opened, interest, empty]
      · rw [if_neg empty] at done
        obtain ⟨channel, opened, open_, interest⟩ := update_put _ updated .mod c (by decide) done
        simp only [setEvents, setChannel, Function.update_self] at channel opened open_ interest
        simp [mark, channel, opened, interest, index, empty, open_]

/-! The entries over a step. -/

theorem call_tracked (poller next : Poller C) (c : C) (op : ChannelOp) (tracked : Tracked poller)
    (channel : next.channel = Function.update poller.channel c (settled (poller.channel c) op))
    (opened : next.opened = poller.opened) (interest : next.interest = settledInterest poller c op)
    (openFd : op ≠ .remove → (settled (poller.channel c) op).index = .kAdded →
      poller.opened (poller.channel c).fd = true) : Tracked next := by
  -- an entry elsewhere is that of another channel, since a channel's entry stands at its own fd
  have elsewhere : ∀ fd event, poller.interest fd = some event →
      (fd ≠ (poller.channel c).fd ∨ (poller.channel c).index ≠ .kAdded) → event.ptr ≠ c := by
    rintro fd event found apart rfl
    obtain ⟨same, added, _⟩ := tracked.entry fd event found
    obtain away | absent := apart
    · exact away same.symm
    · exact absent added
  have both : ∀ fd event, next.interest fd = some event → next.opened fd = true ∧
      (next.channel event.ptr).fd = fd ∧ (next.channel event.ptr).index = .kAdded ∧
        (next.channel event.ptr).events = event.events := by
    intro fd event found
    rw [channel, opened]
    rw [interest, settledInterest] at found
    split at found
    · rename_i absent
      have other := elsewhere fd event found (.inr absent.2)
      rw [Function.update_of_ne other]
      exact ⟨tracked.opened fd event found, tracked.entry fd event found⟩
    · rename_i written
      by_cases here : fd = (poller.channel c).fd
      · subst here
        rw [Function.update_self] at found
        split at found
        · rename_i added
          cases found
          have notRemove : op ≠ .remove := by
            rintro rfl
            cases added
          rw [Function.update_self]
          exact ⟨openFd notRemove added, settled_fd _ op, added, rfl⟩
        · cases found
      · rw [Function.update_of_ne here] at found
        have other := elsewhere fd event found (.inl here)
        rw [Function.update_of_ne other]
        exact ⟨tracked.opened fd event found, tracked.entry fd event found⟩
  exact ⟨fun fd event found => (both fd event found).1,
    fun fd event found => (both fd event found).2⟩

theorem step_tracked (poller next : Poller C) (event : Event C) (tracked : Tracked poller)
    (stepped : step poller event = some next) : Tracked next := by
  cases event with
  | call c op =>
      by_cases remove : op = .remove
      · subst remove
        obtain ⟨channel, opened, interest⟩ := remove_effect poller next c tracked stepped
        exact call_tracked poller next c .remove tracked channel opened interest fun removes =>
          absurd rfl removes
      · obtain ⟨channel, opened, interest, openFd⟩ :=
          mask_effect poller next c op tracked remove stepped
        exact call_tracked poller next c op tracked channel opened interest fun _ => openFd
  | openFd fd =>
      cases stepped
      refine ⟨fun other event found => ?_, tracked.entry⟩
      by_cases here : other = fd
      · subst here
        exact Function.update_self _ _ _
      · exact (Function.update_of_ne here _ _).trans (tracked.opened other event found)
  | closeFd fd =>
      cases stepped
      -- the kernel drops the entry of a closed fd
      have kept : ∀ other event, Function.update poller.interest fd none other = some event →
          other ≠ fd ∧ poller.interest other = some event := by
        intro other event found
        by_cases here : other = fd
        · subst here
          rw [Function.update_self] at found
          cases found
        · rw [Function.update_of_ne here] at found
          exact ⟨here, found⟩
      refine ⟨fun other event found => ?_,
        fun other event found => tracked.entry other event (kept other event found).2⟩
      obtain ⟨here, old⟩ := kept other event found
      exact (Function.update_of_ne here _ _).trans (tracked.opened other event old)

omit [DecidableEq C] in
/-- Only the entry that the operation writes can have an empty mask. -/
theorem settledInterest_masks (poller : Poller C) (c : C) (op : ChannelOp)
    (masks : ∀ fd event, poller.interest fd = some event → event.events ≠ kNoneEvent) :
    LeavesSome poller (.call c op) ↔
      ∀ fd event, settledInterest poller c op fd = some event → event.events ≠ kNoneEvent := by
  by_cases remove : op = .remove
  · subst remove
    refine iff_of_true (.inl rfl) fun fd event found => ?_
    unfold settledInterest at found
    split at found
    · exact masks fd event found
    · by_cases here : fd = (poller.channel c).fd
      · subst here
        simp [settled] at found
      · rw [Function.update_of_ne here] at found
        exact masks fd event found
  · simp only [LeavesSome, settledInterest, settled_of_mask _ op remove, remove, false_and,
      false_or, if_false]
    constructor
    · intro leaves fd event found
      by_cases here : fd = (poller.channel c).fd
      · subst here
        rw [Function.update_self] at found
        by_cases leavesNone : (poller.channel c).index = .kAdded ∧
          nextEvents (poller.channel c).events op = kNoneEvent
        · rw [if_pos leavesNone] at found
          cases found
        · rw [if_neg leavesNone] at found
          cases found
          exact fun empty => leaves.elim (fun added => leavesNone ⟨added, empty⟩) fun some_ =>
            some_ empty
      · rw [Function.update_of_ne here] at found
        exact masks fd event found
    · -- the write of the operation itself has the empty mask: not added, so it is an ADD
      intro written
      by_contra fails
      obtain ⟨absent, empty⟩ := not_or.mp fails
      refine written (poller.channel c).fd ⟨nextEvents (poller.channel c).events op, c⟩ ?_
        (not_not.mp empty)
      rw [Function.update_self, if_pos (by simp [absent])]

theorem step_notPolled (before after : Poller C) (event : Event C) (tracked : Tracked before)
    (notPolled : NotPolled before) (stepped : step before event = some after) :
    LeavesSome before event ↔ NotPolled after := by
  have masks := (notPolled_iff before tracked).mp notPolled
  rw [notPolled_iff after (step_tracked before after event tracked stepped)]
  cases event with
  | call c op =>
      rw [settledInterest_masks before c op masks]
      by_cases remove : op = .remove
      · subst remove
        rw [(remove_effect before after c tracked stepped).2.2]
      · rw [(mask_effect before after c op tracked remove stepped).2.2.1]
  | openFd fd =>
      cases stepped
      exact iff_of_true trivial masks
  | closeFd fd =>
      cases stepped
      refine iff_of_true trivial fun other event found => ?_
      by_cases here : other = fd
      · subst here
        simp at found
      · simp only [Function.update_of_ne here] at found
        exact masks other event found

/-- Over every run of a new loop: no state has a channel without interests in the interest
set just when no call puts one there. -/
theorem no_empty_interest_polled_iff (start poller : Poller C) (fresh : Fresh start)
    (events : List (Event C))
    (ran : Transition.run step start events = some poller) :
    (∀ earlier later reached, events = earlier ++ later →
      Transition.run step start earlier = some reached →
      ∀ c, isNoneEvent (reached.channel c) = true → ∀ fd event, reached.interest fd = some event →
        event.ptr ≠ c) ↔
      Transition.Guarded step LeavesSome start events := by
  have first : NotPolled start := fun _ _ fd event found => by simp [fresh.interest] at found
  exact Transition.always_iff_guarded step LeavesSome Tracked NotPolled
    (fun before event after tracked stepped => step_tracked before after event tracked stepped)
    (fun before event after tracked notPolled stepped =>
      step_notPolled before after event tracked notPolled stepped)
    start poller events (fresh_tracked start fresh) first ran

theorem shared_fresh : Fresh sharedFd :=
    ⟨fun _ => rfl, fun _ => rfl, fun _ => rfl, fun _ => rfl, rfl⟩

/-- Enabled before it is disabled, and removed after that. -/
theorem no_empty_interest_polled_iff_disabled :
    ∃ poller, Transition.run step sharedFd
        [.call true .enableReading, .call true .disableAll, .call true .remove] = some poller ∧
      ∀ earlier later reached,
        [Event.call true .enableReading, .call true .disableAll, .call true .remove] = earlier ++
          later →
        Transition.run step sharedFd earlier = some reached →
        ∀ c, isNoneEvent (reached.channel c) = true →
          ∀ fd event, reached.interest fd = some event → event.ptr ≠ c :=
  ⟨_, rfl, (no_empty_interest_polled_iff sharedFd _ shared_fresh
    [.call true .enableReading, .call true .disableAll, .call true .remove] rfl).mpr (by decide)⟩

/-- The destructor of an Acceptor that never listened: disableAll comes first, and adds. -/
theorem empty_interest_polled :
    ¬ ∀ (start poller : Poller Bool) (events : List (Event Bool)), Fresh start →
      Transition.run step start events = some poller →
      ∀ c, isNoneEvent (poller.channel c) = true → ∀ fd event, poller.interest fd = some event →
        event.ptr ≠ c := by
  intro always
  exact always sharedFd _ [.call true .disableAll] shared_fresh rfl true (by decide) 5
    ⟨kNoneEvent, true⟩ (by decide) rfl

end MuduoChat.EmptyInterest
