import MuduoChat.ConnectionThreads

/-!
The order of a connection's states, and its channel after connectDestroyed. The
code keeps the order unless shutdown() stores kDisconnecting over kDisconnected,
and leaves the channel alone after its removal unless connectDestroyed, meeting
kDisconnecting, overtakes a send() whose data is still on its way to the loop, or
comes between the poll that has reported an event of the channel and the handling
of this event. In every run without these steps state_ only moves forward and a
removed channel is never registered again.
-/

namespace MuduoChat.DisconnectFinal
open EPollPoller Interleaving ConnectionThreads
open ConnectionOutput (StateE WriteAnswer TcpConnection OnLoop)

def rank : StateE → Nat
  | .kConnecting => 0
  | .kConnected => 1
  | .kDisconnecting => 2
  | .kDisconnected => 3

variable {C : Type} [DecidableEq C]

def queuesData : Op → Bool
  | .queueInLoop (.sendInLoop _) => true
  | _ => false

/-- No data of an earlier send() can reach sendInLoop any more. -/
def NoSendUnderWay (pool : Threads C) (thread : Nat) : Prop :=
  (∀ functor ∈ pool.shared.functors ++ pool.shared.pendingFunctors_, functor = .shutdownInLoop) ∧
    ∀ entry ∈ pool.others thread, entry.2.head.any queuesData = false

omit [DecidableEq C] in
instance (pool : Threads C) (thread : Nat) : Decidable (NoSendUnderWay pool thread) :=
  inferInstanceAs (Decidable (_ ∧ _))

/-- shutdown() does not store over kDisconnected, a connection that is destroyed
while kDisconnecting has no send() under way, and one that is destroyed has no event
of the poll left to handle. -/
def Orderly (pool : Threads C) : Action Job WriteAnswer → Prop
  | .spawn _ => True
  | .step thread _ =>
      match pool.aboutTo thread with
      | some (_, .setState .kDisconnecting) => pool.shared.conn.state_ ≠ .kDisconnected
      | some (_, .channel .remove) =>
          (pool.shared.conn.state_ = .kDisconnecting → NoSendUnderWay pool thread) ∧
            pool.shared.reported = none
      | _ => True

instance (pool : Threads C) (action : Action Job WriteAnswer) :
    Decidable (Orderly pool action) := by
  induction action using Interleaving.Action.casesOn with
  | spawn job => exact isTrue trivial
  | step thread answer =>
      dsimp only [Orderly]
      generalize pool.aboutTo thread = next
      induction next using nextCases with
      | finished => exact isTrue trivial
      | about job op =>
          induction op using Op.casesOn with
          | setState state => induction state using StateE.casesOn <;> (dsimp only; infer_instance)
          | channel op => induction op using ChannelOp.casesOn <;> (dsimp only; infer_instance)
          | _ => exact isTrue trivial

/-! What a thread knows from the reads it has made. -/

inductive Stage where
  | idle
  | tested
  | sending
  | begun
  | queuedSend
  | writing
  | fresh
  | live
  | condemned
  | ended
  deriving DecidableEq

structure Mark where
  active : Bool
  stage : Stage

/-- The jobs that read state_, and where. -/
def loads : Job → Stage → Prop
  | .send inLoop _, stage => stage = .idle ∨ inLoop = true ∧ stage = .writing
  | .shutdown _, stage => stage = .idle
  | .connectDestroyed, stage => stage = .begun
  | .handleEvent _ _, stage => stage = .live
  | .functor (.sendInLoop _), stage => stage = .queuedSend
  | _, _ => False

def takes : Stage → Op → Prop
  | .idle, op => op = .queueInLoop .shutdownInLoop ∨ op = .shutdownInLoop ∨ op = .leave
  | .tested, op => op = .setState .kDisconnecting
  | .sending, op => ∃ data, op = .queueInLoop (.sendInLoop data)
  | .writing, op => ∃ data, op = .sendOpen data
  | .fresh, op => op = .setState .kConnected
  | .live, op => op = .drain ∨ op = .shutdownInLoop ∨ op = .leave ∨ op = .setState .kDisconnected ∨
      op = .channel .enableReading ∨ op = .channel .disableAll
  | .condemned, op => op = .channel .disableAll ∨ op = .channel .remove
  | .ended, op => op = .channel .remove
  | _, _ => False

def afterLoad : Job → Stage → StateE → Stage
  | .send false _, _, state => if state = .kConnected then .sending else .idle
  | .send true _, .writing, state => if state = .kDisconnected then .idle else .writing
  | .send true _, _, state => if state = .kConnected then .writing else .idle
  | .shutdown _, _, state => if state = .kConnected then .tested else .idle
  | .connectDestroyed, _, state => if state = .kConnected then .live else .ended
  | .functor _, _, state => if state = .kDisconnected then .idle else .writing
  | _, stage, _ => stage

def nextStage (job : Job) (stage : Stage) : (op : Op) → Res op → Stage
  | .loadState, state => afterLoad job stage state
  | .setState .kDisconnected, _ => if job = .connectDestroyed then .condemned else .live
  | .setState .kDisconnecting, _ => .idle
  | .setState _, _ => .live
  | .channel .remove, _ => .idle
  | .channel _, _ => stage
  | .drain, _ => stage
  | .shutdownInLoop, _ => stage
  | _, _ => .idle

def monitor (job : Job) : Monitor Op Res Mark where
  allowed mark op := ((op = .loadState ∧ loads job mark.stage) ∨ takes mark.stage op) ∧
    (op = .leave → onLoop job = true) ∧ (onLoop job = true → mark.active = true)
  after mark op result :=
    { active := mark.active && decide (op ≠ .leave), stage := nextStage job mark.stage op result }

def start (job : Job) : Mark :=
  { active := onLoop job
    stage :=
      match job with
      | .connectEstablished => .fresh
      | .connectDestroyed => .begun
      | .handleEvent _ _ => .live
      | .functor (.sendInLoop _) => .queuedSend
      | _ => .idle }

def final (mark : Mark) : Prop := mark.stage ≠ .sending

@[simp] theorem monitor_allowed (job : Job) (mark : Mark) (op : Op) :
    (monitor job).allowed mark op ↔
    ((op = .loadState ∧ loads job mark.stage) ∨ takes mark.stage op) ∧
      (op = .leave → onLoop job = true) ∧ (onLoop job = true → mark.active = true) := Iff.rfl

@[simp] theorem monitor_after (job : Job) (mark : Mark) (op : Op) (result : Res op) :
    (monitor job).after mark op result =
      { active := mark.active && decide (op ≠ .leave),
        stage := nextStage job mark.stage op result } := rfl

/-- The handlers of an event take nothing for granted but that the channel is there. -/
theorem event_live (revents : Events) (n : Int) :
    Follows (monitor (.handleEvent revents n)) (handleEvent revents n)
      (fun _ mark => mark = { active := true, stage := .live })
        { active := true, stage := .live } := by
  have close : Follows (monitor (.handleEvent revents n)) handleClose
      (fun _ mark => mark = { active := true, stage := .live })
        { active := true, stage := .live } := by
    simp [onLoop, handleClose, setState, channel, loads, takes, nextStage]
  have write : Follows (monitor (.handleEvent revents n)) handleWrite
      (fun _ mark => mark = { active := true, stage := .live })
        { active := true, stage := .live } := by
    simp only [handleWrite, loadState, call_bind, follows_act]
    refine ⟨by simp [onLoop, loads, takes], fun emptied => ?_⟩
    cases emptied with
    | false => simp [nextStage]
    | true =>
        refine ⟨by simp [onLoop, loads, takes, nextStage], fun state => ?_⟩
        cases state <;> simp [onLoop, loads, takes, nextStage, afterLoad]
  have optional : ∀ reported body, Follows (monitor (.handleEvent revents n)) body
      (fun _ mark => mark = { active := true, stage := .live }) { active := true, stage := .live } →
      Follows (monitor (.handleEvent revents n)) (whenever reported body)
        (fun _ mark => mark = { active := true, stage := .live })
          { active := true, stage := .live } := by
    intro reported body follows
    cases reported with
    | false => rfl
    | true => exact follows
  have read : Follows (monitor (.handleEvent revents n)) (handleRead n)
      (fun _ mark => mark = { active := true, stage := .live })
        { active := true, stage := .live } := by
    unfold handleRead
    split
    · exact close
    · rfl
  unfold handleEvent
  rw [follows_bind]
  refine follows_mono _ _ _ _ (fun _ mark closed => ?_) _ (optional _ _ close)
  subst closed
  rw [follows_bind]
  refine follows_mono _ _ _ _ (fun _ mark received => ?_) _ (optional _ _ read)
  subst received
  exact optional _ _ write

/-- Every job keeps to the protocol. -/
theorem program_follows (job : Job) : Tied monitor final (start job) (job, program job) := by
  unfold Tied program whole start
  cases job with
  | send inLoop buf =>
      cases inLoop with
      | false =>
          simp only [onLoop, send, loadState, queueInLoop, call_bind, act_bind, follows_act]
          refine ⟨by simp [onLoop, loads, takes], fun state => ?_⟩
          cases state <;> simp [onLoop, loads, takes, nextStage, afterLoad, final]
      | true =>
          simp only [onLoop, send, sendInLoop, loadState, call_bind, act_bind, follows_act]
          refine ⟨by simp [onLoop, loads, takes], fun state => ?_⟩
          cases state with
          | kConnected =>
              refine ⟨by simp [onLoop, loads, takes, nextStage, afterLoad], fun state => ?_⟩
              cases state <;> simp [onLoop, loads, takes, nextStage, afterLoad, final]
          | _ => simp [onLoop, loads, takes, nextStage, afterLoad, final]
  | shutdown inLoop =>
      simp only [shutdown, loadState, setState, queueInLoop, call_bind, act_bind, follows_act]
      refine ⟨by simp [onLoop, loads, takes], fun state => ?_⟩
      cases inLoop <;> cases state <;> simp [onLoop, loads, takes, nextStage, afterLoad, final]
  | connectEstablished =>
      simp [onLoop, connectEstablished, setState, channel, loads, takes, nextStage, final]
  | connectDestroyed =>
      simp only [connectDestroyed, loadState, setState, channel, call_bind, act_bind, follows_act]
      refine ⟨by simp [onLoop, loads, takes], fun state => ?_⟩
      cases state <;> simp [onLoop, loads, takes, nextStage, afterLoad, final]
  | handleEvent revents n =>
      rw [follows_bind]
      refine follows_mono _ _ _ _ (fun _ mark finished => ?_) _ (event_live revents n)
      subst finished
      simp [onLoop, loads, takes, nextStage, final]
  | poll revents => simp [onLoop, final]
  | swap => simp [onLoop, final]
  | functor task =>
      cases task with
      | sendInLoop data =>
          simp only [onLoop, sendInLoop, loadState, call_bind, act_bind, follows_act]
          refine ⟨by simp [onLoop, loads, takes], fun state => ?_⟩
          cases state <;> simp [onLoop, loads, takes, nextStage, afterLoad, final]
      | shutdownInLoop => simp [onLoop, loads, takes, nextStage, final]

/-! The invariant over the shared state and the marks of all threads. -/

/-- What a stage knows of state_ and of the removal stays true until the thread's
own next operation. -/
def Knows : Stage → StateE → Bool → Prop
  | .tested, state, _ => state ≠ .kConnecting
  | .begun, state, _ => state ≠ .kConnecting
  | .fresh, state, removed => state = .kConnecting ∧ removed = false
  | .writing, _, removed => removed = false
  | .live, _, removed => removed = false
  | .condemned, state, removed => state = .kDisconnected ∧ removed = false
  | .ended, state, _ => state = .kDisconnecting ∨ state = .kDisconnected
  | _, _, _ => True

/-- Stages only the loop thread can be in. -/
def loopOnly : Stage → Bool
  | .idle => false
  | .tested => false
  | .sending => false
  | _ => true

def NoSend (shared : Shared C) (marks : List Mark) : Prop :=
  (∀ functor ∈ shared.functors ++ shared.pendingFunctors_, functor = .shutdownInLoop) ∧
    ∀ mark ∈ marks, mark.stage ≠ .sending ∧ mark.stage ≠ .queuedSend

/-- A removed connection: no longer known to the poller, and nothing left that
would make it known. -/
structure Gone (shared : Shared C) (marks : List Mark) : Prop where
  unreported : shared.reported = none
  index : (shared.conn.poller.channel shared.conn.channel_).index = .kNew
  state : shared.conn.state_ = .kDisconnecting ∨ shared.conn.state_ = .kDisconnected
  noSend : shared.conn.state_ = .kDisconnected ∨ NoSend shared marks

structure Inv (shared : Shared C) (marks : List Mark) : Prop where
  onLoop : OnLoop shared.conn
  single : marks.countP (·.active) ≤ 1
  free : shared.busy = false → ∀ mark ∈ marks, mark.active = false
  inside : ∀ mark ∈ marks, loopOnly mark.stage = true → mark.active = true
  knows : ∀ mark ∈ marks, Knows mark.stage shared.conn.state_ shared.removed
  gone : shared.removed = true → Gone shared marks

/-- What no step takes back. -/
def Forward (before after : Shared C) : Prop :=
  rank before.conn.state_ ≤ rank after.conn.state_ ∧ (before.removed = true → after.removed = true)

omit [DecidableEq C] in
/-- One thread has moved: what is to be checked of the new state. -/
theorem inv_replace (shared after : Shared C) (left right : List Mark) (old new : Mark)
    (inv : Inv shared (left ++ old :: right)) (onLoop : OnLoop after.conn)
    (active : new.active = true → old.active = true)
    (free : after.busy = false → new.active = false ∧
      ∀ mark ∈ left ++ right, mark.active = false)
    (inside : loopOnly new.stage = true → new.active = true)
    (own : Knows new.stage after.conn.state_ after.removed)
    (others : ∀ mark ∈ left ++ right, Knows mark.stage after.conn.state_ after.removed)
    (gone : after.removed = true → Gone after (left ++ new :: right)) :
    Inv after (left ++ new :: right) := by
  refine ⟨onLoop, ?_, ?_, ?_, ?_, gone⟩
  · exact countP_replace (·.active) left right old new inv.single active
  · intro idle
    exact (forall_replace (fun mark => mark.active = false) left right new).mpr (free idle)
  · exact (forall_replace (fun mark => loopOnly mark.stage = true →
      mark.active = true) left right new).mpr
      ⟨inside, ((forall_replace (fun mark => loopOnly mark.stage = true →
        mark.active = true) left right old).mp
        inv.inside).2⟩
  · exact (forall_replace
      (fun mark => Knows mark.stage after.conn.state_ after.removed) left right new).mpr
      ⟨own, others⟩

section Operations
variable (shared : Shared C) (left right : List Mark) (job : Job) (mark : Mark)
  (inv : Inv shared (left ++ mark :: right)) (active : onLoop job = true → mark.active = true)
include inv

omit [DecidableEq C] in
theorem own_knows : Knows mark.stage shared.conn.state_ shared.removed ∧
    ∀ other ∈ left ++ right, Knows other.stage shared.conn.state_ shared.removed :=
  (forall_replace
    (fun other => Knows other.stage shared.conn.state_ shared.removed) left right mark).mp inv.knows

omit [DecidableEq C] in
theorem own_free (idle : shared.busy = false) :
    mark.active = false ∧ ∀ other ∈ left ++ right, other.active = false :=
  (forall_replace (fun other => other.active = false) left right mark).mp (inv.free idle)

omit [DecidableEq C] in
theorem connected_present (connected : shared.conn.state_ = .kConnected) :
    shared.removed = false := by
  by_contra removed
  have state := (inv.gone (by simpa using removed)).state
  simp [connected] at state

omit [DecidableEq C] in
/-- A functor of send() still sees a removed channel only as kDisconnected. -/
theorem queued_present (queued : mark.stage = .queuedSend)
    (alive : shared.conn.state_ ≠ .kDisconnected) :
    shared.removed = false := by
  by_contra removed
  rcases (inv.gone (by simpa using removed)).noSend with finished | ⟨_, nobody⟩
  · exact alive finished
  · exact (nobody mark (by simp)).2 queued

omit [DecidableEq C] in
/-- Stages that forget or keep what they know change nothing for the removal. -/
theorem gone_replace (after : Shared C) (new : Mark)
    (index : (after.conn.poller.channel after.conn.channel_).index =
      (shared.conn.poller.channel shared.conn.channel_).index)
    (state : after.conn.state_ = shared.conn.state_) (removed : after.removed = shared.removed)
    (reported : after.reported = shared.reported)
    (functors : (∀ functor ∈ shared.functors ++ shared.pendingFunctors_,
      functor = .shutdownInLoop) →
      mark.stage ≠ .sending → ∀ functor ∈ after.functors ++ after.pendingFunctors_, functor =
        .shutdownInLoop)
    (sending : new.stage = .sending → shared.conn.state_ = .kConnected)
    (queued : new.stage ≠ .queuedSend)
    (gone : after.removed = true) : Gone after (left ++ new :: right) := by
  rw [removed] at gone
  obtain ⟨unreported, oldIndex, oldState, noSend⟩ := inv.gone gone
  refine ⟨reported.trans unreported, index.trans oldIndex, by rw [state]; exact oldState, ?_⟩
  rw [state]
  rcases noSend with finished | ⟨none_queued, nobody⟩
  · exact Or.inl finished
  · refine Or.inr ⟨functors none_queued (nobody mark (by simp)).1, ?_⟩
    refine (forall_replace (fun other => other.stage ≠ .sending ∧
      other.stage ≠ .queuedSend) left right new).mpr ?_
    refine ⟨⟨fun sends => ?_, queued⟩, ((forall_replace (fun other => other.stage ≠ .sending ∧
      other.stage ≠ .queuedSend) left right mark).mp nobody).2⟩
    simp [sending sends] at oldState

omit [DecidableEq C] in
/-- Operations that leave state_ and the removal as they are. -/
theorem steady_inv (after : Shared C) (op : Op) (onLoop : OnLoop after.conn)
    (state : after.conn.state_ = shared.conn.state_) (removed : after.removed = shared.removed)
    (reported : after.reported = shared.reported)
    (busy : after.busy = (shared.busy && decide (op ≠ .leave)))
    (leaves : op = .leave → mark.active = true)
    (index : shared.removed = true → (after.conn.poller.channel after.conn.channel_).index =
      (shared.conn.poller.channel shared.conn.channel_).index)
    (functors : (∀ functor ∈ shared.functors ++ shared.pendingFunctors_,
      functor = .shutdownInLoop) →
      mark.stage ≠ .sending → ∀ functor ∈ after.functors ++ after.pendingFunctors_, functor =
        .shutdownInLoop)
    (stage : Stage) (kept : stage = .idle ∨
      (stage = mark.stage ∧ op ≠ .leave ∧ stage ≠ .sending ∧ stage ≠ .queuedSend)) :
    Inv after (left ++ { active := mark.active && decide (op ≠ .leave),
                         stage := stage } :: right) := by
  obtain ⟨own, others⟩ := own_knows shared left right mark inv
  have inside := ((forall_replace
    (fun other => loopOnly other.stage = true → other.active = true) left right
    mark).mp inv.inside).1
  refine inv_replace shared after left right mark _ inv onLoop ?_ ?_ ?_ ?_ ?_ ?_
  · simp +contextual
  · intro idle
    by_cases leaving : op = .leave
    · exact ⟨by simp [leaving], countP_alone (·.active) left right mark (leaves leaving) inv.single⟩
    · obtain ⟨quiet, rest⟩ := own_free shared left right mark inv
        (by simpa [busy, leaving] using idle)
      exact ⟨by simp [quiet], rest⟩
  · rcases kept with rfl | ⟨rfl, stays, _, _⟩
    · simp [loopOnly]
    · simpa [stays] using inside
  · rw [state, removed]
    rcases kept with rfl | ⟨rfl, _⟩
    · trivial
    · exact own
  · rw [state, removed]
    exact others
  · intro gone
    refine gone_replace shared left right mark inv after _
      (index (removed ▸ gone)) state removed reported functors
      ?_ ?_ gone
    · rcases kept with rfl | ⟨rfl, _, silent, _⟩
      · simp
      · exact fun sends => absurd sends silent
    · rcases kept with rfl | ⟨rfl, _, _, unqueued⟩
      · simp
      · exact unqueued

omit [DecidableEq C] in
theorem others_quiet (looping : loopOnly mark.stage = true) :
    ∀ other ∈ left ++ right, loopOnly other.stage = false := by
  have inside := (forall_replace
    (fun other => loopOnly other.stage = true → other.active = true) left right
    mark).mp inv.inside
  intro other member
  by_contra runs
  have running := inside.2 other member (by simpa using runs)
  rw [countP_alone (·.active) left right mark (inside.1 looping) inv.single other member] at running
  simp at running

omit [DecidableEq C] in
/-- A write of state_, where the state before it is the one the writer expects. -/
theorem set_inv (state : StateE) (stage : Stage)
    (writes : (mark.stage = .tested ∧ state = .kDisconnecting ∧ stage = .idle ∧
        shared.conn.state_ ≠ .kDisconnected) ∨
      (mark.stage = .fresh ∧ state = .kConnected ∧ stage = .live) ∨
      (mark.stage = .live ∧ state = .kDisconnected ∧ (stage = .live ∨ stage = .condemned))) :
    Inv { shared with conn := { shared.conn with state_ := state } }
        (left ++ { mark with stage := stage } :: right) ∧
      rank shared.conn.state_ ≤ rank state := by
  obtain ⟨own, others⟩ := own_knows shared left right mark inv
  have quiet := others_quiet shared left right mark inv
  have inside := ((forall_replace
    (fun other => loopOnly other.stage = true → other.active = true) left right
    mark).mp inv.inside).1
  have placed : OnLoop { shared.conn with state_ := state } :=
    ⟨inv.onLoop.1, inv.onLoop.2, inv.onLoop.3⟩
  rcases writes with ⟨here, rfl, rfl, alive⟩ | ⟨here, rfl, rfl⟩ | ⟨here, rfl, live⟩
  · -- shutdown(): the others can be in the middle of anything but of the first or the last write
    simp only [here, Knows] at own
    constructor
    · refine inv_replace shared _ left right mark _ inv placed id
        (fun idle => own_free shared left right mark inv idle) (by simp [loopOnly]) trivial ?_ ?_
      · intro other member
        have known := others other member
        revert known
        cases other.stage <;> simp [Knows, own, alive]
      · intro removed
        obtain ⟨unreported, index, _, noSend⟩ := inv.gone removed
        refine ⟨unreported, index, Or.inl rfl, Or.inr ?_⟩
        obtain ⟨unqueued, nobody⟩ := noSend.resolve_left alive
        exact ⟨unqueued, (forall_replace
          (fun other => other.stage ≠ .sending ∧ other.stage ≠ .queuedSend) left
          right _).mpr ⟨by simp, ((forall_replace (fun other => other.stage ≠ .sending ∧
            other.stage ≠ .queuedSend) left right mark).mp nobody).2⟩⟩
    · revert alive
      cases shared.conn.state_ <;> simp [rank]
  · simp only [here, Knows] at own
    constructor
    · refine inv_replace shared _ left right mark _ inv placed id
        (fun idle => own_free shared left right mark inv idle)
          (fun _ => inside (by simp [here, loopOnly]))
        own.2 ?_ (by simp [own.2])
      intro other member
      have silent := quiet (by simp [here, loopOnly]) other member
      revert silent
      cases other.stage <;> simp [Knows, loopOnly]
    · simp [own.1, rank]
  · simp only [here, Knows] at own
    constructor
    · refine inv_replace shared _ left right mark _ inv placed id
        (fun idle => own_free shared left right mark inv idle)
          (fun _ => inside (by simp [here, loopOnly]))
        ?_ ?_ (by simp [own])
      · rcases live with rfl | rfl <;> simp [Knows, own]
      · intro other member
        have silent := quiet (by simp [here, loopOnly]) other member
        revert silent
        cases other.stage <;> simp [Knows, loopOnly]
    · cases shared.conn.state_ <;> simp [rank]

omit [DecidableEq C] in
/-- channel_->remove(): from here on the connection is gone. -/
theorem remove_inv (conn : TcpConnection C)
    (removes : mark.stage = .condemned ∨ mark.stage = .ended)
    (onLoop : OnLoop conn) (state : conn.state_ = shared.conn.state_)
    (index : (conn.poller.channel conn.channel_).index = .kNew)
    (unreported : shared.reported = none)
    (alone : shared.conn.state_ = .kDisconnecting →
      (∀ functor ∈ shared.functors ++ shared.pendingFunctors_, functor = .shutdownInLoop) ∧
        ∀ other ∈ left ++ right, other.stage ≠ .sending) :
    Inv { shared with conn := conn, removed := true }
      (left ++ { mark with stage := .idle } :: right) := by
  obtain ⟨own, others⟩ := own_knows shared left right mark inv
  have quiet :=
    others_quiet shared left right mark inv
      (by rcases removes with here | here <;> simp [here, loopOnly])
  have closing : shared.conn.state_ = .kDisconnecting ∨ shared.conn.state_ = .kDisconnected := by
    rcases removes with here | here
    · simp only [here, Knows] at own
      exact Or.inr own.1
    · simpa only [here, Knows] using own
  refine inv_replace shared _ left right mark _ inv onLoop id
    (fun idle => own_free shared left right mark inv idle) (by simp [loopOnly]) trivial ?_ ?_
  · intro other member
    have silent := quiet other member
    have known := others other member
    rw [state]
    revert silent known
    cases other.stage <;> simp [Knows, loopOnly]
  · intro _
    refine ⟨unreported, index, by rw [state]; exact closing, ?_⟩
    rw [state]
    rcases closing with disconnecting | disconnected
    · obtain ⟨unqueued, nobody⟩ := alone disconnecting
      refine Or.inr ⟨unqueued, (forall_replace
        (fun other => other.stage ≠ .sending ∧ other.stage ≠ .queuedSend) left
        right _).mpr ⟨by simp, fun other member => ⟨nobody other member, fun queued => ?_⟩⟩⟩
      have silent := quiet other member
      simp [queued, loopOnly] at silent
    · exact Or.inl disconnected

include active

omit [DecidableEq C] in
theorem load_inv (loaded : loads job mark.stage) :
    Inv shared (left ++ { active := mark.active
                          stage := afterLoad job mark.stage shared.conn.state_ } :: right) := by
  obtain ⟨own, others⟩ := own_knows shared left right mark inv
  have connected := connected_present shared left right mark inv
  have queued := queued_present shared left right mark inv
  have stages : (loopOnly (afterLoad job mark.stage shared.conn.state_) = true →
      mark.active = true) ∧
      Knows (afterLoad job mark.stage shared.conn.state_) shared.conn.state_ shared.removed ∧
      (afterLoad job mark.stage shared.conn.state_ = .sending → shared.conn.state_ = .kConnected) ∧
      afterLoad job mark.stage shared.conn.state_ ≠ .queuedSend := by
    obtain ⟨markActive, stage⟩ := mark
    revert own connected queued active loaded
    generalize shared.conn.state_ = state
    generalize shared.removed = removed
    cases job with
    | send inLoop buf =>
        cases inLoop <;> cases stage <;> cases state <;>
          simp +contextual [loads, afterLoad, Knows, loopOnly, onLoop]
    | shutdown inLoop =>
        cases stage <;> cases state <;> simp +contextual [loads, afterLoad, Knows, loopOnly]
    | connectDestroyed =>
        cases stage <;> cases state <;> simp +contextual [loads, afterLoad, Knows, loopOnly, onLoop]
    | handleEvent revents n =>
        cases stage <;> cases state <;> simp +contextual [loads, afterLoad, Knows, loopOnly, onLoop]
    | functor task =>
        cases task <;> cases stage <;> cases state <;>
          simp +contextual [loads, afterLoad, Knows, loopOnly, onLoop]
    | _ => cases stage <;> simp [loads]
  exact inv_replace shared shared left right mark _ inv inv.onLoop id
    (fun idle => own_free shared left right mark inv idle) stages.1 stages.2.1 others
    (gone_replace shared left right mark inv shared _ rfl rfl rfl rfl
      (fun none_queued _ => none_queued)
      stages.2.2.1 stages.2.2.2)

end Operations

theorem loads_sending (job : Job) (loading : loads job .sending) : False := by
  unfold loads at loading
  split at loading <;> simp_all

/-- The operation a thread may take, by operation. -/
theorem takes_load (stage : Stage) (taken : takes stage .loadState) : False := by
  cases stage <;> simp [takes] at taken

theorem takes_set (stage : Stage) (state : StateE) (taken : takes stage (.setState state)) :
    (stage = .tested ∧ state = .kDisconnecting) ∨ (stage = .fresh ∧ state = .kConnected) ∨
      (stage = .live ∧ state = .kDisconnected) := by
  cases stage <;> simp_all [takes]

theorem takes_channel (stage : Stage) (op : ChannelOp) (taken : takes stage (.channel op)) :
    (op ≠ .remove ∧ (stage = .live ∨ stage = .condemned)) ∨
      (op = .remove ∧ (stage = .condemned ∨ stage = .ended)) := by
  cases stage <;> simp_all [takes] <;> grind

section Cases
variable (shared : Shared C) (left right : List Mark) (job : Job) (mark : Mark)
  (inv : Inv shared (left ++ mark :: right))
include inv

omit [DecidableEq C] in
theorem own_present (inside : mark.stage = .writing ∨ mark.stage = .live ∨
    mark.stage = .condemned) :
    shared.removed = false := by
  have own := (own_knows shared left right mark inv).1
  rcases inside with here | here | here <;> simp only [here, Knows] at own
  · exact own
  · exact own
  · exact own.2

omit [DecidableEq C] in
theorem queue_inv (functor : Functor) (taken : takes mark.stage (.queueInLoop functor)) :
    Inv { shared with pendingFunctors_ := shared.pendingFunctors_ ++ [functor] }
      (left ++ (monitor job).after mark (.queueInLoop functor) () :: right) := by
  rw [monitor_after]
  refine steady_inv shared left right mark inv
    { shared with pendingFunctors_ := shared.pendingFunctors_ ++ [functor] }
    (.queueInLoop functor) inv.onLoop
    rfl rfl rfl (by simp) (by simp) (fun _ => rfl) ?_ _ (Or.inl rfl)
  -- with no sender left, the only functor still to come is a shutdown
  intro none_queued silent other member
  have task : functor = .shutdownInLoop := by
    cases here : mark.stage <;> simp_all [takes]
  simp only [List.mem_append, List.mem_singleton] at member
  rcases member with old | old | new
  · exact none_queued other (by simp [old])
  · exact none_queued other (by simp [old])
  · exact new.trans task

omit [DecidableEq C] in
/-- The operations of a stage that keeps the channel where it is. -/
theorem channel_inv (op : ChannelOp) (conn : TcpConnection C) (result : Unit) (other : op ≠ .remove)
    (here : mark.stage = .live ∨ mark.stage = .condemned) (placed : OnLoop conn)
    (state : conn.state_ = shared.conn.state_) :
    Inv { shared with conn := conn, removed := shared.removed || decide (op = .remove) }
      (left ++ (monitor job).after mark (.channel op) result :: right) := by
  rw [monitor_after]
  have present := own_present shared left right mark inv (.inr here)
  have same : nextStage job mark.stage (.channel op) result = mark.stage := by
    cases op <;> first | rfl | exact absurd rfl other
  refine steady_inv shared left right mark inv
    { shared with conn := conn, removed := shared.removed || decide (op = .remove) }
    (.channel op) placed state
    (by simp [other]) rfl (by simp)
    (by simp) (by simp [present]) (fun none_queued _ => none_queued) _
    (Or.inr ⟨same, by simp, ?_, ?_⟩)
  · rcases here with here | here <;> rw [same, here] <;> simp
  · rcases here with here | here <;> rw [same, here] <;> simp

omit [DecidableEq C] in
theorem send_inv (data : ByteBuffer.Bytes) (conn : TcpConnection C)
    (taken : takes mark.stage (.sendOpen data)) (placed : OnLoop conn)
    (state : conn.state_ = shared.conn.state_) :
    Inv { shared with conn := conn }
      (left ++ (monitor job).after mark (.sendOpen data) () :: right) := by
  rw [monitor_after]
  have here : mark.stage = .writing := by cases stage : mark.stage <;> simp_all [takes]
  have present := own_present shared left right mark inv (.inl here)
  exact steady_inv shared left right mark inv { shared with conn := conn }
    (.sendOpen data) placed state rfl rfl
    (by simp) (by simp) (by simp [present]) (fun none_queued _ => none_queued) _ (Or.inl rfl)

omit [DecidableEq C] in
theorem drain_inv (conn : TcpConnection C) (result : Res .drain) (taken : takes mark.stage .drain)
    (placed : OnLoop conn)
    (state : conn.state_ = shared.conn.state_) :
    Inv { shared with conn := conn } (left ++ (monitor job).after mark .drain result :: right) := by
  rw [monitor_after]
  have here : mark.stage = .live := by cases stage : mark.stage <;> simp_all [takes]
  have present := own_present shared left right mark inv (.inr (.inl here))
  exact steady_inv shared left right mark inv
    { shared with conn := conn } .drain placed state rfl rfl
    (by simp) (by simp) (by simp [present]) (fun none_queued _ => none_queued) _
    (Or.inr ⟨rfl, by simp, by simp [nextStage, here], by simp [nextStage, here]⟩)

omit [DecidableEq C] in
/-- All that shutdownInLoop can change is the write side of the socket. -/
theorem shutdown_inv (taken : takes mark.stage .shutdownInLoop) :
    Inv { shared with conn := ConnectionOutput.shutdownInLoop shared.conn }
      (left ++ (monitor job).after mark .shutdownInLoop () :: right) ∧
      (ConnectionOutput.shutdownInLoop shared.conn).state_ = shared.conn.state_ := by
  rw [monitor_after]
  have here : mark.stage = .idle ∨ mark.stage = .live := by
    cases stage : mark.stage <;> simp_all [takes]
  have same : ∃ closed, ConnectionOutput.shutdownInLoop shared.conn =
      { shared.conn with halfClosed := closed } := by
    unfold ConnectionOutput.shutdownInLoop
    split <;> exact ⟨_, rfl⟩
  obtain ⟨closed, same⟩ := same
  rw [same]
  refine ⟨steady_inv shared left right mark inv
    { shared with conn := { shared.conn with halfClosed := closed } } .shutdownInLoop
    ⟨inv.onLoop.1, inv.onLoop.2, inv.onLoop.3⟩ rfl rfl rfl (by simp) (by simp) (fun _ => rfl)
    (fun none_queued _ => none_queued) _ (Or.inr ⟨rfl, by simp, ?_, ?_⟩), rfl⟩
  · rcases here with here | here <;> simp [nextStage, here]
  · rcases here with here | here <;> simp [nextStage, here]

end Cases

theorem operation_inv (shared after : Shared C) (left right : List Mark) (job : Job) (mark : Mark)
    (op : Op)
    (answer : WriteAnswer) (result : Res op) (inv : Inv shared (left ++ mark :: right))
    (allowed : (monitor job).allowed mark op)
    (alive : op = .setState .kDisconnecting → shared.conn.state_ ≠ .kDisconnected)
    (unreported : op = .channel .remove → shared.reported = none)
    (alone : op = .channel .remove → shared.conn.state_ = .kDisconnecting →
      (∀ functor ∈ shared.functors ++ shared.pendingFunctors_, functor = .shutdownInLoop) ∧
        ∀ other ∈ left ++ right, other.stage ≠ .sending)
    (performed : perform answer op shared = some (result, after)) :
    Inv after (left ++ (monitor job).after mark op result :: right) ∧ Forward shared after := by
  obtain ⟨taken, leaves, active⟩ := allowed
  cases op with
  | loadState =>
      simp only [perform, Option.some.injEq, Prod.mk.injEq] at performed
      obtain ⟨rfl, rfl⟩ := performed
      have loaded := (taken.resolve_right (takes_load mark.stage)).2
      have moved := load_inv shared left right job mark inv active loaded
      exact ⟨by simpa [monitor_after, nextStage] using moved, Nat.le_refl _, id⟩
  | setState state =>
      simp only [perform, Option.some.injEq, Prod.mk.injEq, true_and] at performed
      subst performed
      -- connectEstablished, shutdown and handleClose (or connectDestroyed) store one state each
      have stages := takes_set mark.stage state (by simpa using taken)
      have moved := set_inv shared left right mark inv state
        (nextStage job mark.stage (.setState state) ())
        (by
          rcases stages with ⟨here, rfl⟩ | ⟨here, rfl⟩ | ⟨here, rfl⟩
          · exact Or.inl ⟨here, rfl, rfl, alive rfl⟩
          · exact Or.inr (Or.inl ⟨here, rfl, rfl⟩)
          · refine Or.inr (Or.inr ⟨here, rfl, ?_⟩)
            simp only [nextStage]
            split
            · exact Or.inr rfl
            · exact Or.inl rfl)
      exact ⟨by simpa [monitor_after] using moved.1, moved.2, id⟩
  | queueInLoop functor =>
      cases performed
      exact ⟨queue_inv shared left right job mark inv functor (by simpa using taken),
        Nat.le_refl _, id⟩
  | channel op =>
      simp only [perform, Option.map_eq_some_iff, Prod.mk.injEq, true_and] at performed
      obtain ⟨conn, called, rfl⟩ := performed
      obtain ⟨placed, state, _, channel⟩ :=
        ConnectionOutput.channel_call_onLoop op shared.conn conn inv.onLoop called
      -- remove ends the connection's life in the poller, every other operation keeps it
      rcases takes_channel mark.stage op (by simpa using taken) with ⟨other, here⟩ | ⟨rfl, here⟩
      · exact ⟨channel_inv shared left right job mark inv op conn result other here placed state,
          by simp [state],
          by simp +contextual⟩
      · have moved := remove_inv shared left right mark inv conn here placed state
          (by rw [channel]; rfl) (unreported rfl)
          (alone rfl)
        exact ⟨by simpa [monitor_after, nextStage] using moved, by simp [state], by simp⟩
  | sendOpen data =>
      simp only [perform, Option.map_eq_some_iff, Prod.mk.injEq, true_and] at performed
      obtain ⟨conn, sent, rfl⟩ := performed
      obtain ⟨placed, state, _⟩ :=
        ConnectionOutput.send_open_onLoop answer data shared.conn conn inv.onLoop sent
      exact ⟨send_inv shared left right job mark inv data conn (by simpa using taken) placed state,
        by simp [state], id⟩
  | drain =>
      simp only [perform, Option.map_eq_some_iff, Prod.mk.injEq] at performed
      obtain ⟨drained, ran, rfl, rfl⟩ := performed
      obtain ⟨placed, state, _⟩ :=
        ConnectionOutput.drain_onLoop answer shared.conn drained inv.onLoop ran
      exact ⟨drain_inv shared left right job mark inv drained.2 _
        (by simpa using taken) placed state, by simp [state], id⟩
  | shutdownInLoop =>
      cases performed
      obtain ⟨kept, state⟩ := shutdown_inv shared left right job mark inv (by simpa using taken)
      exact ⟨kept, by simp [state], id⟩
  | leave =>
      cases performed
      refine ⟨?_, Nat.le_refl _, id⟩
      rw [monitor_after]
      exact steady_inv shared left right mark inv
        { shared with busy := false } .leave inv.onLoop rfl rfl rfl
        (by simp)
        (fun _ => active (leaves rfl)) (fun _ => rfl) (fun none_queued _ => none_queued) _
          (Or.inl rfl)

/-! A job starts. -/

omit [DecidableEq C] in
theorem inv_spawn (shared after : Shared C) (marks : List Mark) (new : Mark)
    (inv : Inv shared marks)
    (same : after.conn = shared.conn) (removed : after.removed = shared.removed)
    (reported : shared.removed = true → after.reported = shared.reported)
    (busy : (new.active = false ∧ after.busy = shared.busy) ∨
      (new.active = true ∧ shared.busy = false ∧ after.busy = true))
    (inside : loopOnly new.stage = true → new.active = true) (silent : new.stage ≠ .sending)
    (own : Knows new.stage shared.conn.state_ shared.removed)
    (tasks : ∀ functor ∈ after.functors ++ after.pendingFunctors_,
      functor ∈ shared.functors ++ shared.pendingFunctors_)
    (queued : new.stage = .queuedSend → ∃ data,
      .sendInLoop data ∈ shared.functors ++ shared.pendingFunctors_) :
    Inv after (marks ++ [new]) := by
  have all := fun property => forall_append_one property marks new
  refine ⟨by rw [same]; exact inv.onLoop, ?_, ?_, all _ inside inv.inside, ?_, ?_⟩
  · refine countP_append_one (·.active) marks new inv.single fun active => ?_
    rcases busy with ⟨quiet, _⟩ | ⟨_, idle, _⟩
    · simp [quiet] at active
    · exact inv.free idle
  · intro idle
    rcases busy with ⟨quiet, kept⟩ | ⟨_, _, taken⟩
    · exact all _ quiet (inv.free (kept ▸ idle))
    · simp [taken] at idle
  · rw [same, removed]
    exact all _ own inv.knows
  · intro gone
    rw [removed] at gone
    obtain ⟨unreported, index, state, noSend⟩ := inv.gone gone
    refine ⟨(reported gone).trans unreported, by rw [same]; exact index, by rw [same]; exact state,
      ?_⟩
    rw [same]
    rcases noSend with finished | ⟨unqueued, nobody⟩
    · exact Or.inl finished
    · refine Or.inr ⟨fun functor member => unqueued functor (tasks functor member), ?_⟩
      refine all (fun mark => mark.stage ≠ .sending ∧ mark.stage ≠ .queuedSend)
        ⟨silent, fun waits => ?_⟩ nobody
      obtain ⟨data, member⟩ := queued waits
      simpa using unqueued _ member

theorem reported_present (shared : Shared C) (marks : List Mark) (inv : Inv shared marks)
    (revents : Events)
    (reported : Reported shared.conn revents) : shared.removed = false := by
  obtain ⟨events, watched, _⟩ := reported
  by_contra removed
  have index := (inv.gone (by simpa using removed)).index
  rw [interest_of_index shared.conn.poller shared.conn.channel_ inv.onLoop.registered
    inv.onLoop.alone, index] at watched
  simp at watched

/-- Of a removed connection the loop finds no event. -/
theorem start_reported (shared entered : Shared C) (marks : List Mark) (job : Job)
    (inv : Inv shared marks) (ran : enter job shared = some entered)
    (gone : shared.removed = true) : entered.reported = shared.reported := by
  cases job with
  | poll revents =>
      simp only [enter] at ran
      split at ran
      · rename_i reported
        have present := reported_present shared marks inv revents reported.1
        simp [present] at gone
      · cases ran
  | handleEvent revents n =>
      simp only [enter] at ran
      split at ran
      · rename_i reported
        rw [(inv.gone gone).unreported] at reported
        cases reported
      · cases ran
  | functor task =>
      simp only [enter] at ran
      split at ran
      · cases ran
      · split at ran <;> cases ran
        rfl
  | send _ _ =>
      cases ran
      rfl
  | shutdown _ =>
      cases ran
      rfl
  | _ =>
      simp only [enter] at ran
      split at ran <;> cases ran
      rfl

/-- What a job takes for granted of the connection is so when it starts. -/
theorem start_knows (shared entered : Shared C) (marks : List Mark) (job : Job)
    (inv : Inv shared marks) (ran : enter job shared = some entered) :
    Knows (start job).stage shared.conn.state_ shared.removed := by
  cases job with
  | connectEstablished =>
      simp only [enter] at ran
      split at ran
      · rename_i fresh
        refine ⟨fresh, ?_⟩
        -- a removed connection is down, so it cannot be established any more
        by_contra removed
        have state := (inv.gone (by simpa using removed)).state
        simp [fresh] at state
      · cases ran
  | connectDestroyed =>
      simp only [enter] at ran
      split at ran
      · cases ran
      · assumption
  | handleEvent revents n =>
      simp only [enter] at ran
      split at ran
      · rename_i reported
        change shared.removed = false
        by_contra removed
        rw [(inv.gone (by simpa using removed)).unreported] at reported
        cases reported
      · cases ran
  | functor task => cases task <;> trivial
  | _ => trivial

/-- A queued send() that starts has been in the queue. -/
theorem start_queued (shared entered : Shared C) (job : Job)
    (ran : enter job shared = some entered) (queued : (start job).stage = .queuedSend) :
    ∃ data, .sendInLoop data ∈ shared.functors ++ shared.pendingFunctors_ := by
  cases job with
  | functor task =>
      cases task with
      | sendInLoop data =>
          simp only [enter] at ran
          cases waiting : shared.functors with
          | nil => simp [waiting] at ran
          | cons next rest =>
              simp only [waiting] at ran
              split at ran
              · rename_i first
                exact ⟨data, by simp [first]⟩
              · cases ran
      | _ => cases queued
  | _ => cases queued

theorem start_loopOnly (job : Job) (inside : loopOnly (start job).stage = true) :
    onLoop job = true := by
  cases job with
  | send _ _ => cases inside
  | shutdown _ => cases inside
  | poll _ => cases inside
  | swap => cases inside
  | _ => rfl

theorem start_silent (job : Job) : (start job).stage ≠ .sending := by
  cases job with
  | functor task => cases task <;> simp [start]
  | _ => simp [start]

theorem spawn_inv (shared after : Shared C) (marks : List Mark) (job : Job) (inv : Inv shared marks)
    (launched : launch job shared = some after) :
    Inv after (marks ++ [start job]) ∧ Forward shared after := by
  obtain ⟨entered, ran, rfl, idle⟩ := launch_entered job shared after launched
  obtain ⟨same, removed, busy, tasks⟩ := enter_frame job shared entered ran
  refine ⟨inv_spawn shared _ marks _ inv same removed
    (start_reported shared entered marks job inv ran) ?_ (start_loopOnly job) (start_silent job) (start_knows shared entered marks job inv ran) tasks
    (start_queued shared entered job ran), ?_⟩
  · cases looping : onLoop job with
    | false => exact Or.inl ⟨looping, by simpa using busy⟩
    | true => exact Or.inr ⟨looping, idle looping, rfl⟩
  · exact ⟨by simp [same], fun gone => removed.trans gone⟩

/-! Whole runs. -/

/-- A new connection on its loop, before any thread has it. -/
structure Created (pool : Threads C) : Prop where
  onLoop : OnLoop pool.shared.conn
  state : pool.shared.conn.state_ = .kConnecting
  present : pool.shared.removed = false
  nobody : pool.threads = []

omit [DecidableEq C] in
/-- A thread in the middle of a send() is about to queue its data. -/
theorem sending_head (marks : List Mark) (entries : List (Job × Prog Op Res Unit))
    (tied : List.Forall₂ (Tied monitor final) marks entries)
    (quiet : ∀ entry ∈ entries, entry.2.head.any queuesData = false)
    (mark : Mark) (member : mark ∈ marks) : mark.stage ≠ .sending := by
  intro sends
  obtain ⟨entry, inside, follows⟩ := tied_thread monitor final marks entries tied mark member
  obtain ⟨op, next, taken, _⟩ := follows_head (monitor entry.1) entry.2 (fun _ => final) mark
    (fun _ finished => finished sends) follows
  rw [sends] at taken
  obtain ⟨data, rfl⟩ := taken.resolve_left fun loading => loads_sending entry.1 loading.2
  have silent := quiet entry inside
  simp [next, queuesData] at silent

def Kept (origin : Shared C) (shared : Shared C) (marks : List Mark) : Prop :=
  Inv shared marks ∧ Forward origin shared

omit [DecidableEq C] in
theorem forward_trans (first second third : Shared C) (before : Forward first second)
    (after : Forward second third) : Forward first third :=
  ⟨Nat.le_trans before.1 after.1, fun removed => after.2 (before.2 removed)⟩

theorem run_kept (origin : Shared C) (pool last : Threads C) (trace : List (Action Job WriteAnswer))
    (orderly : Transition.Guarded threads.step Orderly pool trace)
    (held : Held monitor final (Kept origin) pool)
    (ran : Transition.run threads.step pool trace = some last) :
    Held monitor final (Kept origin) last := by
  refine run_held threads monitor final (Kept origin) Orderly ?_ ?_ pool last trace orderly held ran
  · intro pool marks job shared _ _ kept launched
    obtain ⟨inv, forward⟩ := spawn_inv pool.shared shared marks job kept.1 launched
    exact ⟨start job, program_follows job, inv, forward_trans _ _ _ kept.2 forward⟩
  · intro shared left right before behind mark job op next answer result after tiedLeft tiedRight
      allowed guarded kept performed
    simp only [Orderly, aboutTo_split] at guarded
    obtain ⟨inv, forward⟩ :=
      operation_inv shared after left right job mark op answer result kept.1 allowed
      (by rintro rfl; exact guarded)
      (by
        rintro rfl
        exact guarded.2)
      (by
        rintro rfl disconnecting
        obtain ⟨unqueued, quiet⟩ := guarded.1 disconnecting
        rw [others_split] at quiet
        refine ⟨unqueued, sending_head (left ++ right) (before ++ behind)
          (List.rel_append tiedLeft tiedRight) quiet⟩)
      performed
    exact ⟨inv, forward_trans _ _ _ kept.2 forward⟩

/-- From the earlier to the later state: no way back in the order of states, none
out of kDisconnected, and no registration of a removed channel. -/
def KeepsOrder (middle last : Threads C) : Prop :=
  rank middle.shared.conn.state_ ≤ rank last.shared.conn.state_ ∧
    (middle.shared.conn.state_ = .kDisconnected → last.shared.conn.state_ = .kDisconnected) ∧
    (middle.shared.removed = true →
      (last.shared.conn.poller.channel last.shared.conn.channel_).index = .kNew ∧
        last.shared.conn.poller.interest
          (last.shared.conn.poller.channel last.shared.conn.channel_).fd = none)

/-- In every run from a new connection, in which shutdown() never stores
kDisconnecting over kDisconnected and no connection is destroyed while
kDisconnecting with a send() under way, or with a reported event still to be
handled, any two states keep the order. -/
theorem disconnected_final (pool middle last : Threads C)
    (trace rest : List (Action Job WriteAnswer))
    (created : Created pool) (orderly : Transition.Guarded threads.step Orderly pool
      (trace ++ rest))
    (ran : Transition.run threads.step pool trace = some middle)
    (later : Transition.run threads.step middle rest = some last) : KeepsOrder middle last := by
  obtain ⟨first, second⟩ :=
    Transition.guarded_append threads.step Orderly pool middle trace rest orderly ran
  have begin_held : Held monitor final (Kept pool.shared) pool := by
    refine ⟨[], by rw [created.nobody]; exact List.Forall₂.nil,
      ⟨created.onLoop, by simp, by simp, by simp, by simp, ?_⟩,
      Nat.le_refl _, id⟩
    simp [created.present]
  obtain ⟨marks, tied, inv, _⟩ := run_kept pool.shared pool middle trace first begin_held ran
  obtain ⟨_, _, final_inv, forward⟩ := run_kept middle.shared middle last rest second
    ⟨marks, tied, inv, Nat.le_refl _, id⟩ later
  refine ⟨forward.1, ?_, fun removed => ?_⟩
  · intro disconnected
    have top := forward.1
    rw [disconnected] at top
    revert top
    cases last.shared.conn.state_ <;> simp [rank]
  · have index := (final_inv.gone (forward.2 removed)).index
    refine ⟨index, ?_⟩
    rw [interest_of_index _ _ final_inv.onLoop.registered final_inv.onLoop.alone, index]
    simp

/-- A new connection on fd 7, alone on its loop. -/
def newConnection : Threads Unit where
  shared :=
    { conn :=
        { state_ := .kConnecting
          channel_ := ()
          poller :=
            { channel := fun _ => ⟨7, kNoneEvent, .kNew⟩
              channels_ := fun _ => none
              interest := fun _ => none
              opened := fun fd => fd == 7
              inUse := fun _ => false
              calls := [] }
          outputBuffer_ := ByteBuffer.create ByteBuffer.kInitialSize
          highWaterMark_ := 64 * 1024 * 1024
          writeCompleteCallback_ := false
          highWaterMarkCallback_ := false
          queued := []
          accepted := []
          halfClosed := false }
      reported := none
      pendingFunctors_ := []
      functors := []
      busy := false
      removed := false
      passed := []
      shutdownCalled := false }
  threads := []

theorem newConnection_created : Created newConnection := by
  refine ⟨⟨fresh_registered _ ⟨fun _ => rfl, fun _ => rfl, fun _ => rfl, fun _ => rfl, rfl⟩, rfl,
    ?_⟩, rfl, rfl, rfl⟩
  intro other used
  simp [newConnection] at used

def anyAnswer : WriteAnswer := { ret := -1, errno := .EWOULDBLOCK }

/-- The steps of one thread. -/
def steps (thread count : Nat) : List (Action Job WriteAnswer) :=
    List.replicate count (.step thread anyAnswer)

/-- A connection that is shut down, closed by its peer and destroyed. -/
def ordinaryLife : List (Action Job WriteAnswer) :=
  .spawn .connectEstablished :: steps 0 3 ++ .spawn (.shutdown false) :: steps 1 3 ++
    .spawn (.poll EPOLLHUP) :: .spawn (.handleEvent EPOLLHUP 0) :: steps 3 3

theorem disconnected_final_ordinary :
    ∃ middle last, Transition.run threads.step newConnection ordinaryLife = some middle ∧
      Transition.run threads.step middle (.spawn .connectDestroyed :: steps 4 3) = some last ∧
      middle.shared.conn.state_ = .kDisconnected ∧ last.shared.removed = true ∧
        KeepsOrder middle last := by
  have reached : (Transition.run threads.step newConnection ordinaryLife).map
      (·.shared.conn.state_) =
      some .kDisconnected := by decide +kernel
  obtain ⟨middle, ran, state⟩ := Option.map_eq_some_iff.mp reached
  have ended : (Transition.run threads.step newConnection
      (ordinaryLife ++ .spawn .connectDestroyed :: steps 4 3)).map (·.shared.removed) =
        some true := by decide +kernel
  obtain ⟨last, all, removed⟩ := Option.map_eq_some_iff.mp ended
  rw [Transition.run_append, ran] at all
  exact ⟨middle, last, ran, all, state, removed,
    disconnected_final newConnection middle last ordinaryLife
    (.spawn .connectDestroyed :: steps 4 3) newConnection_created (by decide +kernel) ran all⟩

/-- shutdown() has read kConnected when the peer's close is handled. -/
def closedUnderShutdown : List (Action Job WriteAnswer) :=
  .spawn .connectEstablished :: steps 0 3 ++ .spawn (.shutdown false) :: steps 1 1 ++
    .spawn (.poll EPOLLHUP) :: .spawn (.handleEvent EPOLLHUP 0) :: steps 3 3

/-- The server destroys a connection that is being shut down while the data of a
send() is in the queue. -/
def destroyedUnderSend : List (Action Job WriteAnswer) :=
  .spawn .connectEstablished :: steps 0 3 ++ .spawn (.send false [1]) :: steps 1 2 ++
    .spawn (.shutdown false) :: steps 2 3 ++ .spawn .connectDestroyed :: steps 3 3

/-- The server destroys a connection between the poll that reports the peer's
close and the handling of this event. -/
def destroyedBeforeEvent : List (Action Job WriteAnswer) :=
  .spawn .connectEstablished :: steps 0 3 ++ .spawn
    (.poll EPOLLHUP) :: .spawn .connectDestroyed :: steps 2 5

/-- The first run leaves kDisconnected again, the other two register a removed channel. -/
theorem disconnect_undone :
    (∃ middle last, Transition.run threads.step newConnection closedUnderShutdown = some middle ∧
      Transition.run threads.step middle (steps 1 1) = some last ∧
      middle.shared.conn.state_ = .kDisconnected ∧ last.shared.conn.state_ = .kDisconnecting ∧
      ¬ KeepsOrder middle last) ∧
    (∃ middle last, Transition.run threads.step newConnection destroyedUnderSend = some middle ∧
      Transition.run threads.step middle
        (.spawn .swap :: .spawn (.functor (.sendInLoop [1])) :: steps 5 2) = some last ∧
      middle.shared.removed = true ∧
      (last.shared.conn.poller.channel last.shared.conn.channel_).index = .kAdded ∧
        ¬ KeepsOrder middle last) ∧
    ∃ middle last, Transition.run threads.step newConnection destroyedBeforeEvent = some middle ∧
      Transition.run threads.step middle (.spawn (.handleEvent EPOLLHUP 0) :: steps 3 2) =
        some last ∧
      middle.shared.removed = true ∧
      (last.shared.conn.poller.channel last.shared.conn.channel_).index = .kAdded ∧
        ¬ KeepsOrder middle last := by
  have registers (trace rest : List (Action Job WriteAnswer))
      (reached : (Transition.run threads.step newConnection trace).map (·.shared.removed) =
        some true)
      (back : (Transition.run threads.step newConnection (trace ++ rest)).map
        (fun pool => (pool.shared.conn.poller.channel pool.shared.conn.channel_).index) =
          some .kAdded) :
      ∃ middle last, Transition.run threads.step newConnection trace = some middle ∧
        Transition.run threads.step middle rest = some last ∧ middle.shared.removed = true ∧
        (last.shared.conn.poller.channel last.shared.conn.channel_).index = .kAdded ∧
          ¬ KeepsOrder middle last := by
    obtain ⟨middle, ran, before⟩ := Option.map_eq_some_iff.mp reached
    obtain ⟨last, all, after⟩ := Option.map_eq_some_iff.mp back
    rw [Transition.run_append, ran] at all
    refine ⟨middle, last, ran, all, before, after, fun kept => ?_⟩
    have gone := (kept.2.2 before).1
    rw [after] at gone
    simp at gone
  refine ⟨?_, registers _ _ (by decide +kernel) (by decide +kernel),
    registers _ _ (by decide +kernel) (by decide +kernel)⟩
  · have reached : (Transition.run threads.step newConnection closedUnderShutdown).map
        (·.shared.conn.state_) =
        some .kDisconnected := by decide +kernel
    have left : (Transition.run threads.step newConnection (closedUnderShutdown ++ steps 1 1)).map
        (·.shared.conn.state_) = some .kDisconnecting := by decide +kernel
    obtain ⟨middle, ran, before⟩ := Option.map_eq_some_iff.mp reached
    obtain ⟨last, all, after⟩ := Option.map_eq_some_iff.mp left
    rw [Transition.run_append, ran] at all
    refine ⟨middle, last, ran, all, before, after, fun kept => ?_⟩
    have still := kept.2.1 before
    rw [after] at still
    simp at still

end MuduoChat.DisconnectFinal
