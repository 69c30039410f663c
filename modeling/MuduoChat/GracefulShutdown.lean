import MuduoChat.ConnectionThreads

/-!
One user thread that calls send() some times and then shutdown(), beside the
loop. The half-close comes from shutdownInLoop, or from handleWrite when it
empties outputBuffer_ while kDisconnecting. The second one does not know of data
that still waits in pendingFunctors_. Where it never meets such data, no
half-close happens before the kernel has accepted everything that was sent.
-/

namespace MuduoChat.GracefulShutdown
open ByteBuffer (Bytes contents readableBytes)
open EPollPoller Interleaving ConnectionThreads
open ConnectionOutput (StateE WriteAnswer TcpConnection Healthy Streaming SameState)

variable {C : Type} [DecidableEq C]

def taskData : Functor → Bytes
  | .sendInLoop data => data
  | .shutdownInLoop => []

def queuedData (tasks : List Functor) : Bytes := tasks.flatMap taskData

def isUserCall : Job → Bool
  | .send _ _ => true
  | .shutdown _ => true
  | _ => false

def UserReturned (pool : Threads C) : Prop :=
  ∀ entry ∈ pool.threads, isUserCall entry.1 = true → entry.2.head = none

/-- One user, on the loop or off it, whose calls follow one another and end with
shutdown(); the peer does not close, the server does not destroy the connection
and no write fails. -/
def OneUser (inLoop : Bool) (pool : Threads C) : Action Job WriteAnswer → Prop
  | .spawn (.send caller _) => caller = inLoop ∧ pool.shared.shutdownCalled = false ∧
      UserReturned pool
  | .spawn (.shutdown caller) =>
      caller = inLoop ∧ pool.shared.shutdownCalled = false ∧ UserReturned pool
  | .spawn (.handleEvent revents n) => revents &&& EPOLLHUP = 0 ∧ n ≠ 0
  | .spawn .connectEstablished => False
  | .spawn .connectDestroyed => False
  | .spawn _ => True
  | .step thread answer =>
      match pool.aboutTo thread with
      | some (_, .sendOpen data) => Healthy data.length answer
      | some (_, .drain) => Healthy (readableBytes pool.shared.conn.outputBuffer_) answer
      | _ => True

/-- handleWrite, after it has emptied outputBuffer_, meets kDisconnecting only
when no data waits in the queue. -/
def DrainsLast (pool : Threads C) : Action Job WriteAnswer → Prop
  | .spawn _ => True
  | .step thread _ =>
      match pool.aboutTo thread with
      | some (.handleEvent _ _, .loadState) => pool.shared.conn.state_ = .kDisconnecting →
          queuedData (pool.shared.functors ++ pool.shared.pendingFunctors_) = []
      | _ => True

omit [DecidableEq C] in
instance (pool : Threads C) : Decidable (UserReturned pool) :=
  inferInstanceAs (Decidable (∀ _ ∈ _, _))

omit [DecidableEq C] in
instance (inLoop : Bool) (pool : Threads C) (action : Action Job WriteAnswer) :
    Decidable (OneUser inLoop pool action) := by
  induction action using Interleaving.Action.casesOn with
  | spawn job => induction job using Job.casesOn <;> (dsimp only [OneUser]; infer_instance)
  | step thread answer =>
      dsimp only [OneUser]
      generalize pool.aboutTo thread = next
      induction next using nextCases with
      | finished => exact isTrue trivial
      | about job op =>
          induction op using Op.casesOn <;> (dsimp only; infer_instance)

omit [DecidableEq C] in
instance (pool : Threads C) (action : Action Job WriteAnswer) :
    Decidable (DrainsLast pool action) := by
  induction action using Interleaving.Action.casesOn with
  | spawn job => exact isTrue trivial
  | step thread answer =>
      dsimp only [DrainsLast]
      generalize pool.aboutTo thread = next
      induction next using nextCases with
      | finished => exact isTrue trivial
      | about job op =>
          induction job using Job.casesOn <;> induction op using Op.casesOn <;>
            (dsimp only; infer_instance)

/-! Where the data of a call is, and what its thread does next. -/

inductive Stage where
  | idle
  | opening (inLoop : Bool) (data : Bytes)
  | sending (data : Bytes)
  | writing (data : Bytes)
  | halting (inLoop : Bool)
  | halted (inLoop : Bool)
  | enqueueing
  | closing
  | event
  | drained
  deriving DecidableEq

structure Mark where
  active : Bool
  stage : Stage

def loads : Job → Stage → Prop
  | .send caller _, .opening inLoop _ => caller = inLoop
  | .send true _, .writing _ => True
  | .functor (.sendInLoop _), .writing _ => True
  | .shutdown _, .halting _ => True
  | .handleEvent _ _, .drained => True
  | _, _ => False

def takes : Stage → Op → Prop
  | .idle, op => op = .leave
  | .sending data, op => op = .queueInLoop (.sendInLoop data)
  | .writing data, op => op = .sendOpen data
  | .halted _, op => op = .setState .kDisconnecting
  | .enqueueing, op => op = .queueInLoop .shutdownInLoop
  | .closing, op => op = .shutdownInLoop
  | .event, op => op = .drain ∨ op = .leave
  | _, _ => False

def afterLoad : Stage → StateE → Stage
  | .opening inLoop data, state =>
      if state = .kConnected then (if inLoop then .writing data else .sending data) else .idle
  | .writing data, state => if state = .kDisconnected then .idle else .writing data
  | .halting inLoop, state => if state = .kConnected then .halted inLoop else .idle
  | .drained, state => if state = .kDisconnecting then .closing else .idle
  | stage, _ => stage

def nextStage (stage : Stage) : (op : Op) → Res op → Stage
  | .loadState, state => afterLoad stage state
  | .setState _, _ => if stage = .halted true then .closing else .enqueueing
  | .drain, emptied => if emptied then .drained else .idle
  | _, _ => .idle

def isSender : Stage → Bool
  | .opening _ _ => true
  | .sending _ => true
  | _ => false

def monitor (job : Job) : Monitor Op Res Mark where
  allowed mark op := ((op = .loadState ∧ loads job mark.stage) ∨ takes mark.stage op) ∧
    (op = .leave → onLoop job = true) ∧ (onLoop job = true → mark.active = true) ∧
    (isSender mark.stage = true → isUserCall job = true)
  after mark op result :=
    { active := mark.active && decide (op ≠ .leave), stage := nextStage mark.stage op result }

def start (job : Job) : Mark :=
  { active := onLoop job
    stage :=
      match job with
      | .send inLoop data => .opening inLoop data
      | .shutdown inLoop => .halting inLoop
      | .handleEvent revents _ => if revents &&& EPOLLOUT != 0 then .event else .idle
      | .functor (.sendInLoop data) => .writing data
      | .functor .shutdownInLoop => .closing
      | _ => .idle }

def final (mark : Mark) : Prop := isSender mark.stage = false

@[simp] theorem monitor_allowed (job : Job) (mark : Mark) (op : Op) :
    (monitor job).allowed mark op ↔
    ((op = .loadState ∧ loads job mark.stage) ∨ takes mark.stage op) ∧
      (op = .leave → onLoop job = true) ∧ (onLoop job = true → mark.active = true) ∧
      (isSender mark.stage = true → isUserCall job = true) := Iff.rfl

@[simp] theorem monitor_after (job : Job) (mark : Mark) (op : Op) (result : Res op) :
    (monitor job).after mark op result =
      { active := mark.active && decide (op ≠ .leave), stage := nextStage mark.stage op result } :=
        rfl

/-- An event of a connection that the peer has not closed is at most a handleWrite. -/
theorem event_write (revents : Events) (n : Int) (open_ : revents &&& EPOLLHUP = 0)
    (received : n ≠ 0) :
    handleEvent revents n = whenever (revents &&& EPOLLOUT != 0) handleWrite := by
  have nothing : handleRead n = pure () := if_neg received
  have ignored : ∀ reported, whenever reported (pure ()) = pure () := by
    intro reported
    cases reported <;> rfl
  unfold handleEvent
  rw [nothing, ignored]
  simp [open_, whenever]

theorem program_follows (job : Job) (here : job ≠ .connectEstablished ∧ job ≠ .connectDestroyed)
    (peer : ∀ revents n, job = .handleEvent revents n → revents &&& EPOLLHUP = 0 ∧ n ≠ 0) :
    Tied monitor final (start job) (job, program job) := by
  unfold Tied program whole start
  cases job with
  | send inLoop buf =>
      cases inLoop with
      | false =>
          simp only [onLoop, send, loadState, queueInLoop, call_bind, act_bind, follows_act]
          refine ⟨by simp [onLoop, loads, isUserCall], fun state => ?_⟩
          cases state <;>
            simp [onLoop, isUserCall, isSender, loads, takes, nextStage, afterLoad, final]
      | true =>
          simp only [onLoop, send, sendInLoop, loadState, call_bind, act_bind, follows_act]
          refine ⟨by simp [onLoop, loads, isUserCall], fun state => ?_⟩
          cases state with
          | kConnected =>
              refine ⟨by simp [onLoop, isUserCall, loads, nextStage, afterLoad], fun state => ?_⟩
              cases state <;>
                simp [onLoop, isUserCall, isSender, loads, takes, nextStage, afterLoad, final]
          | _ => simp [onLoop, isUserCall, isSender, loads, takes, nextStage, afterLoad, final]
  | shutdown inLoop =>
      simp only [shutdown, loadState, setState, queueInLoop, call_bind, act_bind, follows_act]
      refine ⟨by simp [onLoop, loads, isSender], fun state => ?_⟩
      cases inLoop <;> cases state <;>
        simp [onLoop, isSender, loads, takes, nextStage, afterLoad, final]
  | connectEstablished => exact absurd rfl here.1
  | connectDestroyed => exact absurd rfl here.2
  | handleEvent revents n =>
      obtain ⟨open_, received⟩ := peer revents n rfl
      simp only [event_write revents n open_ received]
      cases writable : revents &&& EPOLLOUT != 0 with
      | false => simp [whenever, onLoop, isSender, loads, takes, nextStage, final]
      | true =>
          simp only [whenever, if_true, handleWrite, loadState, call_bind, act_bind, follows_act]
          refine ⟨by simp [onLoop, isSender, takes], fun emptied => ?_⟩
          cases emptied with
          | false => simp [onLoop, isSender, loads, takes, nextStage, final]
          | true =>
              refine ⟨by simp [onLoop, isSender, loads, nextStage], fun state => ?_⟩
              cases state <;> simp [onLoop, isSender, loads, takes, nextStage, afterLoad, final]
  | poll revents => simp [onLoop, final, isSender]
  | swap => simp [onLoop, final, isSender]
  | functor task =>
      cases task with
      | sendInLoop data =>
          simp only [onLoop, sendInLoop, loadState, call_bind, act_bind, follows_act]
          refine ⟨by simp [onLoop, isSender, loads], fun state => ?_⟩
          cases state <;> simp [onLoop, isSender, loads, takes, nextStage, afterLoad, final]
      | shutdownInLoop => simp [onLoop, isSender, loads, takes, nextStage, final]

/-! Where all bytes are: taken by the kernel, in outputBuffer_, in the hands of the
loop, in the queue, or in the hands of the user. -/

def loopData : Stage → Bytes
  | .writing data => data
  | _ => []

def userData : Stage → Bytes
  | .opening _ data => data
  | .sending data => data
  | _ => []

def inHand (hold : Stage → Bytes) (marks : List Mark) : Bytes := marks.flatMap fun mark =>
    hold mark.stage

def loopOnly : Stage → Bool
  | .writing _ => true
  | .halting inLoop => inLoop
  | .halted inLoop => inLoop
  | .closing => true
  | .event => true
  | .drained => true
  | _ => false

def Knows (inLoop : Bool) (shared : Shared C) : Stage → Prop
  | .opening caller _ => caller = inLoop
  | .sending _ => inLoop = false
  | .halting caller => caller = inLoop ∧ shared.shutdownCalled = true
  | .halted caller => caller = inLoop ∧ shared.shutdownCalled = true
  | .enqueueing => shared.shutdownCalled = true
  | .closing => shared.shutdownCalled = true ∧
      queuedData (shared.functors ++ shared.pendingFunctors_) = []
  | _ => True

/-- Who runs: at most one thread on the loop, at most one send(). -/
structure Discipline (busy : Bool) (marks : List Mark) : Prop where
  single : marks.countP (·.active) ≤ 1
  free : busy = false → ∀ mark ∈ marks, mark.active = false
  inside : ∀ mark ∈ marks, loopOnly mark.stage = true → mark.active = true
  sender : marks.countP (fun mark => isSender mark.stage) ≤ 1

structure Inv (inLoop : Bool) (origin : Bytes) (shared : Shared C) (marks : List Mark) : Prop where
  discipline : Discipline shared.busy marks
  streaming : Streaming (shared.conn.accepted ++ contents shared.conn.outputBuffer_) shared.conn
  whole : shared.conn.accepted ++ contents shared.conn.outputBuffer_ ++ inHand loopData marks ++
    queuedData (shared.functors ++ shared.pendingFunctors_) ++ inHand userData marks = origin ++
      shared.passed
  knows : ∀ mark ∈ marks, Knows inLoop shared mark.stage
  state : shared.conn.state_ = .kConnected ∨ shared.conn.state_ = .kDisconnecting
  before : shared.shutdownCalled = false → shared.conn.state_ = .kConnected ∧
    .shutdownInLoop ∉ shared.functors ++ shared.pendingFunctors_
  behind : shared.shutdownCalled = true → ∀ mark ∈ marks, isSender mark.stage = false
  tail : ∀ first rest, shared.functors ++ shared.pendingFunctors_ = first ++
    .shutdownInLoop :: rest →
    queuedData rest = []
  direct : inLoop = true → queuedData (shared.functors ++ shared.pendingFunctors_) = []
  closed : shared.conn.halfClosed = true →
    shared.conn.accepted = origin ++ shared.passed ∧ shared.shutdownCalled = true

theorem inHand_split (hold : Stage → Bytes) (left right : List Mark) (mark : Mark) :
    inHand hold (left ++ mark :: right) = inHand hold left ++ hold mark.stage ++
      inHand hold right := by
  simp [inHand]

theorem inHand_nil (hold : Stage → Bytes) (marks : List Mark)
    (empty : ∀ mark ∈ marks, hold mark.stage = []) :
    inHand hold marks = [] := by
  simp only [inHand, List.flatMap_eq_nil_iff]
  exact empty

theorem loopData_quiet (mark : Mark) (quiet : loopOnly mark.stage = false) :
    loopData mark.stage = [] := by
  cases stage : mark.stage <;> simp_all [loopOnly, loopData]

theorem userData_quiet (mark : Mark) (quiet : isSender mark.stage = false) :
    userData mark.stage = [] := by
  cases stage : mark.stage <;> simp_all [isSender, userData]

theorem discipline_replace (busy : Bool) (op : Op) (left right : List Mark) (mark : Mark)
    (stage : Stage)
    (discipline : Discipline busy (left ++ mark :: right))
    (leaves : op = .leave → mark.active = true)
    (inside : loopOnly stage = true → op ≠ .leave ∧ mark.active = true)
    (sender : isSender stage = true → isSender mark.stage = true) :
    Discipline (busy && decide (op ≠ .leave))
      (left ++ { active := mark.active && decide (op ≠ .leave), stage := stage } :: right) := by
  obtain ⟨single, free, loop, alone⟩ := discipline
  refine ⟨countP_replace (·.active) left right mark _ single (by simp +contextual), ?_, ?_,
    countP_replace (fun other => isSender other.stage) left right mark _ alone sender⟩
  · intro idle
    refine (forall_replace (fun other => other.active = false) left right _).mpr ?_
    by_cases leaving : op = .leave
    · exact ⟨by simp [leaving], countP_alone (·.active) left right mark (leaves leaving) single⟩
    · have quiet := (forall_replace (fun other => other.active = false) left right mark).mp
        (free (by simpa [leaving] using idle))
      exact ⟨by simp [quiet.1], quiet.2⟩
  · refine (forall_replace (fun other => loopOnly other.stage = true →
      other.active = true) left right _).mpr
      ⟨fun looping => ?_, ((forall_replace
        (fun other => loopOnly other.stage = true → other.active = true) left
        right mark).mp loop).2⟩
    obtain ⟨stays, active⟩ := inside looping
    simp [stays, active]

theorem discipline_spawn (busy taken : Bool) (marks : List Mark) (new : Mark)
    (discipline : Discipline busy marks)
    (active : new.active = true → busy = false)
    (kept : taken = false → busy = false ∧ new.active = false)
    (inside : loopOnly new.stage = true → new.active = true)
    (sender : isSender new.stage = true → ∀ mark ∈ marks, isSender mark.stage = false) :
    Discipline taken (marks ++ [new]) := by
  obtain ⟨single, free, loop, alone⟩ := discipline
  refine ⟨countP_append_one (·.active) marks new single fun here => free (active here), ?_,
    forall_append_one _ marks new inside loop,
    countP_append_one (fun other => isSender other.stage) marks new alone sender⟩
  intro idle
  obtain ⟨wasIdle, quiet⟩ := kept idle
  exact forall_append_one (fun other => other.active = false) marks new quiet (free wasIdle)

section Hands
variable (left right : List Mark) (mark : Mark)

/-- The loop has nothing in its hands but what its one thread holds. -/
theorem loop_hand (busy : Bool) (discipline : Discipline busy (left ++ mark :: right))
    (active : mark.active = true)
    (stage : Stage) (running : Bool) :
    inHand loopData (left ++ { active := running, stage := stage } :: right) = loopData stage := by
  have quiet : ∀ other ∈ left ++ right, loopData other.stage = [] := by
    intro other member
    refine loopData_quiet other ?_
    have idle := countP_alone (·.active) left right mark active discipline.single other member
    by_contra looping
    have running := ((forall_replace
      (fun other => loopOnly other.stage = true → other.active = true) left right
      mark).mp discipline.inside).2 other member (by simpa using looping)
    simp [idle] at running
  rw [inHand_split, inHand_nil loopData left fun other member => quiet other (by simp [member]),
    inHand_nil loopData right fun other member => quiet other (by simp [member])]
  simp

theorem user_hand (busy : Bool) (discipline : Discipline busy (left ++ mark :: right))
    (sends : isSender mark.stage = true) (stage : Stage) (running : Bool) :
    inHand userData (left ++ { active := running, stage := stage } :: right) = userData stage := by
  have quiet : ∀ other ∈ left ++ right, userData other.stage = [] := fun other member =>
    userData_quiet other (countP_alone
      (fun other => isSender other.stage) left right mark sends discipline.sender
      other member)
  rw [inHand_split, inHand_nil userData left fun other member => quiet other (by simp [member]),
    inHand_nil userData right fun other member => quiet other (by simp [member])]
  simp

theorem same_hand (hold : Stage → Bytes) (stage : Stage) (running : Bool)
    (same : hold stage = hold mark.stage) :
    inHand hold (left ++ { active := running, stage := stage } :: right) = inHand hold
      (left ++ mark :: right) := by
  rw [inHand_split, inHand_split, same]

end Hands

theorem queuedData_append (first rest : List Functor) :
    queuedData (first ++ rest) = queuedData first ++ queuedData rest := by
  simp [queuedData]

section Operations
variable (inLoop : Bool) (origin : Bytes) (shared : Shared C) (left right : List Mark) (mark : Mark)
  (inv : Inv inLoop origin shared (left ++ mark :: right))
include inv

omit [DecidableEq C] in
theorem own_knows : Knows inLoop shared mark.stage ∧
    ∀ other ∈ left ++ right, Knows inLoop shared other.stage :=
  (forall_replace (fun other => Knows inLoop shared other.stage) left right mark).mp inv.knows

omit [DecidableEq C] in
/-- While a send() runs, shutdown() has not been called. -/
theorem sender_open (sends : isSender mark.stage = true) :
    shared.shutdownCalled = false ∧ shared.conn.state_ = .kConnected ∧
      .shutdownInLoop ∉ shared.functors ++ shared.pendingFunctors_ := by
  have notCalled : shared.shutdownCalled = false := by
    by_contra called
    have silent := inv.behind (by simpa using called) mark (by simp)
    simp [sends] at silent
  exact ⟨notCalled, inv.before notCalled⟩

omit [DecidableEq C] in
/-- After the half-close every byte is with the kernel, and nothing is left anywhere else. -/
theorem closed_empty (closed : shared.conn.halfClosed = true) :
    contents shared.conn.outputBuffer_ = [] ∧ inHand loopData (left ++ mark :: right) = [] ∧
      queuedData (shared.functors ++ shared.pendingFunctors_) = [] ∧
      inHand userData (left ++ mark :: right) = [] := by
  have whole := inv.whole
  rw [← (inv.closed closed).1] at whole
  simpa [List.append_assoc] using whole

omit [DecidableEq C] in
/-- A step that changes no more than one mark and the running thread. -/
theorem inv_mark (after : Shared C) (stage : Stage) (running : Bool)
    (same : after.conn = shared.conn ∧ after.functors = shared.functors ∧
      after.pendingFunctors_ = shared.pendingFunctors_ ∧ after.passed = shared.passed ∧
      after.shutdownCalled = shared.shutdownCalled)
    (discipline : Discipline after.busy (left ++ { active := running, stage := stage } :: right))
    (hands : inHand loopData (left ++ { active := running, stage := stage } :: right) ++
        queuedData (shared.functors ++ shared.pendingFunctors_) ++
        inHand userData (left ++ { active := running, stage := stage } :: right) =
      inHand loopData (left ++ mark :: right) ++ queuedData
        (shared.functors ++ shared.pendingFunctors_) ++
        inHand userData (left ++ mark :: right))
    (own : Knows inLoop shared stage)
    (sender : isSender stage = true → isSender mark.stage = true) :
    Inv inLoop origin after (left ++ { active := running, stage := stage } :: right) := by
  obtain ⟨conn, functors, pending, passed, called⟩ := same
  obtain ⟨_, others⟩ := own_knows inLoop origin shared left right mark inv
  have knows : ∀ other, Knows inLoop after other = Knows inLoop shared other := by
    intro other
    cases other <;> simp only [Knows, functors, pending, called]
  refine ⟨discipline, by rw [conn]; exact inv.streaming, ?_, ?_, by rw [conn]; exact inv.state, ?_,
    ?_, ?_, ?_, ?_⟩
  · have whole := inv.whole
    simp only [List.append_assoc] at hands whole
    rw [conn, functors, pending, passed, List.append_assoc, List.append_assoc, List.append_assoc,
      hands, whole]
  · simp only [knows]
    exact (forall_replace (fun other => Knows inLoop shared other.stage) left right
      { active := running, stage := stage }).mpr ⟨own, others⟩
  · rw [conn, functors, pending, called]; exact inv.before
  · rw [called]
    intro shut
    have silent := (forall_replace (fun other => isSender other.stage = false) left right mark).mp
      (inv.behind shut)
    refine (forall_replace (fun other => isSender other.stage = false) left right _).mpr
      ⟨?_, silent.2⟩
    by_contra sends
    have sent := sender (by simpa using sends)
    simp [silent.1] at sent
  · rw [functors, pending]; exact inv.tail
  · rw [functors, pending]; exact inv.direct
  · rw [conn, passed, called]; exact inv.closed

omit [DecidableEq C] in
theorem own_inside (looping : loopOnly mark.stage = true) : mark.active = true :=
  inv.discipline.inside mark (by simp) looping

omit [DecidableEq C] in
/-- The discipline after a step that is not the loop's last. -/
theorem stay_discipline (stage : Stage) (inside : loopOnly stage = true → mark.active = true)
    (sender : isSender stage = true → isSender mark.stage = true) :
    Discipline shared.busy (left ++ { active := mark.active, stage := stage } :: right) := by
  have kept := discipline_replace shared.busy .loadState left right mark stage inv.discipline
    (by simp)
    (fun looping => ⟨by simp, inside looping⟩) sender
  simpa using kept

omit [DecidableEq C] in
theorem load_inv (job : Job) (loaded : loads job mark.stage)
    (active : onLoop job = true → mark.active = true)
    (drainsLast : mark.stage = .drained → shared.conn.state_ = .kDisconnecting →
      queuedData (shared.functors ++ shared.pendingFunctors_) = []) :
    Inv inLoop origin shared
      (left ++ { active := mark.active,
                 stage := afterLoad mark.stage shared.conn.state_ } :: right) := by
  have own := (own_knows inLoop origin shared left right mark inv).1
  have stay := stay_discipline inLoop origin shared left right mark inv
  have next :=
    fun stage => inv_mark inLoop origin shared left right mark inv shared stage mark.active
    ⟨rfl, rfl, rfl, rfl, rfl⟩
  have same := fun stage hold => same_hand left right mark hold stage mark.active
  cases here : mark.stage with
  | opening caller data =>
      obtain ⟨_, connected, _⟩ := sender_open inLoop origin shared left right mark inv
        (by simp [here, isSender])
      simp only [here, Knows] at own
      cases caller with
      | false =>
          simp only [afterLoad, connected, if_true, Bool.false_eq_true, if_false]
          refine next _ (stay _ (by simp [loopOnly]) (by simp [here, isSender])) ?_ own.symm
            (by simp [here, isSender])
          rw [same (.sending data) loopData (by simp [here, loopData]),
            same (.sending data) userData (by simp [here, userData])]
      | true =>
          simp only [afterLoad, connected, if_true]
          have running : mark.active = true := by
            cases job <;> simp_all [loads, onLoop]
          refine next _ (stay _ (fun _ => running) (by simp [isSender])) ?_ trivial
            (by simp [isSender])
          -- the data goes from the user's hands into the loop's, past an empty queue
          have sends : isSender mark.stage = true := by simp [here, isSender]
          have oldLoop :=
            loop_hand left right mark shared.busy inv.discipline running mark.stage mark.active
          have oldUser :=
            user_hand left right mark shared.busy inv.discipline sends mark.stage mark.active
          rw [loop_hand left right mark shared.busy inv.discipline running,
            user_hand left right mark shared.busy inv.discipline sends, inv.direct own.symm,
              oldLoop, oldUser, here]
          simp [loopData, userData]
  | writing data =>
      have alive : shared.conn.state_ ≠ .kDisconnected := by
        rcases inv.state with state | state <;> simp [state]
      simp only [afterLoad, alive, if_false]
      refine next _ (stay _ (fun _ => own_inside inLoop origin shared left right mark inv
        (by simp [here, loopOnly]))
        (by simp [isSender])) ?_ trivial (by simp [isSender])
      rw [same (.writing data) loopData (by rw [here]),
        same (.writing data) userData (by rw [here])]
  | halting caller =>
      simp only [here, Knows] at own
      simp only [afterLoad]
      split
      · refine next _ (stay _ (fun looping => own_inside inLoop origin shared left right mark inv
          (by simpa [here, loopOnly] using looping)) (by simp [isSender])) ?_ own
            (by simp [isSender])
        rw [same (.halted caller) loopData (by simp [here, loopData]),
          same (.halted caller) userData (by simp [here, userData])]
      · refine next _ (stay _ (by simp [loopOnly]) (by simp [isSender])) ?_ trivial
          (by simp [isSender])
        rw [same .idle loopData (by simp [here, loopData]),
          same .idle userData (by simp [here, userData])]
  | drained =>
      simp only [afterLoad]
      split
      · rename_i disconnecting
        have called : shared.shutdownCalled = true := by
          by_contra notCalled
          have state := (inv.before (by simpa using notCalled)).1
          simp [disconnecting] at state
        refine next _ (stay _ (fun _ => own_inside inLoop origin shared left right mark inv
          (by simp [here, loopOnly]))
          (by simp [isSender])) ?_ ⟨called, drainsLast here disconnecting⟩ (by simp [isSender])
        rw [same .closing loopData (by simp [here, loopData]),
          same .closing userData (by simp [here, userData])]
      · refine next _ (stay _ (by simp [loopOnly]) (by simp [isSender])) ?_ trivial
          (by simp [isSender])
        rw [same .idle loopData (by simp [here, loopData]),
          same .idle userData (by simp [here, userData])]
  | _ => cases job <;> simp [here, loads] at loaded

omit [DecidableEq C] in
/-- shutdown() stores kDisconnecting. -/
theorem set_inv (caller : Bool) (here : mark.stage = .halted caller) :
    Inv inLoop origin { shared with conn := { shared.conn with state_ := .kDisconnecting } }
      (left ++ { active := mark.active,
                 stage := if caller then .closing else .enqueueing } :: right) := by
  obtain ⟨own, others⟩ := own_knows inLoop origin shared left right mark inv
  simp only [here, Knows] at own
  obtain ⟨mode, called⟩ := own
  have silent := (forall_replace (fun other => isSender other.stage = false) left right mark).mp
    (inv.behind called)
  have quiet : isSender (if caller then Stage.closing else .enqueueing) = false := by
    cases caller <;> rfl
  refine ⟨?_, ?_, ?_, ?_, Or.inr rfl, ?_, ?_, inv.tail, inv.direct, inv.closed⟩
  · refine stay_discipline inLoop origin shared left right mark inv _ ?_ (by simp [quiet])
    cases caller with
    | false => simp [loopOnly]
    | true =>
        exact fun _ => own_inside inLoop origin shared left right mark inv
          (by simp [here, loopOnly])
  · exact ConnectionOutput.streaming_state _ shared.conn .kDisconnecting
      shared.conn.halfClosed inv.streaming
  · rw [same_hand left right mark loopData _ _ (by cases caller <;> simp [here, loopData]),
      same_hand left right mark userData _ _ (by cases caller <;> simp [here, userData])]
    exact inv.whole
  · refine (forall_replace (fun other => Knows inLoop _ other.stage) left right _).mpr ⟨?_, others⟩
    cases caller with
    | false => exact called
    | true => exact ⟨called, inv.direct mode.symm⟩
  · intro notCalled
    simp [called] at notCalled
  · exact fun _ => (forall_replace (fun other => isSender other.stage = false) left right
      { active := mark.active, stage := if caller then .closing else .enqueueing }).mpr
        ⟨quiet, silent.2⟩

omit [DecidableEq C] in
/-- send() from another thread: the data goes from the user's hands to the end of the queue. -/
theorem queue_data_inv (data : Bytes) (here : mark.stage = .sending data) :
    Inv inLoop origin
      { shared with pendingFunctors_ := shared.pendingFunctors_ ++ [.sendInLoop data] }
      (left ++ { active := mark.active, stage := .idle } :: right) := by
  have sends : isSender mark.stage = true := by simp [here, isSender]
  obtain ⟨own, others⟩ := own_knows inLoop origin shared left right mark inv
  obtain ⟨notCalled, connected, noShutdown⟩ :=
    sender_open inLoop origin shared left right mark inv sends
  simp only [here, Knows] at own
  have longer : queuedData (shared.functors ++ (shared.pendingFunctors_ ++ [.sendInLoop data])) =
      queuedData (shared.functors ++ shared.pendingFunctors_) ++ data := by
    rw [← List.append_assoc, queuedData_append]
    simp [queuedData, taskData]
  have still : .shutdownInLoop ∉ shared.functors ++
      (shared.pendingFunctors_ ++ [.sendInLoop data]) := by
    simpa [← List.append_assoc] using noShutdown
  refine ⟨stay_discipline inLoop origin shared left right mark inv _ (by simp [loopOnly])
    (by simp [isSender]),
    inv.streaming, ?_, ?_, inv.state, fun _ => ⟨connected, still⟩, by simp [notCalled], ?_, ?_, ?_⟩
  · have whole := inv.whole
    have oldUser :=
      user_hand left right mark shared.busy inv.discipline sends mark.stage mark.active
    rw [longer, user_hand left right mark shared.busy inv.discipline sends,
      same_hand left right mark loopData .idle _ (by simp [here, loopData])]
    rw [oldUser, here] at whole
    simpa [userData, List.append_assoc] using whole
  · refine (forall_replace (fun other : Mark => Knows inLoop { shared with pendingFunctors_ :=
      shared.pendingFunctors_ ++ [.sendInLoop data] } other.stage) left right
        { active := mark.active, stage := .idle }).mpr ⟨trivial, ?_⟩
    intro other member
    have known := others other member
    revert known
    cases other.stage <;> simp [Knows, notCalled]
  · intro first rest split
    exact absurd (split ▸ List.mem_append_right first List.mem_cons_self) still
  · simp [own]
  · intro closed
    have called := (inv.closed closed).2
    simp [notCalled] at called

omit [DecidableEq C] in
/-- shutdown() from another thread: its functor goes behind all data. -/
theorem queue_shutdown_inv (here : mark.stage = .enqueueing) :
    Inv inLoop origin
      { shared with pendingFunctors_ := shared.pendingFunctors_ ++ [.shutdownInLoop] }
      (left ++ { active := mark.active, stage := .idle } :: right) := by
  obtain ⟨own, others⟩ := own_knows inLoop origin shared left right mark inv
  simp only [here, Knows] at own
  have longer : queuedData (shared.functors ++ (shared.pendingFunctors_ ++ [.shutdownInLoop])) =
      queuedData (shared.functors ++ shared.pendingFunctors_) := by
    rw [← List.append_assoc, queuedData_append]
    simp [queuedData, taskData]
  have silent := (forall_replace (fun other => isSender other.stage = false) left right mark).mp
    (inv.behind own)
  refine ⟨stay_discipline inLoop origin shared left right mark inv _ (by simp [loopOnly])
    (by simp [isSender]),
    inv.streaming, ?_, ?_, inv.state, by simp [own], ?_, ?_, by rw [longer]; exact inv.direct,
      inv.closed⟩
  · rw [longer, same_hand left right mark userData .idle _ (by simp [here, userData]),
      same_hand left right mark loopData .idle _ (by simp [here, loopData])]
    exact inv.whole
  · refine (forall_replace (fun other : Mark => Knows inLoop { shared with pendingFunctors_ :=
      shared.pendingFunctors_ ++ [.shutdownInLoop] } other.stage) left right
        { active := mark.active, stage := .idle }).mpr ⟨trivial, ?_⟩
    intro other member
    have known := others other member
    revert known
    cases other.stage <;> simp [Knows, longer]
  · exact fun _ => (forall_replace (fun other => isSender other.stage = false) left right
      { active := mark.active, stage := .idle }).mpr ⟨rfl, silent.2⟩
  · intro first rest split
    -- the half-close that is found is an earlier one, or the one just queued
    rw [← List.append_assoc] at split
    rcases List.eq_nil_or_concat rest with rfl | ⟨earlier, last, rfl⟩
    · rfl
    · rw [List.concat_eq_append, ← List.cons_append, ← List.append_assoc] at split
      obtain ⟨old, same⟩ := List.append_inj' split rfl
      rw [List.concat_eq_append, queuedData_append, inv.tail first earlier old, ← same]
      rfl

omit [DecidableEq C] in
/-- The rest of a step in which the loop works on the connection. -/
theorem inv_conn (conn : TcpConnection C) (stage : Stage) (active : mark.active = true)
    (sameState : conn.state_ = shared.conn.state_)
    (sameClosed : conn.halfClosed = shared.conn.halfClosed)
    (streaming : Streaming (conn.accepted ++ contents conn.outputBuffer_) conn)
    (moved : conn.accepted ++ contents conn.outputBuffer_ ++ loopData stage =
      shared.conn.accepted ++ contents shared.conn.outputBuffer_ ++ loopData mark.stage)
    (sender : isSender mark.stage = false ∧ isSender stage = false)
    (own : Knows inLoop shared stage)
    (closed : shared.conn.halfClosed = true → conn.accepted = shared.conn.accepted) :
    Inv inLoop origin { shared with conn := conn }
      (left ++ { active := mark.active, stage := stage } :: right) := by
  obtain ⟨_, others⟩ := own_knows inLoop origin shared left right mark inv
  have oldLoop := loop_hand left right mark shared.busy inv.discipline active mark.stage mark.active
  have whole := inv.whole
  rw [oldLoop] at whole
  have sameUser : userData stage = userData mark.stage := by
    rw [userData_quiet mark sender.1,
      userData_quiet { active := mark.active, stage := stage } sender.2]
  refine ⟨stay_discipline inLoop origin shared left right mark inv _ (fun _ => active)
    (by simp [sender.2]), streaming, ?_,
    ?_, by rw [sameState]; exact inv.state, ?_, ?_, inv.tail, inv.direct, ?_⟩
  · rw [loop_hand left right mark shared.busy inv.discipline active,
      same_hand left right mark userData stage mark.active sameUser, moved]
    exact whole
  · exact (forall_replace (fun other => Knows inLoop shared other.stage) left right
      { active := mark.active, stage := stage }).mpr ⟨own, others⟩
  · rw [sameState]; exact inv.before
  · exact fun called => (forall_replace (fun other => isSender other.stage = false) left right
      { active := mark.active, stage := stage }).mpr ⟨sender.2, ((forall_replace (fun other =>
        isSender other.stage = false) left right mark).mp (inv.behind called)).2⟩
  · rw [sameClosed]
    intro already
    obtain ⟨all, called⟩ := inv.closed already
    exact ⟨(closed already).trans all, called⟩

theorem send_inv (answer : WriteAnswer) (data : Bytes) (conn : TcpConnection C)
    (here : mark.stage = .writing data)
    (healthy : Healthy data.length answer)
    (sent : ConnectionOutput.sendOpen answer data shared.conn = some conn) :
    Inv inLoop origin { shared with conn := conn }
      (left ++ { active := mark.active, stage := .idle } :: right) := by
  obtain ⟨next, ran, streaming, same⟩ :=
    ConnectionOutput.send_open_spec answer data _ shared.conn inv.streaming
    (ConnectionOutput.healthy_noFault data.length answer healthy)
  rw [sent, Option.some.injEq] at ran
  subst ran
  have active := own_inside inLoop origin shared left right mark inv (by simp [here, loopOnly])
  refine inv_conn inLoop origin shared left right mark inv conn .idle active same.1 same.2.1
    (streaming.stream ▸ streaming) ?_ (by simp [here, isSender]) trivial ?_
  · rw [streaming.stream, here]
    simp [loopData]
  · intro closed
    have nothing := (closed_empty inLoop origin shared left right mark inv closed).2.1
    rw [loop_hand left right mark shared.busy inv.discipline active mark.stage mark.active,
      here] at nothing
    simp only [loopData] at nothing
    subst nothing
    have only := ConnectionOutput.send_nothing answer shared.conn
    rw [sent, Option.some.injEq] at only
    rw [only, ConnectionOutput.direct_nothing]

theorem drain_inv (answer : WriteAnswer) (result : Bool × TcpConnection C)
    (here : mark.stage = .event)
    (ran : ConnectionOutput.drain answer shared.conn = some result) :
    Inv inLoop origin { shared with conn := result.2 }
      (left ++ { active := mark.active,
                 stage := if result.1 then .drained else .idle } :: right) := by
  obtain ⟨emptied, next, drained, streaming, same, _⟩ :=
    ConnectionOutput.drain_spec answer _ shared.conn inv.streaming
  rw [ran, Option.some.injEq] at drained
  subst drained
  have active := own_inside inLoop origin shared left right mark inv (by simp [here, loopOnly])
  have quiet : loopData (if emptied then Stage.drained else .idle) = [] := by cases emptied <;> rfl
  refine inv_conn inLoop origin shared left right mark inv next _ active same.1 same.2.1
    (streaming.stream ▸ streaming) ?_ ⟨by simp [here, isSender], by cases emptied <;> rfl⟩
    (by cases emptied <;> trivial) ?_
  · rw [streaming.stream, here, quiet]
    simp [loopData]
  · intro closed
    -- nothing is buffered, so the channel does not ask for EPOLLOUT
    have empty := (closed_empty inLoop origin shared left right mark inv closed).1
    have still := ConnectionOutput.streaming_writing _ shared.conn inv.streaming
    rw [empty] at still
    simp only [ConnectionOutput.drain, still, ne_eq, not_true_eq_false, decide_false,
      Bool.false_eq_true,
      if_false, Option.some.injEq, Prod.mk.injEq] at ran
    rw [← ran.2]

omit [DecidableEq C] in
/-- The half-close: the queue holds no data any more, and an idle channel means an
empty buffer. -/
theorem half_inv (here : mark.stage = .closing) :
    Inv inLoop origin { shared with conn := ConnectionOutput.shutdownInLoop shared.conn }
      (left ++ { active := mark.active, stage := .idle } :: right) := by
  obtain ⟨own, others⟩ := own_knows inLoop origin shared left right mark inv
  simp only [here, Knows] at own
  obtain ⟨called, unqueued⟩ := own
  have active := own_inside inLoop origin shared left right mark inv (by simp [here, loopOnly])
  have step : Inv inLoop origin shared
      (left ++ { active := mark.active, stage := .idle } :: right) :=
    inv_conn inLoop origin shared left right mark inv shared.conn .idle active rfl rfl inv.streaming
      (by simp [here, loopData]) (by simp [here, isSender]) trivial (fun _ => rfl)
  unfold ConnectionOutput.shutdownInLoop
  split
  · exact step
  · rename_i idle
    have empty : contents shared.conn.outputBuffer_ = [] := by
      have still := ConnectionOutput.streaming_writing _ shared.conn inv.streaming
      by_contra filled
      simp [filled] at still
      exact idle still
    have noUser : inHand userData (left ++ mark :: right) = [] :=
      inHand_nil userData _ fun other member =>
        userData_quiet other (inv.behind called other member)
    have all := inv.whole
    rw [empty, loop_hand left right mark shared.busy inv.discipline active mark.stage mark.active,
      here, unqueued,
      noUser] at all
    simp only [loopData, List.append_nil] at all
    exact ⟨step.discipline,
      ConnectionOutput.streaming_state _ shared.conn shared.conn.state_ true inv.streaming,
      step.whole, step.knows, step.state, step.before, step.behind, step.tail, step.direct,
        fun _ => ⟨all, called⟩⟩

omit [DecidableEq C] in
theorem leave_inv (active : mark.active = true) (here : mark.stage = .idle ∨ mark.stage = .event) :
    Inv inLoop origin { shared with busy := false }
      (left ++ { active := false, stage := .idle } :: right) := by
  have discipline := discipline_replace shared.busy .leave left right mark .idle inv.discipline
    (fun _ => active)
    (by simp [loopOnly]) (by simp [isSender])
  refine inv_mark inLoop origin shared left right mark inv _ .idle false ⟨rfl, rfl, rfl, rfl, rfl⟩
    (by simpa using discipline) ?_ trivial (by simp [isSender])
  rw [same_hand left right mark loopData .idle false
    (by rcases here with here | here <;> simp [here, loopData]),
    same_hand left right mark userData .idle false
      (by rcases here with here | here <;> simp [here, userData])]

theorem operation_inv (job : Job) (op : Op) (answer : WriteAnswer) (result : Res op)
    (after : Shared C)
    (allowed : (monitor job).allowed mark op)
    (healthy : ∀ data, op = .sendOpen data → Healthy data.length answer)
    (drainsLast : ∀ revents n, job = .handleEvent revents n → op = .loadState →
      shared.conn.state_ = .kDisconnecting →
        queuedData (shared.functors ++ shared.pendingFunctors_) = [])
    (performed : perform answer op shared = some (result, after)) :
    Inv inLoop origin after (left ++ (monitor job).after mark op result :: right) := by
  obtain ⟨taken, leaves, active, _⟩ := allowed
  rw [monitor_after]
  cases op with
  | loadState =>
      simp only [perform, Option.some.injEq, Prod.mk.injEq] at performed
      obtain ⟨rfl, rfl⟩ := performed
      have loaded : loads job mark.stage := by
        cases stage : mark.stage <;> simp_all [takes]
      have moved := load_inv inLoop origin shared left right mark inv job loaded active (by
        intro here disconnecting
        cases job <;> simp [here, loads] at loaded
        exact drainsLast _ _ rfl rfl disconnecting)
      simpa [nextStage] using moved
  | setState state =>
      simp only [perform, Option.some.injEq, Prod.mk.injEq, true_and] at performed
      subst performed
      have stored : ∃ caller, mark.stage = .halted caller ∧ state = .kDisconnecting := by
        cases stage : mark.stage <;> simp_all [takes]
      obtain ⟨caller, here, rfl⟩ := stored
      have moved := set_inv inLoop origin shared left right mark inv caller here
      have same : nextStage mark.stage (.setState .kDisconnecting) () = if caller then .closing
          else .enqueueing := by
        cases caller <;> simp [nextStage, here]
      rw [← same] at moved
      simpa using moved
  | queueInLoop functor =>
      simp only [perform, Option.some.injEq, Prod.mk.injEq, true_and] at performed
      subst performed
      have queued : (∃ data, mark.stage = .sending data ∧ functor = .sendInLoop data) ∨
          (mark.stage = .enqueueing ∧ functor = .shutdownInLoop) := by
        cases stage : mark.stage <;> simp_all [takes]
      rcases queued with ⟨data, here, rfl⟩ | ⟨here, rfl⟩
      · simpa [nextStage] using queue_data_inv inLoop origin shared left right mark inv data here
      · simpa [nextStage] using queue_shutdown_inv inLoop origin shared left right mark inv here
  | channel op => cases stage : mark.stage <;> simp_all [takes]
  | sendOpen data =>
      simp only [perform, Option.map_eq_some_iff, Prod.mk.injEq, true_and] at performed
      obtain ⟨conn, sent, rfl⟩ := performed
      have here : mark.stage = .writing data := by
        cases stage : mark.stage <;> simp_all [takes]
      simpa [nextStage]
        using send_inv inLoop origin shared left right mark inv answer data conn here
        (healthy data rfl) sent
  | drain =>
      simp only [perform, Option.map_eq_some_iff, Prod.mk.injEq] at performed
      obtain ⟨drained, ran, rfl, rfl⟩ := performed
      have here : mark.stage = .event := by cases stage : mark.stage <;> simp_all [takes]
      simpa [nextStage]
        using drain_inv inLoop origin shared left right mark inv answer drained here ran
  | shutdownInLoop =>
      simp only [perform, Option.some.injEq, Prod.mk.injEq, true_and] at performed
      subst performed
      have here : mark.stage = .closing := by cases stage : mark.stage <;> simp_all [takes]
      simpa [nextStage] using half_inv inLoop origin shared left right mark inv here
  | leave =>
      simp only [perform, Option.some.injEq, Prod.mk.injEq, true_and] at performed
      subst performed
      have here : mark.stage = .idle ∨ mark.stage = .event := by
        cases stage : mark.stage <;> simp_all [takes]
      simpa [nextStage] using leave_inv inLoop origin shared left right mark inv
        (active (leaves rfl)) here

end Operations

/-! A job starts. -/

omit [DecidableEq C] in
/-- No send() is running once the user's calls have returned. -/
theorem returned_silent (pool : Threads C) (marks : List Mark)
    (tied : List.Forall₂ (Tied monitor final) marks pool.threads) (returned : UserReturned pool) :
    ∀ mark ∈ marks, isSender mark.stage = false := by
  intro mark member
  by_contra sends
  obtain ⟨entry, inside, follows⟩ := tied_thread monitor final marks pool.threads tied mark member
  obtain ⟨op, next, allowed⟩ := follows_head (monitor entry.1) entry.2 (fun _ => final) mark
    (fun _ finished => sends finished) follows
  have finished := returned entry inside (allowed.2.2.2 (by simpa using sends))
  simp [next] at finished

omit [DecidableEq C] in
/-- A job that brings no data and takes none from the queue. -/
theorem spawn_plain (inLoop : Bool) (origin : Bytes) (shared after : Shared C) (marks : List Mark)
    (new : Mark)
    (inv : Inv inLoop origin shared marks)
    (same : after.conn = shared.conn ∧ after.functors ++ after.pendingFunctors_ =
      shared.functors ++ shared.pendingFunctors_ ∧ after.passed = shared.passed ∧
      after.shutdownCalled = shared.shutdownCalled)
    (discipline : Discipline after.busy (marks ++ [new]))
    (own : new.stage = .idle ∨ new.stage = .event) :
    Inv inLoop origin after (marks ++ [new]) := by
  obtain ⟨conn, queue, passed, called⟩ := same
  have knows : ∀ stage, Knows inLoop after stage = Knows inLoop shared stage := by
    intro stage
    cases stage <;> simp only [Knows, queue, called]
  have hands : ∀ hold, hold new.stage = [] → inHand hold (marks ++ [new]) = inHand hold marks := by
    intro hold empty
    simp [inHand, empty]
  refine ⟨discipline, by rw [conn]; exact inv.streaming, ?_, ?_, by rw [conn]; exact inv.state,
    by rw [conn, queue, called]; exact inv.before, ?_, by rw [queue]; exact inv.tail,
      by rw [queue]; exact inv.direct,
    by rw [conn, passed, called]; exact inv.closed⟩
  · rw [conn, queue, passed, hands loopData (by rcases own with own | own <;> rw [own] <;> rfl),
      hands userData (by rcases own with own | own <;> rw [own] <;> rfl)]
    exact inv.whole
  · simp only [knows]
    exact forall_append_one (fun mark => Knows inLoop shared mark.stage) marks new
      (by rcases own with own | own <;> rw [own] <;> trivial) inv.knows
  · rw [called]
    exact fun shut => forall_append_one (fun mark => isSender mark.stage = false) marks new
      (by rcases own with own | own <;> rw [own] <;> rfl) (inv.behind shut)

section Spawn
variable (inLoop : Bool) (origin : Bytes) (shared : Shared C) (marks : List Mark)
  (inv : Inv inLoop origin shared marks)
include inv

omit [DecidableEq C] in
theorem spawn_send (data : Bytes) (busy : Bool)
    (silent : ∀ mark ∈ marks, isSender mark.stage = false)
    (notCalled : shared.shutdownCalled = false)
    (discipline : Discipline busy (marks ++ [{ active := inLoop,
                                               stage := .opening inLoop data }])) :
    Inv inLoop origin { shared with passed := shared.passed ++ data, busy := busy }
      (marks ++ [{ active := inLoop, stage := .opening inLoop data }]) := by
  have none_sent : inHand userData marks = [] :=
    inHand_nil userData marks fun mark member => userData_quiet mark (silent mark member)
  refine ⟨discipline, inv.streaming, ?_, ?_, inv.state, inv.before, by simp [notCalled], inv.tail,
    inv.direct, ?_⟩
  · have whole := inv.whole
    rw [none_sent, List.append_nil] at whole
    have longer := congrArg (· ++ data) whole
    simp only [inHand, List.flatMap_append] at longer none_sent ⊢
    rw [none_sent]
    simpa [loopData, userData, List.append_assoc] using longer
  · exact forall_append_one (fun mark : Mark => Knows inLoop
      { shared with passed := shared.passed ++ data, busy := busy }
      mark.stage) marks { active := inLoop, stage := .opening inLoop data } rfl inv.knows
  · intro closed
    have called := (inv.closed closed).2
    simp [notCalled] at called

omit [DecidableEq C] in
theorem spawn_shutdown (busy : Bool) (silent : ∀ mark ∈ marks, isSender mark.stage = false)
    (discipline : Discipline busy (marks ++ [{ active := inLoop, stage := .halting inLoop }])) :
    Inv inLoop origin { shared with shutdownCalled := true, busy := busy }
      (marks ++ [{ active := inLoop, stage := .halting inLoop }]) := by
  refine ⟨discipline, inv.streaming, ?_, ?_, inv.state, by simp, ?_, inv.tail, inv.direct,
    fun closed => ⟨(inv.closed closed).1, rfl⟩⟩
  · have whole := inv.whole
    simpa [inHand, loopData, userData] using whole
  · refine forall_append_one
      (fun mark : Mark => Knows inLoop { shared with shutdownCalled := true, busy := busy }
      mark.stage) marks { active := inLoop, stage := .halting inLoop } ⟨rfl, rfl⟩ ?_
    intro mark member
    have known := inv.knows mark member
    revert known
    cases mark.stage <;> simp +contextual [Knows]
  · exact fun _ => forall_append_one (fun mark => isSender mark.stage = false) marks _ rfl silent

omit [DecidableEq C] in
/-- The loop takes the first functor of its batch. -/
theorem spawn_functor (task : Functor) (rest : List Functor)
    (waiting : shared.functors = task :: rest)
    (idle : shared.busy = false)
    (discipline : Discipline true (marks ++ [start (.functor task)])) :
    Inv inLoop origin { shared with functors := rest, busy := true }
      (marks ++ [start (.functor task)]) := by
  have held : ∀ functors, queuedData (task :: functors) = taskData task ++ queuedData functors :=
    fun _ => by
    simp [queuedData]
  -- the loop thread was free, so no other job of it holds data
  have nothing : inHand loopData marks = [] := by
    refine inHand_nil loopData marks fun mark member => loopData_quiet mark ?_
    by_contra looping
    have active := inv.discipline.inside mark member (by simpa using looping)
    rw [inv.discipline.free idle mark member] at active
    simp at active
  have quiet : isSender (start (.functor task)).stage = false := by cases task <;> rfl
  have carried : loopData (start (.functor task)).stage = taskData task := by cases task <;> rfl
  have user : userData (start (.functor task)).stage = [] := by cases task <;> rfl
  have whole := inv.whole
  have tail := inv.tail
  have direct := inv.direct
  have before := inv.before
  rw [waiting] at whole tail direct before
  refine ⟨discipline, inv.streaming, ?_, ?_, inv.state, ?_, ?_, ?_, ?_, inv.closed⟩
  · rw [nothing] at whole
    simp only [List.cons_append, held] at whole
    simp only [inHand] at nothing whole ⊢
    simp only [List.flatMap_append, nothing, List.nil_append, List.flatMap_cons, List.flatMap_nil,
      List.append_nil,
      carried, user]
    simpa [List.append_assoc] using whole
  · refine forall_append_one
      (fun mark : Mark => Knows inLoop { shared with functors := rest, busy := true } mark.stage)
      marks _ ?_ ?_
    · cases task with
      | sendInLoop data => trivial
      | shutdownInLoop =>
          refine ⟨?_, tail [] _ rfl⟩
          by_contra notCalled
          exact (before (by simpa using notCalled)).2 (by simp)
    · intro mark member
      have known := inv.knows mark member
      revert known
      rw [Knows.eq_def, Knows.eq_def, waiting]
      cases mark.stage <;> simp +contextual [held]
  · intro notCalled
    obtain ⟨connected, absent⟩ := before notCalled
    exact ⟨connected, fun inside => absent (List.mem_cons_of_mem _ inside)⟩
  · exact fun called => forall_append_one (fun mark => isSender mark.stage = false) marks _ quiet
      (inv.behind called)
  · intro first behind split
    exact tail (task :: first) behind (by simp [← split])
  · intro mode
    have empty := direct mode
    simp only [List.cons_append, held, List.append_eq_nil_iff] at empty
    exact empty.2

end Spawn

/-- What the guard asks of a job that starts. -/
theorem spawn_inv (inLoop : Bool) (origin : Bytes) (pool : Threads C) (marks : List Mark)
    (job : Job)
    (after : Shared C) (tied : List.Forall₂ (Tied monitor final) marks pool.threads)
    (guarded : OneUser inLoop pool (.spawn job)) (inv : Inv inLoop origin pool.shared marks)
    (launched : launch job pool.shared = some after) :
    Tied monitor final (start job) (job, program job) ∧
      Inv inLoop origin after (marks ++ [start job]) := by
  obtain ⟨entered, ran, rfl, idle⟩ := launch_entered job pool.shared after launched
  have busy := (enter_frame job pool.shared entered ran).2.2.1
  -- `busy` changes only for the job's own loop turn, so the discipline is kept
  have begins :
      (loopOnly (start job).stage = true → onLoop job = true) →
      (isSender (start job).stage = true → ∀ mark ∈ marks, isSender mark.stage = false) →
      Discipline (if onLoop job then true else entered.busy) (marks ++ [start job]) := by
    intro inside sender
    refine discipline_spawn pool.shared.busy _ marks _ inv.discipline idle ?_ inside sender
    intro free
    cases looping : onLoop job with
    | false => exact ⟨by simpa [looping, busy] using free, looping⟩
    | true => simp [looping] at free
  cases job with
  | send caller data =>
      obtain ⟨rfl, notCalled, returned⟩ := guarded
      simp only [enter, Option.some.injEq] at ran
      subst ran
      have silent := returned_silent pool marks tied returned
      exact ⟨program_follows _ (by simp) (by simp),
        spawn_send caller origin pool.shared marks inv data _ silent
        notCalled (begins (by simp [start, loopOnly]) fun _ => silent)⟩
  | shutdown caller =>
      obtain ⟨rfl, _, returned⟩ := guarded
      simp only [enter, Option.some.injEq] at ran
      subst ran
      have silent := returned_silent pool marks tied returned
      exact ⟨program_follows _ (by simp) (by simp),
        spawn_shutdown caller origin pool.shared marks inv _ silent
        (begins (by simp [start, loopOnly, onLoop]) (by simp [start, isSender]))⟩
  | connectEstablished => exact absurd guarded id
  | connectDestroyed => exact absurd guarded id
  | handleEvent revents n =>
      simp only [enter] at ran
      split at ran
      · cases ran
        have stage : (start (.handleEvent revents n)).stage = .idle ∨
            (start (.handleEvent revents n)).stage = .event := by
          simp only [start]
          split <;> simp
        exact ⟨program_follows _ (by simp) (by rintro _ _ ⟨⟩; exact guarded),
          spawn_plain inLoop origin pool.shared _ marks _ inv ⟨rfl, rfl, rfl, rfl⟩
            (begins (fun _ => rfl)
            (by rcases stage with stage | stage <;> simp [stage, isSender])) stage⟩
      · cases ran
  | poll revents =>
      simp only [enter] at ran
      split at ran
      · cases ran
        exact ⟨program_follows _ (by simp) (by simp),
          spawn_plain inLoop origin pool.shared _ marks _ inv
          ⟨rfl, rfl, rfl, rfl⟩ (begins (by simp [start, loopOnly]) (by simp [start, isSender]))
            (Or.inl rfl)⟩
      · cases ran
  | swap =>
      simp only [enter] at ran
      split at ran
      · rename_i waiting
        cases ran
        exact ⟨program_follows _ (by simp) (by simp),
          spawn_plain inLoop origin pool.shared _ marks _ inv
          ⟨rfl, by simp [waiting.1], rfl, rfl⟩
            (begins (by simp [start, loopOnly]) (by simp [start, isSender]))
          (Or.inl rfl)⟩
      · cases ran
  | functor task =>
      simp only [enter] at ran
      cases waiting : pool.shared.functors with
      | nil => simp [waiting] at ran
      | cons next rest =>
          simp only [waiting] at ran
          split at ran
          · rename_i first
            subst first
            cases ran
            exact ⟨program_follows _ (by simp) (by simp),
              spawn_functor inLoop origin pool.shared marks inv next rest
              waiting (idle rfl)
                (begins (fun _ => rfl) (by cases next <;> simp [start, isSender]))⟩
          · cases ran

/-! Whole runs. -/

/-- An established connection before its user has made a call: a backlog that the
channel waits to write, an idle loop and no task in its queues. -/
structure Established (pool : Threads C) : Prop where
  streaming : Streaming
    (pool.shared.conn.accepted ++ contents pool.shared.conn.outputBuffer_) pool.shared.conn
  state : pool.shared.conn.state_ = .kConnected
  writable : pool.shared.conn.halfClosed = false
  idle : pool.shared.busy = false
  unqueued : pool.shared.functors = [] ∧ pool.shared.pendingFunctors_ = []
  uncalled : pool.shared.passed = [] ∧ pool.shared.shutdownCalled = false
  nobody : pool.threads = []

omit [DecidableEq C] in
theorem established_inv (inLoop : Bool) (pool : Threads C) (established : Established pool) :
    Held monitor final (Inv inLoop
      (pool.shared.conn.accepted ++ contents pool.shared.conn.outputBuffer_)) pool := by
  obtain ⟨streaming, state, writable, idle, ⟨functors, pending⟩, ⟨passed, notCalled⟩, nobody⟩ :=
    established
  refine ⟨[], by rw [nobody]; exact List.Forall₂.nil, ⟨by simp, by simp, by simp, by simp⟩,
    streaming, ?_, by simp,
    Or.inl state, fun _ => ⟨state, by simp [functors, pending]⟩, by simp, ?_, fun _ =>
      by simp [functors, pending, queuedData],
    by simp [writable]⟩
  · simp [functors, pending, passed, inHand, queuedData]
  · simp [functors, pending]

def Graceful (inLoop : Bool) (pool : Threads C) (action : Action Job WriteAnswer) : Prop :=
  OneUser inLoop pool action ∧ DrainsLast pool action

omit [DecidableEq C] in
instance (inLoop : Bool) (pool : Threads C) (action : Action Job WriteAnswer) :
    Decidable (Graceful inLoop pool action) :=
  inferInstanceAs (Decidable (_ ∧ _))

theorem run_inv (inLoop : Bool) (origin : Bytes) (pool last : Threads C)
    (trace : List (Action Job WriteAnswer))
    (graceful : Transition.Guarded threads.step (Graceful inLoop) pool trace)
    (held : Held monitor final (Inv inLoop origin) pool)
    (ran : Transition.run threads.step pool trace = some last) :
    Held monitor final (Inv inLoop origin) last := by
  refine run_held threads monitor final (Inv inLoop origin)
    (Graceful inLoop) ?_ ?_ pool last trace graceful
    held ran
  · intro pool marks job shared tied guarded inv launched
    exact ⟨start job, spawn_inv inLoop origin pool marks job shared tied guarded.1 inv launched⟩
  · intro shared left right before behind mark job op next answer result after _ _ allowed guarded
      inv performed
    obtain ⟨oneUser, drainsLast⟩ := guarded
    simp only [OneUser, aboutTo_split] at oneUser
    simp only [DrainsLast, aboutTo_split] at drainsLast
    refine operation_inv inLoop origin shared left right mark inv job op answer result after
      allowed ?_ ?_ performed
    · rintro data rfl
      exact oneUser
    · rintro revents n rfl rfl
      exact drainsLast

/-- The half-close follows shutdown(), and finds every byte with the kernel: the
backlog and then all that was passed to send(), in order. -/
def ClosesAfterData (first last : Threads C) : Prop :=
  last.shared.conn.halfClosed = true → last.shared.shutdownCalled = true ∧
    last.shared.conn.accepted =
      first.shared.conn.accepted ++ contents first.shared.conn.outputBuffer_ ++ last.shared.passed

/-- In every run of one user's calls beside the loop, in which handleWrite never
meets kDisconnecting while data of a send() waits in the queue, no half-close is
issued before all data is with the kernel. -/
theorem half_close_after_data (inLoop : Bool) (pool last : Threads C)
    (trace : List (Action Job WriteAnswer))
    (established : Established pool)
    (graceful : Transition.Guarded threads.step (Graceful inLoop) pool trace)
    (ran : Transition.run threads.step pool trace = some last) : ClosesAfterData pool last := by
  obtain ⟨marks, _, inv⟩ := run_inv inLoop _ pool last trace graceful
    (established_inv inLoop pool established) ran
  intro closed
  obtain ⟨accepted, called⟩ := inv.closed closed
  exact ⟨called, accepted⟩

/-- One connection of the loop, on fd 7, with nothing to write. -/
def established : Threads Unit where
  shared :=
    { conn := ConnectionOutput.established
      reported := none
      pendingFunctors_ := []
      functors := []
      busy := false
      removed := false
      passed := []
      shutdownCalled := false }
  threads := []

theorem established_holds : Established established :=
  ⟨ConnectionOutput.established_streaming _ ConnectionOutput.established_holds, rfl, rfl, rfl,
    ⟨rfl, rfl⟩, ⟨rfl, rfl⟩, rfl⟩

/-- The steps of one thread, with the kernel's answer to each. -/
def steps (thread count : Nat) (answer : WriteAnswer) : List (Action Job WriteAnswer) :=
  List.replicate count (.step thread answer)

def full : WriteAnswer := { ret := -1, errno := .EWOULDBLOCK }

/-- The kernel refuses the first byte, which stays in outputBuffer_; the second one
and the half-close wait in the queue. -/
def twoSends : List (Action Job WriteAnswer) :=
  .spawn (.send false [1]) :: steps 0 2 full ++ .spawn .swap :: .spawn
    (.functor (.sendInLoop [1])) :: steps 2 3 full ++
    .spawn (.send false [2]) :: steps 3 2 full

/-- The loop takes both tasks, then the socket becomes writable. -/
def tasksFirst : List (Action Job WriteAnswer) :=
  twoSends ++ .spawn (.shutdown false) :: steps 4 3 full ++ .spawn .swap ::
    .spawn (.functor (.sendInLoop [2])) :: steps 6 3 full ++ .spawn
      (.functor .shutdownInLoop) :: steps 7 2 full ++
    .spawn (.poll EPOLLOUT) :: .spawn
      (.handleEvent EPOLLOUT 1) :: steps 9 4 { ret := 2, errno := .other }

theorem half_close_after_data_ordered :
    ∃ last, Transition.run threads.step established tasksFirst = some last ∧
      last.shared.conn.halfClosed = true ∧ last.shared.conn.accepted = [1, 2] ∧
        ClosesAfterData established last := by
  have reached : (Transition.run threads.step established tasksFirst).map
      (fun pool => (pool.shared.conn.halfClosed, pool.shared.conn.accepted)) =
        some (true, [1, 2]) := by decide +kernel
  obtain ⟨last, ran, state⟩ := Option.map_eq_some_iff.mp reached
  obtain ⟨closed, accepted⟩ := Prod.mk.inj state
  exact ⟨last, ran, closed, accepted,
    half_close_after_data false established last tasksFirst established_holds
    (by decide +kernel) ran⟩

/-- The socket becomes writable while shutdown() has stored kDisconnecting and the
second byte is still in the queue. -/
def drainedFirst : List (Action Job WriteAnswer) :=
  twoSends ++ .spawn (.shutdown false) :: steps 4 2 full ++
    .spawn (.poll EPOLLOUT) :: .spawn
      (.handleEvent EPOLLOUT 1) :: steps 6 3 { ret := 1, errno := .other }

theorem half_close_before_data :
    Transition.Guarded threads.step (OneUser false) established drainedFirst ∧
      ∃ last, Transition.run threads.step established drainedFirst = some last ∧
        last.shared.conn.halfClosed = true ∧ last.shared.conn.accepted = [1] ∧
          last.shared.passed = [1, 2] ∧
        ¬ ClosesAfterData established last := by
  refine ⟨by decide +kernel, ?_⟩
  have reached : (Transition.run threads.step established drainedFirst).map
      (fun pool => (pool.shared.conn.halfClosed, pool.shared.conn.accepted, pool.shared.passed)) =
      some (true, [1], [1, 2]) := by decide +kernel
  obtain ⟨last, ran, state⟩ := Option.map_eq_some_iff.mp reached
  simp only [Prod.mk.injEq] at state
  obtain ⟨closed, accepted, passed⟩ := state
  refine ⟨last, ran, closed, accepted, passed, fun late => ?_⟩
  have all := (late closed).2
  rw [accepted, passed] at all
  exact absurd all (by decide +kernel)

end MuduoChat.GracefulShutdown
