import MuduoChat.Interleaving

/-!
MyMuduo/EventLoop.cc and MyMuduo/EventLoopThread.cc: one EventLoop, the thread
that runs loop(), and any number of other threads. The reads and writes of the
atomic flags, of the eventfd and of EventLoopThread::loop_ are operations, and so
are the append and the swap under mutex_. What epoll reports, and what a handler
or a functor queues on its own loop, is up to the environment. `rounds` bounds how
often one run makes the test of the while loop; past it the thread stands still,
so every run of the code is a run for some `rounds`. From `owned` on, the fields
of the state are records for the statements; the code does not keep them.
-/

namespace MuduoChat.EventLoop
open Interleaving

structure Shared (F : Type) where
  looping_ : Bool
  quit_ : Bool
  callingPendingFunctors_ : Bool
  pendingFunctors_ : List F
  wakeupFd_ : Nat
  loop_ : Bool
  owned : Bool
  entered : Bool
  returned : Bool
  started : Bool
  joinable : Bool
  polls : Nat
  willSwap : Bool
  appended : List F
  taken : Nat
  executed : List F
  accepted : Nat
  quitCalled : Bool
  owed : Nat
  quitStored : Bool

/-- A channel that epoll reports: wakeupChannel_, or another one, whose handler
queues some functors. -/
inductive Active (F : Type) where
  | wakeup
  | channel (cbs : List F)
  deriving DecidableEq

/-- What the environment decides: the channels a poll reports, and what the functor
or the callback that is run queues. -/
structure Choice (F : Type) where
  active : List (Active F) := []
  cbs : List F := []
  deriving DecidableEq

inductive Op (F : Type) where
  | setLooping (value : Bool)
  | setQuit (value : Bool)
  | loadQuit
  | setCalling (value : Bool)
  | loadCalling
  | append (cb : F)
  | swap
  | read
  | write
  | poll
  | run (functor : F)
  | threadInit
  | publish
  | retract
  | start
  | awaitLoop
  | loadLoop
  | join
  | stall
  | noteReturn (position : Nat)
  | noteQuit
  deriving DecidableEq

abbrev Res {F : Type} : Op F → Type
  | .loadQuit => Bool
  | .loadCalling => Bool
  | .append _ => Nat
  | .swap => List F
  | .poll => List (Active F)
  | .run _ => List F
  | .threadInit => List F
  | .loadLoop => Bool
  | _ => Unit

section Steps
variable {F : Type} [DecidableEq F]

/-- epoll reports wakeupChannel_ only while the counter of the eventfd is positive. -/
def enabled (choice : Choice F) (shared : Shared F) : Op F → Bool
  | .poll => decide (.wakeup ∈ choice.active → 0 < shared.wakeupFd_)
  | .awaitLoop => shared.loop_
  | .join => shared.joinable
  | .stall => false
  | _ => true

omit [DecidableEq F] in
/-- `append` answers with the position of the functor among all that were appended. -/
def answer (choice : Choice F) (shared : Shared F) : (op : Op F) → Res op
  | .setLooping _ => ()
  | .setQuit _ => ()
  | .loadQuit => shared.quit_
  | .setCalling _ => ()
  | .loadCalling => shared.callingPendingFunctors_
  | .append _ => shared.appended.length
  | .swap => shared.pendingFunctors_
  | .read => ()
  | .write => ()
  | .poll => choice.active
  | .run _ => choice.cbs
  | .threadInit => choice.cbs
  | .publish => ()
  | .retract => ()
  | .start => ()
  | .awaitLoop => ()
  | .loadLoop => shared.loop_
  | .join => ()
  | .stall => ()
  | .noteReturn _ => ()
  | .noteQuit => ()

omit [DecidableEq F] in
def effect (shared : Shared F) : Op F → Shared F
  | .setLooping value => { shared with looping_ := value, returned := shared.returned || !value }
  | .setQuit value =>
      { shared with quit_ := value, entered := shared.entered || !value,
                    quitStored := shared.quitStored || value }
  | .loadQuit => { shared with willSwap := !shared.quit_ }
  | .setCalling value => { shared with callingPendingFunctors_ := value }
  | .append cb =>
      { shared with pendingFunctors_ := shared.pendingFunctors_ ++ [cb],
                    appended := shared.appended ++ [cb] }
  | .swap => { shared with pendingFunctors_ := [], willSwap := false,
                           taken := shared.taken + shared.pendingFunctors_.length }
  | .read => { shared with wakeupFd_ := 0 }
  | .write => { shared with wakeupFd_ := shared.wakeupFd_ + 1 }
  | .poll => { shared with polls := shared.polls + 1 }
  | .run functor => { shared with executed := shared.executed ++ [functor] }
  | .publish => { shared with loop_ := true }
  | .retract => { shared with loop_ := false, joinable := true }
  | .start => { shared with started := true }
  | .noteReturn position => { shared with accepted := max shared.accepted (position + 1) }
  | .noteQuit =>
      { shared with quitCalled := true,
                    owed := if shared.quitCalled then shared.owed else shared.accepted }
  | _ => shared

def perform (choice : Choice F) (op : Op F) (shared : Shared F) : Option (Res op × Shared F) :=
  if enabled choice shared op then some (answer choice shared op, effect shared op) else none

theorem perform_eq_some (choice : Choice F) (op : Op F) (shared after : Shared F)
    (result : Res op) :
    perform choice op shared = some (result, after) ↔
      enabled choice shared op = true ∧ result = answer choice shared op ∧
        after = effect shared op := by
  unfold perform
  cases enabled choice shared op with
  | false => simp
  | true => simp [eq_comm (a := result), eq_comm (a := after)]

end Steps

/-! The functions of EventLoop.cc and EventLoopThread.cc. -/

section Functions
variable {F : Type}

abbrev Task (F : Type) := Prog (Op F) Res

def wakeup : Task F Unit := call Op.write

/-- `inLoop` is the answer of isInloopThread() for the calling thread. -/
def queueInLoop (inLoop : Bool) (cb : F) : Task F Unit := do
  let position ← call (Op.append cb)
  if inLoop then do
    let calling ← call Op.loadCalling
    if calling then wakeup else pure ()
  else wakeup
  call (Op.noteReturn position)

def queueAll : List F → Task F Unit
  | [] => pure ()
  | cb :: rest => do
      queueInLoop true cb
      queueAll rest

/-- Channel::handleEvent; for wakeupChannel_ it is EventLoop::handleRead. -/
def handleEvent : Active F → Task F Unit
  | .wakeup => call Op.read
  | .channel cbs => queueAll cbs

def handleAll : List (Active F) → Task F Unit
  | [] => pure ()
  | channel :: rest => do
      handleEvent channel
      handleAll rest

def callAll : List F → Task F Unit
  | [] => pure ()
  | functor :: rest => do
      let cbs ← call (Op.run functor)
      queueAll cbs
      callAll rest

def doPendingFunctors : Task F Unit := do
  call (Op.setCalling true)
  let functors ← call Op.swap
  callAll functors
  call (Op.setCalling false)

def iterate : Nat → Task F Unit
  | 0 => call Op.stall
  | rounds + 1 => do
      let quit ← call Op.loadQuit
      if quit then pure () else do
        let activeChannels ← call Op.poll
        handleAll activeChannels
        doPendingFunctors
        iterate rounds

def loop (rounds : Nat) : Task F Unit := do
  call (Op.setLooping true)
  call (Op.setQuit false)
  iterate rounds
  call (Op.setLooping false)

/-- quit() from another thread than the loop's. -/
def quit : Task F Unit := do
  call Op.noteQuit
  call (Op.setQuit true)
  wakeup

def threadFunc (rounds : Nat) : Task F Unit := do
  let cbs ← call Op.threadInit
  queueAll cbs
  call Op.publish
  loop rounds
  call Op.retract

def startLoop : Task F Unit := do
  call Op.start
  call Op.awaitLoop

/-- ~EventLoopThread. -/
def destructor : Task F Unit := do
  let loop ← call Op.loadLoop
  if loop then do
    quit
    call Op.join
  else pure ()

inductive Job (F : Type) where
  | loop (rounds : Nat)
  | queueInLoop (cb : F)
  | quit
  | threadFunc (rounds : Nat)
  | startLoop
  | destructor
  deriving DecidableEq

def program : Job F → Task F Unit
  | .loop rounds => loop rounds
  | .queueInLoop cb => queueInLoop false cb
  | .quit => quit
  | .threadFunc rounds => threadFunc rounds
  | .startLoop => startLoop
  | .destructor => destructor

/-- One thread runs the loop; where it is a new thread, start() has made it. -/
def launch : Job F → Shared F → Option (Shared F)
  | .loop _, shared => if shared.owned then none else some { shared with owned := true }
  | .threadFunc _, shared =>
      if shared.started = true ∧ shared.owned = false then some { shared with owned := true }
      else none
  | _, shared => some shared

def threads [DecidableEq F] : System (Shared F) (Job F) (Op F) Res (Choice F) where
  program := program
  launch := launch
  perform := perform

abbrev Threads (F : Type) := Pool (Shared F) (Job F) (Op F) Res

/-- An EventLoop before loop() is called, with what is in its queue and its eventfd. -/
def constructed (waiting : List F) (count : Nat) : Threads F where
  shared :=
    { looping_ := false
      quit_ := false
      callingPendingFunctors_ := false
      pendingFunctors_ := waiting
      wakeupFd_ := count
      loop_ := false
      owned := false
      entered := false
      returned := false
      started := false
      joinable := false
      polls := 0
      willSwap := false
      appended := waiting
      taken := 0
      executed := []
      accepted := waiting.length
      quitCalled := false
      owed := 0
      quitStored := false }
  threads := []

end Functions

/-! Where a thread stands: the phase of the loop thread, and how far a call of
queueInLoop() or quit() has come. -/

inductive Phase (F : Type) where
  | outside
  | preparing
  | initial
  | clearing
  | testing
  | polling
  | handling
  | swapping
  | running (rest : List F)
  | leaving
  | finished

inductive Call where
  | nothing
  | posted (position : Nat)
  | owing (position : Nat)
  | noting (position : Nat)
  | storing
  | waking

structure Mark (F : Type) where
  phase : Phase F
  call : Call

section Protocol
variable {F : Type}

/-- The phases in which the loop thread may call queueInLoop(). -/
def queues : Phase F → Bool
  | .preparing => true
  | .handling => true
  | .running _ => true
  | _ => false

/-- Where an operation is taken. A call of queueInLoop() is made by the loop thread
in a phase that queues, or by a thread outside. -/
inductive Allowed (job : Job F) : Mark F → Op F → Prop
  | append (phase : Phase F) (cb : F) (queuing : queues phase = true) :
      Allowed job ⟨phase, .nothing⟩ (.append cb)
  | appendOutside (cb : F) : Allowed job ⟨.outside, .nothing⟩ (.append cb)
  | loadCalling (phase : Phase F) (position : Nat) (queuing : queues phase = true) :
      Allowed job ⟨phase, .posted position⟩ .loadCalling
  | write (phase : Phase F) (position : Nat) (queuing : queues phase = true) :
      Allowed job ⟨phase, .owing position⟩ .write
  | writeOutside (cb : F) (position : Nat) (calls : job = .queueInLoop cb) :
      Allowed job ⟨.outside, .owing position⟩ .write
  | noteReturn (phase : Phase F) (position : Nat) : Allowed job ⟨phase, .noting position⟩
      (.noteReturn position)
  | noteQuit : Allowed job ⟨.outside, .nothing⟩ .noteQuit
  | storeQuit : Allowed job ⟨.outside, .storing⟩ (.setQuit true)
  | writeQuit : Allowed job ⟨.outside, .waking⟩ .write
  | start : Allowed job ⟨.outside, .nothing⟩ .start
  | awaitLoop : Allowed job ⟨.outside, .nothing⟩ .awaitLoop
  | loadLoop : Allowed job ⟨.outside, .nothing⟩ .loadLoop
  | join : Allowed job ⟨.outside, .nothing⟩ .join
  | threadInit : Allowed job ⟨.preparing, .nothing⟩ .threadInit
  | publish : Allowed job ⟨.preparing, .nothing⟩ .publish
  | setLooping : Allowed job ⟨.initial, .nothing⟩ (.setLooping true)
  | clearQuit : Allowed job ⟨.clearing, .nothing⟩ (.setQuit false)
  | loadQuit : Allowed job ⟨.testing, .nothing⟩ .loadQuit
  | stall : Allowed job ⟨.testing, .nothing⟩ .stall
  | poll : Allowed job ⟨.polling, .nothing⟩ .poll
  | read : Allowed job ⟨.handling, .nothing⟩ .read
  | setCalling : Allowed job ⟨.handling, .nothing⟩ (.setCalling true)
  | swap : Allowed job ⟨.swapping, .nothing⟩ .swap
  | run (functor : F) (rest : List F) : Allowed job
      ⟨.running (functor :: rest), .nothing⟩ (.run functor)
  | clearCalling : Allowed job ⟨.running [], .nothing⟩ (.setCalling false)
  | clearLooping : Allowed job ⟨.leaving, .nothing⟩ (.setLooping false)
  | retract : Allowed job ⟨.finished, .nothing⟩ .retract

def nextPhase (phase : Phase F) : (op : Op F) → Res op → Phase F
  | .publish, _ => .initial
  | .setLooping true, _ => .clearing
  | .setLooping false, _ => .finished
  | .setQuit false, _ => .testing
  | .loadQuit, quit => if quit = true then .leaving else .polling
  | .poll, _ => .handling
  | .setCalling true, _ => .swapping
  | .swap, functors => .running functors
  | .run _, _ => match phase with | .running rest => .running rest.tail | _ => phase
  | .setCalling false, _ => .testing
  | .stall, _ => .leaving
  | _, _ => phase

def nextCall (mark : Mark F) : (op : Op F) → Res op → Call
  | .append _, position => if queues mark.phase then .posted position else .owing position
  | .loadCalling, calling =>
      match mark.call with
      | .posted position => if calling = true then .owing position else .noting position
      | call => call
  | .write, _ => match mark.call with | .owing position => .noting position | _ => .nothing
  | .noteQuit, _ => .storing
  | .setQuit true, _ => .waking
  | _, _ => .nothing

def monitor (job : Job F) : Monitor (Op F) Res (Mark F) where
  allowed := Allowed job
  after mark op result := ⟨nextPhase mark.phase op result, nextCall mark op result⟩

def start : Job F → Mark F
  | .loop _ => ⟨.initial, .nothing⟩
  | .threadFunc _ => ⟨.preparing, .nothing⟩
  | _ => ⟨.outside, .nothing⟩

def final (mark : Mark F) : Prop := mark.call = .nothing

@[simp] theorem monitor_allowed (job : Job F) (mark : Mark F) (op : Op F) :
    (monitor job).allowed mark op ↔ Allowed job mark op := Iff.rfl

@[simp] theorem monitor_after (job : Job F) (mark : Mark F) (op : Op F) (result : Res op) :
    (monitor job).after mark op result =
    ⟨nextPhase mark.phase op result, nextCall mark op result⟩ := rfl

/-- A call of queueInLoop() on the loop thread comes back to where it was made. -/
theorem queueInLoop_follows (job : Job F) (phase : Phase F) (queuing : queues phase = true)
    (cb : F) :
    Follows (monitor job) (queueInLoop true cb) (fun _ mark => mark = ⟨phase, .nothing⟩)
      ⟨phase, .nothing⟩ := by
  simp only [queueInLoop, wakeup, if_true, call_bind, follows_act]
  refine ⟨.append phase cb queuing, fun position => ?_⟩
  simp only [monitor_after, nextPhase, nextCall, queuing, if_true]
  refine ⟨.loadCalling phase position queuing, fun calling => ?_⟩
  cases calling with
  | true =>
      exact ⟨.write phase position queuing, fun _ => ⟨.noteReturn phase position, fun _ => rfl⟩⟩
  | false => exact ⟨.noteReturn phase position, fun _ => rfl⟩

theorem queueAll_follows (job : Job F) (phase : Phase F) (queuing : queues phase = true)
    (cbs : List F) :
    Follows (monitor job) (queueAll cbs) (fun _ mark => mark = ⟨phase, .nothing⟩)
      ⟨phase, .nothing⟩ := by
  induction cbs with
  | nil => rfl
  | cons cb rest ih =>
      exact follows_seq _ _ _ _ _ _ (queueInLoop_follows job phase queuing cb) fun _ => ih

theorem handleAll_follows (job : Job F) (channels : List (Active F)) :
    Follows (monitor job) (handleAll channels) (fun _ mark => mark = ⟨.handling, .nothing⟩)
      ⟨.handling, .nothing⟩ := by
  induction channels with
  | nil => rfl
  | cons channel rest ih =>
      apply follows_seq _ _ _ _ _ ⟨.handling, .nothing⟩ _ fun _ => ih
      cases channel with
      | wakeup => exact ⟨.read, fun _ => rfl⟩
      | channel cbs => exact queueAll_follows job .handling rfl cbs

theorem callAll_follows (job : Job F) (functors : List F) :
    Follows (monitor job) (callAll functors) (fun _ mark => mark = ⟨.running [], .nothing⟩)
      ⟨.running functors, .nothing⟩ := by
  induction functors with
  | nil => rfl
  | cons functor rest ih =>
      simp only [callAll, call_bind, follows_act]
      refine ⟨.run functor rest, fun cbs => ?_⟩
      exact follows_seq _ _ _ _ _ _ (queueAll_follows job (.running rest) rfl cbs) fun _ => ih

theorem doPendingFunctors_follows (job : Job F) :
    Follows (monitor job) doPendingFunctors (fun _ mark => mark = ⟨.testing, .nothing⟩)
      ⟨.handling, .nothing⟩ := by
  simp only [doPendingFunctors, call_bind, follows_act]
  refine ⟨.setCalling, fun _ => ⟨.swap, fun functors => ?_⟩⟩
  apply follows_seq _ _ _ _ _ ⟨.running [], .nothing⟩ (callAll_follows job functors)
  exact fun _ => ⟨.clearCalling, fun _ => rfl⟩

theorem iterate_follows (job : Job F) (rounds : Nat) :
    Follows (monitor job) (iterate rounds) (fun _ mark => mark = ⟨.leaving, .nothing⟩)
      ⟨.testing, .nothing⟩ := by
  induction rounds with
  | zero => exact ⟨.stall, fun _ => rfl⟩
  | succ rounds ih =>
      simp only [iterate, call_bind, follows_act]
      refine ⟨.loadQuit, fun quit => ?_⟩
      cases quit with
      | true => rfl
      | false =>
          refine ⟨.poll, fun channels => ?_⟩
          apply follows_seq _ _ _ _ _ ⟨.handling, .nothing⟩ (handleAll_follows job channels)
          intro _
          exact follows_seq _ _ _ _ _ _ (doPendingFunctors_follows job) fun _ => ih

theorem loop_follows (job : Job F) (rounds : Nat) :
    Follows (monitor job) (loop rounds) (fun _ mark => mark = ⟨.finished, .nothing⟩)
      ⟨.initial, .nothing⟩ := by
  simp only [loop, call_bind, follows_act]
  refine ⟨.setLooping, fun _ => ⟨.clearQuit, fun _ => ?_⟩⟩
  apply follows_seq _ _ _ _ _ ⟨.leaving, .nothing⟩ (iterate_follows job rounds)
  exact fun _ => ⟨.clearLooping, fun _ => rfl⟩

theorem quit_follows (job : Job F) :
    Follows (monitor job) quit (fun _ mark => mark = ⟨.outside, .nothing⟩) ⟨.outside, .nothing⟩ :=
  ⟨.noteQuit, fun _ => ⟨.storeQuit, fun _ => ⟨.writeQuit, fun _ => rfl⟩⟩⟩

/-- Every job keeps to the protocol. -/
theorem program_follows (job : Job F) : Tied monitor final (start job) (job, program job) := by
  unfold Tied
  cases job with
  | loop rounds =>
      exact follows_mono _ _ _ _ (fun _ mark ended => by rw [final, ended]) _
        (loop_follows _ rounds)
  | queueInLoop cb =>
      exact ⟨.appendOutside cb, fun position => ⟨.writeOutside cb position rfl, fun _ =>
        ⟨.noteReturn .outside position, fun _ => rfl⟩⟩⟩
  | quit => exact follows_mono _ _ _ _ (fun _ mark ended => by rw [final, ended]) _ (quit_follows _)
  | threadFunc rounds =>
      simp only [program, threadFunc, call_bind, follows_act]
      refine ⟨.threadInit, fun cbs => ?_⟩
      apply follows_seq _ _ _ _ _ ⟨.preparing, .nothing⟩ (queueAll_follows _ .preparing rfl cbs)
      intro _
      refine ⟨.publish, fun _ => ?_⟩
      apply follows_seq _ _ _ _ _ ⟨.finished, .nothing⟩ (loop_follows _ rounds)
      exact fun _ => ⟨.retract, fun _ => rfl⟩
  | startLoop => exact ⟨.start, fun _ => ⟨.awaitLoop, fun _ => rfl⟩⟩
  | destructor =>
      simp only [program, destructor, call_bind, follows_act]
      refine ⟨.loadLoop, fun loop => ?_⟩
      cases loop with
      | false => rfl
      | true =>
          apply follows_seq _ _ _ _ _ ⟨.outside, .nothing⟩ (quit_follows _)
          exact fun _ => ⟨.join, fun _ => rfl⟩

/-! There is one loop thread, and its phase tells what it has written. -/

def inside (mark : Mark F) : Bool :=
  match mark.phase with
  | .outside => false
  | _ => true

def Knows (shared : Shared F) : Phase F → Prop
  | .preparing => shared.entered = false
  | .initial => shared.entered = false
  | .clearing => shared.entered = false
  | .swapping => shared.callingPendingFunctors_ = true
  | .running _ => shared.callingPendingFunctors_ = true
  | _ => True

structure Sound (shared : Shared F) (marks : List (Mark F)) : Prop where
  single : marks.countP inside ≤ 1
  vacant : shared.owned = false → shared.entered = false ∧ ∀ mark ∈ marks, inside mark = false
  knows : ∀ mark ∈ marks, Knows shared mark.phase

theorem inside_after (job : Job F) (mark : Mark F) (op : Op F) (result : Res op)
    (moves : Allowed job mark op)
    (within : inside ⟨nextPhase mark.phase op result, nextCall mark op result⟩ = true) :
    inside mark = true := by
  cases moves <;> first | rfl | exact within

theorem owned_kept (shared : Shared F) (op : Op F) : (effect shared op).owned = shared.owned := by
  cases op <;> rfl

theorem knows_after (shared : Shared F) (job : Job F) (mark : Mark F) (op : Op F) (result : Res op)
    (moves : Allowed job mark op) (known : Knows shared mark.phase) :
    Knows (effect shared op) (nextPhase mark.phase op result) := by
  cases moves with
  | append phase cb queuing => cases phase <;> exact known
  | loadCalling phase position queuing => cases phase <;> exact known
  | write phase position queuing => cases phase <;> exact known
  | noteReturn phase position => cases phase <;> exact known
  | loadQuit => cases result <;> trivial
  | _ => trivial

/-- The flags of the loop are written by the loop thread alone. -/
theorem knows_outside (shared : Shared F) (job : Job F) (mark : Mark F) (op : Op F)
    (moves : Allowed job mark op)
    (away : inside mark = false) (phase : Phase F) (known : Knows shared phase) :
    Knows (effect shared op) phase ∧ (effect shared op).entered = shared.entered := by
  have same : (effect shared op).entered = shared.entered ∧
      (effect shared op).callingPendingFunctors_ = shared.callingPendingFunctors_ := by
    cases moves <;> first | exact ⟨rfl, rfl⟩ | simp_all [inside, effect]
  refine ⟨?_, same.1⟩
  cases phase <;> first | trivial | exact same.1.trans known | exact same.2.trans known

theorem outside_phase (mark : Mark F) (away : inside mark = false) : mark.phase = .outside := by
  cases phase : mark.phase <;> simp [inside, phase] at away ⊢

/-- The other threads are outside while the loop thread moves. -/
theorem others_outside (left right : List (Mark F)) (mark : Mark F)
    (single : (left ++ mark :: right).countP inside ≤ 1) (within : inside mark = true)
    (other : Mark F)
    (member : other ∈ left ++ right) : other.phase = .outside :=
  outside_phase other (countP_alone inside left right mark within single other member)

theorem sound_step (shared : Shared F) (left right : List (Mark F)) (job : Job F) (mark : Mark F)
    (op : Op F)
    (result : Res op) (sound : Sound shared (left ++ mark :: right)) (moves : Allowed job mark op) :
    Sound (effect shared op) (left ++ ⟨nextPhase mark.phase op result,
      nextCall mark op result⟩ :: right) := by
  obtain ⟨single, vacant, knows⟩ := sound
  have within := inside_after job mark op result moves
  rw [forall_replace (fun other : Mark F => Knows shared other.phase)] at knows
  constructor
  · exact countP_replace inside left right mark _ single within
  · intro free
    rw [owned_kept] at free
    obtain ⟨entered, nobody⟩ := vacant free
    rw [forall_replace (fun other : Mark F => inside other = false)] at nobody ⊢
    refine ⟨?_, ?_, nobody.2⟩
    · rw [(knows_outside shared job mark op moves nobody.1 mark.phase knows.1).2]
      exact entered
    · by_contra entering
      rw [Bool.not_eq_false] at entering
      have before := within entering
      rw [nobody.1] at before
      cases before
  · rw [forall_replace (fun other : Mark F => Knows (effect shared op) other.phase)]
    refine ⟨knows_after shared job mark op result moves knows.1, fun other member => ?_⟩
    cases here : inside mark with
    | true =>
        rw [others_outside left right mark single here other member]
        trivial
    | false =>
        exact (knows_outside shared job mark op moves here other.phase (knows.2 other member)).1

/-- A job that starts touches nothing of the loop but the mark that a thread owns it. -/
theorem launch_frame (shared after : Shared F) (job : Job F)
    (launched : launch job shared = some after) :
    ∃ owned, after = { shared with owned := owned } := by
  cases job with
  | loop rounds =>
      simp only [launch] at launched
      split at launched
      · cases launched
      · exact ⟨true, (Option.some.inj launched).symm⟩
  | threadFunc rounds =>
      simp only [launch] at launched
      split at launched
      · exact ⟨true, (Option.some.inj launched).symm⟩
      · cases launched
  | _ => exact ⟨shared.owned, (Option.some.inj launched).symm⟩

theorem sound_spawn (shared after : Shared F) (marks : List (Mark F)) (job : Job F)
    (sound : Sound shared marks)
    (launched : launch job shared = some after) : Sound after (marks ++ [start job]) := by
  obtain ⟨single, vacant, knows⟩ := sound
  have outsider : ∀ mark : Mark F, mark = ⟨.outside, .nothing⟩ → after = shared →
      Sound after (marks ++ [mark]) := by
    rintro mark rfl rfl
    constructor
    · simpa [inside] using single
    · exact fun free => ⟨(vacant free).1, forall_append_one _ marks _ rfl (vacant free).2⟩
    · exact forall_append_one (fun mark : Mark F => Knows after mark.phase) marks _ trivial knows
  have owner : ∀ mark : Mark F, (shared.entered = false → Knows shared mark.phase) →
      shared.owned = false →
      after = { shared with owned := true } → Sound after (marks ++ [mark]) := by
    rintro mark known free rfl
    obtain ⟨entered, nobody⟩ := vacant free
    have moved : ∀ phase : Phase F, Knows shared phase →
        Knows { shared with owned := true } phase := by
      intro phase old
      cases phase <;> exact old
    constructor
    · exact countP_append_one inside marks mark single fun _ => nobody
    · intro owned
      simp at owned
    · exact forall_append_one _ marks mark (moved mark.phase (known entered)) fun mark member =>
        moved mark.phase (knows mark member)
  cases job with
  | loop rounds =>
      simp only [launch] at launched
      split at launched
      · cases launched
      · rename_i free
        cases launched
        exact owner ⟨.initial, .nothing⟩ id (by simpa using free) rfl
  | threadFunc rounds =>
      simp only [launch] at launched
      split at launched
      · rename_i free
        cases launched
        exact owner ⟨.preparing, .nothing⟩ id free.2 rfl
      · cases launched
  | _ =>
      cases launched
      exact outsider ⟨.outside, .nothing⟩ rfl rfl

theorem constructed_sound (waiting : List F) (count : Nat) :
    Sound (constructed waiting count).shared [] := by
  constructor <;> simp [constructed]

end Protocol
end MuduoChat.EventLoop
