import MuduoChat.ConnectionOutput
import MuduoChat.Interleaving

/-!
TcpConnection::send from a thread that is not the connection's loop. The task it
queues holds a pointer and a length, not the bytes: sendInLoop reads the string's
storage when the loop gets to the task, once in `::write` and once more for what
the kernel did not take. Memory is one run of cells, of which those of live
objects hold a byte. A caller that modifies or reuses the string stores to its
cells, one that destroys it leaves them dead, and a dead cell reads as anything.
What else the loop thread does to the connection (events, connectDestroyed,
callbacks) is any list of the operations these functions consist of. `held`,
`handing` and `handed` are records for the statements: the bytes at the call, and
what sendInLoop passed on.
-/

namespace MuduoChat.SendPointers
open ByteBuffer EPollPoller ConnectionOutput Interleaving

abbrev Memory := Nat → Option UInt8

def cells (memory : Memory) (data len : Nat) : List (Option UInt8) :=
    (List.range' data len).map memory

/-- The bytes of `[data, data + len)`, where a dead cell reads as `stale` has it. -/
def load (stale : Nat → UInt8) (memory : Memory) (data len : Nat) : Bytes :=
  (List.range' data len).map fun cell => (memory cell).getD (stale cell)

def release (memory : Memory) (data len : Nat) : Memory := fun cell =>
  if data ≤ cell ∧ cell < data + len then none else memory cell

/-- What the kernel answers a step, and what dead memory reads as in it. -/
structure Answer where
  write : WriteAnswer
  stale : Nat → UInt8

/-- `buf.c_str()` and `buf.size()`, with what the string held at the call. -/
structure Argument where
  data : Nat
  len : Nat
  held : Bytes
  deriving DecidableEq

/-- A task of this connection in pendingFunctors_. -/
inductive Task where
  | sendInLoop (buf : Argument)
  | shutdownInLoop
  deriving DecidableEq

/-- What one sendInLoop passed to the socket and to outputBuffer_. -/
structure Handing where
  held : Bytes
  bytes : Bytes
  faultError : Bool
  deriving DecidableEq

structure Shared (C : Type) where
  conn : TcpConnection C
  memory : Memory
  pendingFunctors_ : List Task
  functors : List Task
  busy : Bool
  handing : Option Handing
  handed : List Handing

/-- What the loop thread does to the connection besides sendInLoop. -/
inductive LoopOp where
  | setState (state : StateE)
  | channel (op : ChannelOp)
  | sendOpen (data : Bytes)
  | drain
  | shutdownInLoop
  deriving DecidableEq

inductive Op where
  | loadState
  | setState (state : StateE)
  | queueInLoop (task : Task)
  | store (address : Nat) (byte : UInt8)
  | destroy (data len : Nat)
  | writeDirectly (buf : Argument)
  | keepRest (data len : Nat)
  | work (op : LoopOp)
  | leave
  deriving DecidableEq

/-- sendInLoop's direct write answers nwrote and faultError. -/
abbrev Res : Op → Type
  | .loadState => StateE
  | .writeDirectly _ => Nat × Bool
  | _ => Unit

section Operations
variable {C : Type} [DecidableEq C]

def work (answer : WriteAnswer) : LoopOp → TcpConnection C → Option (TcpConnection C)
  | .setState state, conn => some { conn with state_ := state }
  | .channel op, conn => channelCall op conn
  | .sendOpen data, conn => sendOpen answer data conn
  | .drain, conn => (drain answer conn).map Prod.snd
  | .shutdownInLoop, conn => some (shutdownInLoop conn)

def perform (answer : Answer) : (op : Op) → Shared C → Option (Res op × Shared C)
  | .loadState, shared => some (shared.conn.state_, shared)
  | .setState state, shared => some ((),
      { shared with conn := { shared.conn with state_ := state } })
  | .queueInLoop task, shared =>
      some ((), { shared with pendingFunctors_ := shared.pendingFunctors_ ++ [task] })
  | .store address byte, shared =>
      some ((), { shared with memory := Function.update shared.memory address (some byte) })
  | .destroy data len, shared => some ((), { shared with memory := release shared.memory data len })
  | .writeDirectly buf, shared =>
      let result := writeDirectly answer.write
        (load answer.stale shared.memory buf.data buf.len) shared.conn
      let taken := result.2.2.accepted.drop shared.conn.accepted.length
      some ((result.1, result.2.1),
        { shared with conn := result.2.2, handing := some ⟨buf.held, taken, result.2.1⟩ })
  | .keepRest data len, shared =>
      let rest := load answer.stale shared.memory data len
      (keepRest rest shared.conn).map fun conn =>
        ((), { shared with
          conn := conn
          handing := shared.handing.map fun record =>
            { record with bytes := record.bytes ++ rest } })
  | .work op, shared => (work answer.write op shared.conn).map fun conn =>
      ((), { shared with conn := conn })
  | .leave, shared => some ((), { shared with
      busy := false
      handing := none
      handed := shared.handed ++ shared.handing.toList })

end Operations

/-! The functions, operation by operation. -/

abbrev Program := Prog Op Res Unit

/-- send() outside the loop thread: runInLoop() queues. -/
def send (buf : Argument) : Program := do
  let state ← call Op.loadState
  if state = .kConnected then call (Op.queueInLoop (.sendInLoop buf)) else pure ()

def sendInLoop (buf : Argument) : Program := do
  let state ← call Op.loadState
  if state = .kDisconnected then pure ()
  else do
    let written ← call (Op.writeDirectly buf)
    if written.2 = false ∧ 0 < buf.len - written.1 then
      call (Op.keepRest (buf.data + written.1) (buf.len - written.1))
    else pure ()

def shutdown : Program := do
  let state ← call Op.loadState
  if state = .kConnected then do
    call (Op.setState .kDisconnecting)
    call (Op.queueInLoop .shutdownInLoop)
  else pure ()

def workAll : List LoopOp → Program
  | [] => pure ()
  | op :: rest => do
      call (Op.work op)
      workAll rest

/-! What threads start: calls of other threads and what they do to their strings,
and jobs of the loop. -/

inductive Job where
  | send (buf : Argument)
  | store (address : Nat) (byte : UInt8)
  | destroy (data len : Nat)
  | shutdown
  | swap
  | functor (task : Task)
  | work (ops : List LoopOp)
  deriving DecidableEq

/-- A loop job ends with the loop thread free for the next one. -/
def whole (body : Program) : Program := do
  body
  call Op.leave

def program : Job → Program
  | .send buf => send buf
  | .store address byte => call (Op.store address byte)
  | .destroy data len => call (Op.destroy data len)
  | .shutdown => shutdown
  | .swap => pure ()
  | .functor (.sendInLoop buf) => whole (sendInLoop buf)
  | .functor .shutdownInLoop => whole (call (Op.work .shutdownInLoop))
  | .work ops => whole (workAll ops)

section System
variable {C : Type} [DecidableEq C]

/-- How a job starts, where it can. -/
def launch : Job → Shared C → Option (Shared C)
  | .send buf, shared =>
      if cells shared.memory buf.data buf.len = buf.held.map some then some shared else none
  | .store _ _, shared => some shared
  | .destroy _ _, shared => some shared
  | .shutdown, shared => some shared
  | .swap, shared =>
      if shared.functors = [] ∧ shared.busy = false then
        some { shared with functors := shared.pendingFunctors_, pendingFunctors_ := [] }
      else none
  | .functor task, shared =>
      match shared.functors with
      | [] => none
      | next :: rest =>
          if next = task ∧ shared.busy = false then
            some { shared with functors := rest, busy := true } else none
  | .work _, shared => if shared.busy then none else some { shared with busy := true }

def threads : System (Shared C) Job Op Res Answer where
  program := program
  launch := launch
  perform := perform

abbrev Threads (C : Type) := Pool (Shared C) Job Op Res

end System

/-! The protocol: which bytes a thread has still to read. -/

inductive Mark where
  | outside
  | calling (buf : Argument)
  | begun (buf : Argument)
  | keeping (data len : Nat)
  | finishing
  deriving DecidableEq

inductive Allowed : Job → Mark → Op → Prop
  | sendState (buf) : Allowed (.send buf) (.calling buf) .loadState
  | sendQueue (buf) : Allowed (.send buf) (.calling buf) (.queueInLoop (.sendInLoop buf))
  | store (address byte) : Allowed (.store address byte) .outside (.store address byte)
  | destroy (data len) : Allowed (.destroy data len) .outside (.destroy data len)
  | shutdownState : Allowed .shutdown .outside .loadState
  | shutdownSet : Allowed .shutdown .outside (.setState .kDisconnecting)
  | shutdownQueue : Allowed .shutdown .outside (.queueInLoop .shutdownInLoop)
  | begunState (buf) : Allowed (.functor (.sendInLoop buf)) (.begun buf) .loadState
  | begunWrite (buf) : Allowed (.functor (.sendInLoop buf)) (.begun buf) (.writeDirectly buf)
  | keepRest (buf data len) : Allowed (.functor (.sendInLoop buf)) (.keeping data len)
      (.keepRest data len)
  | work (job op) : Allowed job .finishing (.work op)
  | leave (job) : Allowed job .finishing .leave

def nextMark : Mark → (op : Op) → Res op → Mark
  | .calling buf, .loadState, state => if state = .kConnected then .calling buf else .outside
  | .calling _, .queueInLoop _, _ => .outside
  | .begun buf, .loadState, state => if state = .kDisconnected then .finishing else .begun buf
  | .begun buf, .writeDirectly _, written =>
      if written.2 = false ∧ 0 < buf.len - written.1 then
        .keeping (buf.data + written.1) (buf.len - written.1)
      else .finishing
  | .keeping _ _, .keepRest _ _, _ => .finishing
  | .finishing, .leave, _ => .outside
  | mark, _, _ => mark

def monitor (job : Job) : Monitor Op Res Mark := ⟨Allowed job, nextMark⟩

def start : Job → Mark
  | .send buf => .calling buf
  | .functor (.sendInLoop buf) => .begun buf
  | .functor .shutdownInLoop => .finishing
  | .work _ => .finishing
  | _ => .outside

def final (mark : Mark) : Prop := mark = .outside

@[simp] theorem monitor_allowed (job : Job) (mark : Mark) (op : Op) :
    (monitor job).allowed mark op ↔ Allowed job mark op := Iff.rfl

@[simp] theorem monitor_after (job : Job) (mark : Mark) (op : Op) (result : Res op) :
    (monitor job).after mark op result = nextMark mark op result := rfl

theorem work_follows (job : Job) (ops : List LoopOp) :
    Follows (monitor job) (workAll ops) (fun _ last => last = .finishing) .finishing := by
  induction ops with
  | nil => rfl
  | cons op rest ih => exact ⟨Allowed.work job op, fun _ => ih⟩

theorem whole_follows (job : Job) (body : Program) (mark : Mark)
    (follows : Follows (monitor job) body (fun _ last => last = .finishing) mark) :
    Follows (monitor job) (whole body) (fun _ => final) mark := by
  apply follows_seq (monitor job) body _ _ mark .finishing follows
  intro _
  exact ⟨Allowed.leave job, fun _ => rfl⟩

theorem sendInLoop_follows (buf : Argument) :
    Follows (monitor (.functor (.sendInLoop buf))) (sendInLoop buf)
      (fun _ last => last = .finishing)
      (.begun buf) := by
  refine ⟨Allowed.begunState buf, fun state => ?_⟩
  by_cases closed : state = StateE.kDisconnected
  · simp [closed, nextMark]
  · simp only [bind_eq_bind, done_bind, closed, if_false, monitor_after, nextMark]
    refine ⟨Allowed.begunWrite buf, fun written => ?_⟩
    by_cases left : written.2 = false ∧ 0 < buf.len - written.1
    · simp only [done_bind, bind_eq_bind, left, and_self, if_true, monitor_after, nextMark]
      exact ⟨Allowed.keepRest buf _ _, fun _ => rfl⟩
    · simp only [done_bind, bind_eq_bind, monitor_after, nextMark, if_neg left]
      rfl

theorem program_follows (job : Job) :
    Follows (monitor job) (program job) (fun _ => final) (start job) := by
  cases job with
  | send buf =>
      refine ⟨Allowed.sendState buf, fun state => ?_⟩
      by_cases open_ : state = StateE.kConnected
      · simp only [bind_eq_bind, done_bind, open_, if_true, monitor_after, nextMark]
        exact ⟨Allowed.sendQueue buf, fun _ => rfl⟩
      · simp [open_, nextMark, final, start]
  | store address byte => exact ⟨Allowed.store address byte, fun _ => rfl⟩
  | destroy data len => exact ⟨Allowed.destroy data len, fun _ => rfl⟩
  | shutdown =>
      refine ⟨Allowed.shutdownState, fun state => ?_⟩
      by_cases open_ : state = StateE.kConnected
      · simp only [bind_eq_bind, done_bind, open_, if_true]
        exact ⟨Allowed.shutdownSet, fun _ => ⟨Allowed.shutdownQueue, fun _ => rfl⟩⟩
      · simp [open_, nextMark, final, start]
  | swap => rfl
  | functor task =>
      cases task with
      | sendInLoop buf => exact whole_follows _ _ _ (sendInLoop_follows buf)
      | shutdownInLoop => exact whole_follows _ _ _ ⟨Allowed.work _ .shutdownInLoop, fun _ => rfl⟩
  | work ops => exact whole_follows _ _ _ (work_follows _ ops)

section Bytes
variable {C : Type}

theorem load_length (stale : Nat → UInt8) (memory : Memory) (data len : Nat) :
    (load stale memory data len).length = len := by
  simp [load]

/-- Live memory reads as it is. -/
theorem load_live (stale : Nat → UInt8) (memory : Memory) (data len : Nat) (bytes : Bytes)
    (live : cells memory data len = bytes.map some) : load stale memory data len = bytes := by
  have whole := congrArg (List.map fun cell => cell.getD 0) live
  have same : load stale memory data len = (cells memory data len).map fun cell => cell.getD 0 := by
    rw [cells, load, List.map_map]
    apply List.map_congr_left
    intro cell member
    have held : memory cell ∈ bytes.map some := live ▸ List.mem_map_of_mem member
    obtain ⟨byte, _, present⟩ := List.mem_map.mp held
    simp [← present]
  rw [same, whole]
  simp

/-- Pointer arithmetic: the cells from `data + count` on are all but the first `count`. -/
theorem cells_drop (memory : Memory) (data len count : Nat) :
    cells memory (data + count) (len - count) = (cells memory data len).drop count := by
  simp [cells, ← List.map_drop, List.drop_range']

def Kept (memory after : Memory) (range : Nat × Nat) : Prop :=
  ∀ cell, range.1 ≤ cell → cell < range.1 + range.2 → after cell = memory cell

theorem cells_kept (memory after : Memory) (data len : Nat) (kept : Kept memory after (data, len)) :
    cells after data len = cells memory data len := by
  apply List.map_congr_left
  intro cell member
  rw [List.mem_range'_1] at member
  exact kept cell member.1 member.2

/-- The bytes the direct write adds to the socket are the first nwrote of the string. -/
theorem written_taken (answer : WriteAnswer) (data : Bytes) (conn : TcpConnection C) :
    (writeDirectly answer data conn).2.2.accepted =
      conn.accepted ++ data.take (writeDirectly answer data conn).1 := by
  unfold writeDirectly
  by_cases ready : (!isWriting conn && readableBytes conn.outputBuffer_ == 0) = true
  · simp only [ready, if_true]
    by_cases some_ : 0 < answer.ret
    · simp only [some_, if_true]
      split
      · simp only [tellWriteComplete]
        split <;> rfl
      · rfl
    · have none_ : answer.ret.toNat = 0 := by omega
      simp [some_, write, none_]
  · simp [ready]

end Bytes

/-! What keeps the bytes as they were: none that is still to be read is changed or freed. -/

def onLoop : Mark → Bool
  | .begun _ => true
  | .keeping _ _ => true
  | .finishing => true
  | _ => false

/-- A sendInLoop that is over has passed on the string it was called with, unless
the write failed. -/
def Complete (record : Handing) : Prop :=
  record.bytes <+: record.held ∧ (record.faultError = false → record.bytes = record.held)

instance (record : Handing) : Decidable (Complete record) := inferInstanceAs (Decidable (_ ∧ _))

section Invariant
variable {C : Type}

def Intact (memory : Memory) (buf : Argument) : Prop :=
    cells memory buf.data buf.len = buf.held.map some

def Holds (shared : Shared C) : Mark → Prop
  | .outside => True
  | .calling buf => Intact shared.memory buf
  | .begun buf => Intact shared.memory buf ∧ shared.handing = none
  | .keeping data len => ∃ record rest, shared.handing = some record ∧
      cells shared.memory data len = rest.map some ∧ record.bytes ++ rest = record.held
  | .finishing => ∀ record, shared.handing = some record → Complete record

structure Inv (shared : Shared C) (marks : List Mark) : Prop where
  single : marks.countP onLoop ≤ 1
  idle : shared.busy = false → shared.handing = none ∧ ∀ mark ∈ marks, onLoop mark = false
  holds : ∀ mark ∈ marks, Holds shared mark
  queued : ∀ buf, .sendInLoop buf ∈ shared.pendingFunctors_ ∨ .sendInLoop buf ∈ shared.functors →
    Intact shared.memory buf
  begun : ∀ record, shared.handing = some record → record.bytes <+: record.held
  handed : ∀ record ∈ shared.handed, Complete record

theorem holds_frame (shared after : Shared C) (mark : Mark) (outside : onLoop mark = false)
    (memory : after.memory = shared.memory) (holds : Holds shared mark) : Holds after mark := by
  cases mark with
  | outside => trivial
  | calling buf =>
      rw [Holds, memory]
      exact holds
  | _ => cases outside

theorem holds_same (shared after : Shared C) (mark : Mark) (memory : after.memory = shared.memory)
    (handing : after.handing = shared.handing) (holds : Holds shared mark) : Holds after mark := by
  cases mark with
  | outside => trivial
  | _ => simpa [Holds, memory, handing] using holds

theorem loop_busy (shared : Shared C) (left right : List Mark) (mark : Mark)
    (here : onLoop mark = true)
    (inv : Inv shared (left ++ mark :: right)) : shared.busy = true := by
  cases busy : shared.busy with
  | true => rfl
  | false =>
      have off := (inv.idle busy).2 mark (by simp)
      rw [here] at off
      cases off

/-- What the loop thread's own step has to keep: the other threads are off the loop. -/
theorem inv_loop (shared after : Shared C) (left right : List Mark) (mark new : Mark)
    (here : onLoop mark = true)
    (inv : Inv shared (left ++ mark :: right)) (same : after.memory = shared.memory ∧
      after.pendingFunctors_ = shared.pendingFunctors_ ∧ after.functors = shared.functors)
    (holds : Holds after new) (idle : after.busy = false → after.handing = none ∧
      onLoop new = false)
    (begun : ∀ record, after.handing = some record → record.bytes <+: record.held)
    (handed : ∀ record ∈ after.handed, Complete record) : Inv after (left ++ new :: right) := by
  have others := countP_alone onLoop left right mark here inv.single
  obtain ⟨memory, pending, batch⟩ := same
  constructor
  case single => exact countP_replace onLoop left right mark new inv.single fun _ => here
  case idle =>
    intro free
    obtain ⟨none_, off⟩ := idle free
    exact ⟨none_, (forall_replace (fun other => onLoop other = false) left right new).mpr
      ⟨off, others⟩⟩
  case holds =>
    apply (forall_replace (Holds after) left right new).mpr
    refine ⟨holds, fun other member => ?_⟩
    apply holds_frame shared after other (others other member) memory
    exact ((forall_replace (Holds shared) left right mark).mp inv.holds).2 other member
  case queued =>
    rw [pending, batch, memory]
    exact inv.queued
  case begun => exact begun
  case handed => exact handed

/-- A step of another thread that leaves the memory as it is. -/
theorem inv_other (shared after : Shared C) (left right : List Mark) (mark new : Mark)
    (off : onLoop new = false)
    (inv : Inv shared (left ++ mark :: right)) (memory : after.memory = shared.memory)
    (handing : after.handing = shared.handing) (handed : after.handed = shared.handed)
    (busy : after.busy = shared.busy) (batch : after.functors = shared.functors)
    (holds : Holds after new)
    (queued : ∀ buf, .sendInLoop buf ∈ after.pendingFunctors_ →
      .sendInLoop buf ∈ shared.pendingFunctors_ ∨
      Intact shared.memory buf) : Inv after (left ++ new :: right) := by
  constructor
  case single => exact countP_replace onLoop left right mark new inv.single (by simp [off])
  case idle =>
    rw [busy, handing]
    intro free
    obtain ⟨none_, outside⟩ := inv.idle free
    have others := ((forall_replace
      (fun other => onLoop other = false) left right mark).mp outside).2
    exact ⟨none_, (forall_replace (fun other => onLoop other = false) left right new).mpr
      ⟨off, others⟩⟩
  case holds =>
    apply (forall_replace (Holds after) left right new).mpr
    refine ⟨holds, fun other member => ?_⟩
    apply holds_same shared after other memory handing
    exact ((forall_replace (Holds shared) left right mark).mp inv.holds).2 other member
  case queued =>
    rw [memory, batch]
    rintro buf (waits | taken)
    · rcases queued buf waits with before | kept
      · exact inv.queued buf (Or.inl before)
      · exact kept
    · exact inv.queued buf (Or.inr taken)
  case begun =>
    rw [handing]
    exact inv.begun
  case handed =>
    rw [handed]
    exact inv.handed

/-- The bytes a thread has still to read. -/
def reads : Mark → Option (Nat × Nat)
  | .calling buf => some (buf.data, buf.len)
  | .begun buf => some (buf.data, buf.len)
  | .keeping data len => some (data, len)
  | _ => none

theorem holds_memory (shared : Shared C) (memory : Memory) (mark : Mark)
    (kept : ∀ range, reads mark = some range → Kept shared.memory memory range)
    (holds : Holds shared mark) : Holds { shared with memory := memory } mark := by
  cases mark with
  | outside => trivial
  | calling buf => exact (cells_kept _ _ _ _ (kept _ rfl)).trans holds
  | begun buf => exact ⟨(cells_kept _ _ _ _ (kept _ rfl)).trans holds.1, holds.2⟩
  | keeping data len =>
      obtain ⟨record, rest, handing, live, whole⟩ := holds
      exact ⟨record, rest, handing, (cells_kept _ _ _ _ (kept _ rfl)).trans live, whole⟩
  | finishing => exact holds

theorem memory_inv (shared : Shared C) (memory : Memory) (marks : List Mark)
    (inv : Inv shared marks)
    (kept : ∀ mark ∈ marks, ∀ range, reads mark = some range → Kept shared.memory memory range)
    (tasks : ∀ buf, .sendInLoop buf ∈ shared.pendingFunctors_ ∨ .sendInLoop buf ∈ shared.functors →
      Kept shared.memory memory (buf.data, buf.len)) :
    Inv { shared with memory := memory } marks := by
  constructor
  case single => exact inv.single
  case idle => exact inv.idle
  case holds =>
    exact fun mark member => holds_memory shared memory mark (kept mark member)
      (inv.holds mark member)
  case queued =>
    intro buf waits
    exact (cells_kept _ _ _ _ (tasks buf waits)).trans (inv.queued buf waits)
  case begun => exact inv.begun
  case handed => exact inv.handed

end Invariant

section Steps
variable {C : Type} [DecidableEq C]

/-- sendInLoop's own two reads, both of memory that still holds the bytes of the call. -/
theorem write_inv (answer : Answer) (shared : Shared C) (left right : List Mark) (buf : Argument)
    (result : Nat × Bool) (after : Shared C) (inv : Inv shared (left ++ .begun buf :: right))
    (performed : perform answer (.writeDirectly buf) shared = some (result, after)) :
    Inv after (left ++ nextMark (.begun buf) (.writeDirectly buf) result :: right) := by
  have intact := (inv.holds (.begun buf) (by simp)).1
  have busy := loop_busy shared left right (.begun buf) rfl inv
  simp only [perform, Option.some.injEq, Prod.mk.injEq] at performed
  obtain ⟨rfl, rfl⟩ := performed
  have read := load_live answer.stale shared.memory buf.data buf.len buf.held intact
  have length := load_length answer.stale shared.memory buf.data buf.len
  rw [read] at length ⊢
  have taken := written_taken answer.write buf.held shared.conn
  generalize writeDirectly answer.write buf.held shared.conn = result at taken ⊢
  have bytes : result.2.2.accepted.drop shared.conn.accepted.length = buf.held.take result.1 := by
    rw [taken, List.drop_left]
  have first : result.2.2.accepted.drop shared.conn.accepted.length <+: buf.held := by
    rw [bytes]
    exact List.take_prefix result.1 buf.held
  apply inv_loop shared _ left right (.begun buf) _ rfl inv
  · exact ⟨rfl, rfl, rfl⟩
  · simp only [nextMark]
    split
    · refine ⟨_, buf.held.drop result.1, rfl, ?_, ?_⟩
      · rw [cells_drop, intact, List.map_drop]
      · simp only
        rw [bytes, List.take_append_drop]
    · rename_i stops
      rintro record same
      cases same
      refine ⟨first, fun healthy => ?_⟩
      simp only at healthy ⊢
      rw [bytes, List.take_of_length_le]
      simp only [healthy, true_and, Nat.not_lt] at stops
      omega
  · simp [busy]
  · rintro record same
    cases same
    exact first
  · exact inv.handed

theorem rest_inv (answer : Answer) (shared : Shared C) (left right : List Mark) (data len : Nat)
    (after : Shared C) (inv : Inv shared (left ++ .keeping data len :: right))
    (performed : perform answer (.keepRest data len) shared = some ((), after)) :
    Inv after (left ++ .finishing :: right) := by
  obtain ⟨record, rest, handing, live, whole⟩ := inv.holds (.keeping data len) (by simp)
  have read := load_live answer.stale shared.memory data len rest live
  have busy := loop_busy shared left right (.keeping data len) rfl inv
  simp only [perform, Option.map_eq_some_iff, Prod.mk.injEq, true_and] at performed
  obtain ⟨conn, stored, rfl⟩ := performed
  have complete : ∀ last, (shared.handing.map fun record =>
      { record with bytes := record.bytes ++ load answer.stale shared.memory data len }) =
        some last →
      Complete last := by
    rw [handing, read]
    rintro last same
    cases same
    simp only [whole]
    exact ⟨List.prefix_refl _, fun _ => rfl⟩
  apply inv_loop shared _ left right (.keeping data len) .finishing rfl inv
  · exact ⟨rfl, rfl, rfl⟩
  · exact complete
  · simp [busy]
  · exact fun last same => (complete last same).1
  · exact inv.handed

omit [DecidableEq C] in
theorem leave_inv (shared : Shared C) (left right : List Mark)
    (inv : Inv shared (left ++ .finishing :: right)) :
    Inv { shared with busy := false, handing := none,
                      handed := shared.handed ++ shared.handing.toList }
      (left ++ .outside :: right) := by
  have complete : ∀ record, shared.handing = some record → Complete record :=
    inv.holds .finishing (by simp)
  apply inv_loop shared _ left right .finishing .outside rfl inv
  · exact ⟨rfl, rfl, rfl⟩
  · exact trivial
  · exact fun _ => ⟨rfl, rfl⟩
  · intro record none_
    cases none_
  · intro record member
    rcases List.mem_append.mp member with before | last
    · exact inv.handed record before
    · exact complete record (by simpa using last)

/-- What is left of the memory's bytes to be read, by threads and by waiting tasks. -/
def unread : Job × Program → Option (Nat × Nat)
  | (.send buf, .act _ _) => some (buf.data, buf.len)
  | (.functor _, .act (.keepRest data len) _) => some (data, len)
  | (.functor (.sendInLoop buf), .act .loadState _) => some (buf.data, buf.len)
  | (.functor (.sendInLoop buf), .act (.writeDirectly _) _) => some (buf.data, buf.len)
  | _ => none

def waiting : Task → Option (Nat × Nat)
  | .sendInLoop buf => some (buf.data, buf.len)
  | .shutdownInLoop => none

def unreadRanges (pool : Threads C) : List (Nat × Nat) :=
  pool.threads.filterMap unread ++
    (pool.shared.pendingFunctors_ ++ pool.shared.functors).filterMap waiting

def Apart (memory : Memory) (address : Nat) (byte : UInt8) (range : Nat × Nat) : Prop :=
  memory address = some byte ∨ address < range.1 ∨ range.1 + range.2 ≤ address

def Disjoint (data len : Nat) (range : Nat × Nat) : Prop :=
  min (data + len) (range.1 + range.2) ≤ max data range.1

instance (memory : Memory) (address : Nat) (byte : UInt8) (range : Nat × Nat) :
    Decidable (Apart memory address byte range) := inferInstanceAs (Decidable (_ ∨ _))

instance (data len : Nat) (range : Nat × Nat) : Decidable (Disjoint data len range) :=
  inferInstanceAs (Decidable (_ ≤ _))

theorem apart_kept (memory : Memory) (address : Nat) (byte : UInt8) (range : Nat × Nat)
    (apart : Apart memory address byte range) :
    Kept memory (Function.update memory address (some byte)) range := by
  intro cell above below
  by_cases same : cell = address
  · subst same
    rcases apart with kept | outside | outside
    · rw [Function.update_self, kept]
    · omega
    · omega
  · exact Function.update_of_ne same _ memory

theorem disjoint_kept (memory : Memory) (data len : Nat) (range : Nat × Nat)
    (disjoint : Disjoint data len range) :
    Kept memory (release memory data len) range := by
  intro cell above below
  rw [Disjoint] at disjoint
  rw [release, if_neg (by omega)]

/-- Between the call of send() and the end of its sendInLoop the string outlives
what is still to be read of it, and none of these bytes changes. -/
def Undisturbed (pool : Threads C) : Action Job Answer → Prop
  | .spawn _ => True
  | .step thread _ =>
      match pool.aboutTo thread with
      | some (_, .store address byte) =>
          ∀ range ∈ unreadRanges pool, Apart pool.shared.memory address byte range
      | some (_, .destroy data len) => ∀ range ∈ unreadRanges pool, Disjoint data len range
      | _ => True

omit [DecidableEq C] in
/-- A mark says no more than the thread's next operation does. -/
theorem reads_unread (mark : Mark) (entry : Job × Program) (tied : Tied monitor final mark entry)
    (range : Nat × Nat) (read : reads mark = some range) : unread entry = some range := by
  obtain ⟨job, program⟩ := entry
  have unfinished : ∀ value : Unit, ¬ final mark := by
    rintro _ rfl
    cases read
  obtain ⟨op, head, moves⟩ := follows_head (monitor job) program _ mark unfinished tied
  cases program with
  | done value => cases head
  | act first next =>
      cases head
      have moves : Allowed job mark op := moves
      cases moves <;> first | exact read | cases read

omit [DecidableEq C] in
/-- What another thread does to memory, away from all that is still to be read. -/
theorem memory_step (shared : Shared C) (before behind : List (Job × Program))
    (left right : List Mark) (mark : Mark)
    (entry : Job × Program) (memory : Memory)
    (tiedLeft : List.Forall₂ (Tied monitor final) left before)
    (tiedRight : List.Forall₂ (Tied monitor final) right behind) (quiet : reads mark = none)
    (inv : Inv shared (left ++ mark :: right))
    (kept : ∀ range ∈ unreadRanges (C := C)
      { shared := shared, threads := before ++ entry :: behind },
      Kept shared.memory memory range) :
    Inv { shared with memory := memory } (left ++ mark :: right) := by
  apply memory_inv shared memory _ inv
  · intro other member range read
    have elsewhere := member_others
      (fun mark => reads mark = some range) left right mark other member read (by simp [quiet])
    obtain ⟨entry, inside, tied⟩ := tied_thread monitor final (left ++ right) (before ++ behind)
      (List.rel_append tiedLeft tiedRight) other elsewhere
    apply kept range
    apply List.mem_append_left
    rw [List.mem_filterMap]
    exact ⟨entry, others_member before behind _ entry inside,
      reads_unread other entry tied range read⟩
  · intro buf waits
    apply kept
    apply List.mem_append_right
    rw [List.mem_filterMap]
    exact ⟨.sendInLoop buf, by rw [List.mem_append]; exact waits, rfl⟩

theorem operation_inv (shared : Shared C) (left right : List Mark)
    (before behind : List (Job × Program))
    (mark : Mark) (job : Job) (op : Op) (next : Res op → Program) (answer : Answer)
    (result : Res op)
    (after : Shared C) (tiedLeft : List.Forall₂ (Tied monitor final) left before)
    (tiedRight : List.Forall₂ (Tied monitor final) right behind) (moves : Allowed job mark op)
    (undisturbed : Undisturbed (C := C)
      { shared := shared, threads := before ++ (job, .act op next) :: behind }
      (.step before.length answer))
    (inv : Inv shared (left ++ mark :: right))
    (performed : perform answer op shared = some (result, after)) :
    Inv after (left ++ nextMark mark op result :: right) := by
  have own := inv.holds mark (by simp)
  cases moves with
  | sendState buf =>
      cases performed
      simp only [nextMark]
      split
      · exact inv
      · exact inv_other shared shared left right _ .outside rfl inv rfl rfl rfl rfl rfl trivial
          fun _ => Or.inl
  | sendQueue buf =>
      cases performed
      refine inv_other shared _ left right _ .outside rfl inv rfl rfl rfl rfl rfl trivial
        fun other member => ?_
      rcases List.mem_append.mp member with before | last
      · exact Or.inl before
      · simp only [List.mem_singleton, Task.sendInLoop.injEq] at last
        subst last
        exact Or.inr own
  | store address byte =>
      cases performed
      rw [Undisturbed, aboutTo_split] at undisturbed
      exact memory_step shared before behind left right .outside _ _ tiedLeft tiedRight rfl inv
        fun range unread =>
        apart_kept shared.memory address byte range (undisturbed range unread)
  | destroy data len =>
      cases performed
      rw [Undisturbed, aboutTo_split] at undisturbed
      exact memory_step shared before behind left right .outside _ _ tiedLeft tiedRight rfl inv
        fun range unread =>
        disjoint_kept shared.memory data len range (undisturbed range unread)
  | shutdownState =>
      cases performed
      exact inv
  | shutdownSet =>
      cases performed
      exact inv_other shared _ left right _ .outside rfl inv rfl rfl rfl rfl rfl trivial fun _ =>
        Or.inl
  | shutdownQueue =>
      cases performed
      refine inv_other shared _ left right _ .outside rfl inv rfl rfl rfl rfl rfl trivial
        fun other member => ?_
      rcases List.mem_append.mp member with before | last
      · exact Or.inl before
      · simp at last
  | begunState buf =>
      cases performed
      simp only [nextMark]
      split
      -- a connection that is down drops the bytes: no record is left behind
      · have none_ := own.2
        apply inv_loop shared shared left right _ .finishing rfl inv ⟨rfl, rfl, rfl⟩
        · intro record some_
          rw [none_] at some_
          cases some_
        · simp [loop_busy shared left right _ rfl inv]
        · exact inv.begun
        · exact inv.handed
      · exact inv
  | begunWrite buf => exact write_inv answer shared left right buf result after inv performed
  | keepRest buf data len => exact rest_inv answer shared left right data len after inv performed
  | work job op =>
      simp only [perform, Option.map_eq_some_iff, Prod.mk.injEq] at performed
      obtain ⟨conn, _, _, rfl⟩ := performed
      apply inv_loop shared _ left right .finishing .finishing rfl inv
      · exact ⟨rfl, rfl, rfl⟩
      · exact own
      · simp [loop_busy shared left right _ rfl inv]
      · exact inv.begun
      · exact inv.handed
  | leave job =>
      cases performed
      exact leave_inv shared left right inv

omit [DecidableEq C] in
/-- A job of another thread begins. -/
theorem outside_inv (shared : Shared C) (marks : List Mark) (new : Mark) (off : onLoop new = false)
    (inv : Inv shared marks) (holds : Holds shared new) : Inv shared (marks ++ [new]) := by
  constructor
  case single => exact countP_append_one onLoop marks new inv.single (by simp [off])
  case idle =>
    intro free
    obtain ⟨none_, outside⟩ := inv.idle free
    exact ⟨none_, forall_append_one (fun mark => onLoop mark = false) marks new off outside⟩
  case holds => exact forall_append_one (Holds shared) marks new holds inv.holds
  case queued => exact inv.queued
  case begun => exact inv.begun
  case handed => exact inv.handed

omit [DecidableEq C] in
/-- The idle loop thread begins a job. -/
theorem loop_inv (shared : Shared C) (marks : List Mark) (new : Mark) (rest : List Task)
    (free : shared.busy = false)
    (fewer : ∀ task ∈ rest, task ∈ shared.functors) (inv : Inv shared marks)
    (holds : Holds shared new) :
    Inv { shared with functors := rest, busy := true } (marks ++ [new]) := by
  obtain ⟨none_, outside⟩ := inv.idle free
  constructor
  case single => exact countP_append_one onLoop marks new inv.single fun _ => outside
  case idle =>
    intro idle
    cases idle
  case holds =>
    intro mark member
    apply holds_same shared _ mark rfl rfl
    exact forall_append_one (Holds shared) marks new holds inv.holds mark member
  case queued =>
    rintro buf (waits | taken)
    · exact inv.queued buf (Or.inl waits)
    · exact inv.queued buf (Or.inr (fewer _ taken))
  case begun => exact inv.begun
  case handed => exact inv.handed

omit [DecidableEq C] in
theorem spawn_inv (shared after : Shared C) (marks : List Mark) (job : Job) (inv : Inv shared marks)
    (launched : launch job shared = some after) : Inv after (marks ++ [start job]) := by
  cases job with
  | send buf =>
      simp only [launch] at launched
      split at launched
      · rename_i intact
        cases launched
        exact outside_inv shared marks (.calling buf) rfl inv intact
      · cases launched
  | store address byte =>
      cases launched
      exact outside_inv shared marks .outside rfl inv trivial
  | destroy data len =>
      cases launched
      exact outside_inv shared marks .outside rfl inv trivial
  | shutdown =>
      cases launched
      exact outside_inv shared marks .outside rfl inv trivial
  | swap =>
      simp only [launch] at launched
      split at launched
      · cases launched
        apply outside_inv _ marks .outside rfl _ trivial
        constructor
        case single => exact inv.single
        case idle => exact inv.idle
        case holds =>
          exact fun mark member => holds_same shared _ mark rfl rfl (inv.holds mark member)
        -- the batch is what was pending, and nothing is pending after the swap
        case queued =>
          rintro buf (waits | taken)
          · cases waits
          · exact inv.queued buf (Or.inl taken)
        case begun => exact inv.begun
        case handed => exact inv.handed
      · cases launched
  | functor task =>
      cases functors : shared.functors with
      | nil => simp [launch, functors] at launched
      | cons next rest =>
          simp only [launch, functors] at launched
          split at launched
          · rename_i ready
            obtain ⟨rfl, free⟩ := ready
            cases launched
            apply loop_inv shared marks _ rest free _ inv
            -- the functor takes over what its queue entry held: the bytes are still intact
            · cases next with
              | sendInLoop buf =>
                  exact ⟨inv.queued buf (Or.inr (by simp [functors])), (inv.idle free).1⟩
              | shutdownInLoop =>
                  intro record some_
                  rw [(inv.idle free).1] at some_
                  cases some_
            · intro task member
              rw [functors]
              exact List.mem_cons_of_mem next member
          · cases launched
  | work ops =>
      simp only [launch] at launched
      split at launched
      · cases launched
      · rename_i idle
        cases launched
        have free : shared.busy = false := by simpa using idle
        apply loop_inv shared marks .finishing shared.functors free (fun _ member => member) inv
        intro record some_
        rw [(inv.idle free).1] at some_
        cases some_

theorem run_inv (first : Shared C) (last : Threads C) (trace : List (Action Job Answer))
    (inv : Inv first []) (undisturbed : Transition.Guarded threads.step Undisturbed
      ⟨first, []⟩ trace)
    (ran : Transition.run threads.step ⟨first, []⟩ trace = some last) :
    Held monitor final Inv last := by
  apply run_held threads monitor final Inv Undisturbed ?_ ?_
    ⟨first, []⟩ last trace undisturbed ?_ ran
  · intro pool marks job shared _ _ kept launched
    exact ⟨start job, program_follows job, spawn_inv pool.shared shared marks job kept launched⟩
  · intro shared left right before behind mark job op next answer result after tiedLeft tiedRight
      moves guard kept performed
    exact operation_inv shared left right before behind mark job op next answer result after
      tiedLeft tiedRight
      moves guard kept performed
  · exact ⟨[], List.Forall₂.nil, inv⟩

/-- Whatever sendInLoop has passed on is the beginning of the string, and all of it
once it is over and no write has failed. -/
def ByValue (shared : Shared C) : Prop :=
  (∀ record ∈ shared.handing.toList ++ shared.handed, record.bytes <+: record.held) ∧
    ∀ record ∈ shared.handed, record.faultError = false → record.bytes = record.held

/-- A connection for which no task is queued. -/
def unqueued (conn : TcpConnection C) (memory : Memory) : Shared C where
  conn := conn
  memory := memory
  pendingFunctors_ := []
  functors := []
  busy := false
  handing := none
  handed := []

omit [DecidableEq C] in
theorem unqueued_inv (conn : TcpConnection C) (memory : Memory) :
    Inv (unqueued conn memory) [] := by
  constructor <;> simp [unqueued]

/-- While the callers leave the strings they have passed alone until sendInLoop is
over, every send() has value semantics. -/
theorem send_by_value (conn : TcpConnection C) (memory : Memory) (last : Threads C)
    (trace : List (Action Job Answer))
    (undisturbed : Transition.Guarded threads.step Undisturbed ⟨unqueued conn memory, []⟩ trace)
    (ran : Transition.run threads.step ⟨unqueued conn memory, []⟩ trace = some last) :
    ByValue last.shared := by
  obtain ⟨marks, _, inv⟩ := run_inv (unqueued conn memory) last trace
    (unqueued_inv conn memory) undisturbed ran
  constructor
  · intro record member
    rcases List.mem_append.mp member with current | ended
    · exact inv.begun record (by simpa using current)
    · exact (inv.handed record ended).1
  · exact fun record ended => (inv.handed record ended).2

end Steps

instance {C : Type} (pool : Threads C) (action : Action Job Answer) :
    Decidable (Undisturbed pool action) := by
  induction action using Interleaving.Action.casesOn with
  | spawn job => exact isTrue trivial
  | step thread choice =>
      dsimp only [Undisturbed]
      generalize pool.aboutTo thread = next
      induction next using nextCases with
      | finished => exact isTrue trivial
      | about job op =>
          induction op using Op.casesOn with
          | store address byte => dsimp only; infer_instance
          | destroy data len => dsimp only; infer_instance
          | _ => exact isTrue trivial

/-- A kernel answer, in a step where dead memory reads as 88. -/
def answer (ret : Int) : Answer := ⟨⟨ret, .EWOULDBLOCK⟩, fun _ => 88⟩

/-- The three bytes of a caller's string. -/
def callerMemory : Memory := fun address => ([104, 105, 33] : Bytes)[address]?

def callerString : Argument := ⟨0, 3, [104, 105, 33]⟩

/-- The kernel takes one byte; the caller reuses the string and then destroys it when
sendInLoop is over. -/
def reusedAfterwards : List (Action Job Answer) :=
  .spawn (.send callerString) :: List.replicate 2 (.step 0 (answer 0)) ++ .spawn .swap ::
    .spawn (.functor (.sendInLoop callerString)) :: .step 2 (answer 0) :: .step 2 (answer 1) ::
    List.replicate 2 (.step 2 (answer 0)) ++
    [.spawn (.store 0 88), .step 3 (answer 0), .spawn (.destroy 0 3), .step 4 (answer 0)]

theorem send_by_value_reused : ∃ last : Threads Unit,
    Transition.run threads.step ⟨unqueued established callerMemory, []⟩ reusedAfterwards =
      some last ∧
      last.shared.handed = [⟨[104, 105, 33], [104, 105, 33], false⟩] ∧ ByValue last.shared := by
  have reached : (Transition.run threads.step
      ⟨unqueued established callerMemory, []⟩ reusedAfterwards).map
      (·.shared.handed) = some [⟨[104, 105, 33], [104, 105, 33], false⟩] := by decide +kernel
  obtain ⟨last, ran, handed⟩ := Option.map_eq_some_iff.mp reached
  exact ⟨last, ran, handed, send_by_value established callerMemory last reusedAfterwards
    (by decide +kernel) ran⟩

/-- send() has returned, and the loop gets to the task after the caller's next use of
the string. -/
def usedBefore (use : Job) : List (Action Job Answer) :=
  .spawn (.send callerString) :: List.replicate 2 (.step 0 (answer 0)) ++ .spawn use :: .step 1
    (answer 0) ::
    .spawn .swap :: .spawn (.functor (.sendInLoop callerString)) :: .step 3 (answer 0) :: .step 3
      (answer 3) ::
    [.step 3 (answer 0)]

/-- What the kernel and the records have in the end for the use a caller makes of
the string. -/
def SentAs (use : Job) (bytes : Bytes) : Prop := ∃ last : Threads Unit,
  Transition.run threads.step ⟨unqueued established callerMemory, []⟩ (usedBefore use) = some last ∧
    last.shared.handed = [⟨[104, 105, 33], bytes, false⟩] ∧ last.shared.conn.accepted = bytes ∧
    ¬ ByValue last.shared

theorem sentAs_of (use : Job) (bytes : Bytes) (other : bytes ≠ [104, 105, 33])
    (reached : (Transition.run threads.step ⟨unqueued (C := Unit) established callerMemory, []⟩
      (usedBefore use)).map
      (fun last => (last.shared.handed, last.shared.conn.accepted)) =
        some ([⟨[104, 105, 33], bytes, false⟩], bytes)) : SentAs use bytes := by
  obtain ⟨last, ran, state⟩ := Option.map_eq_some_iff.mp reached
  obtain ⟨handed, accepted⟩ := Prod.mk.inj state
  refine ⟨last, ran, handed, accepted, fun byValue => other ?_⟩
  exact byValue.2 _ (by rw [handed]; exact List.mem_singleton_self _) rfl

/-- The socket gets a byte the caller has stored since, or whatever stands in the
place of the destroyed string. -/
theorem used_string_sent : SentAs (.store 0 88) [88, 105, 33] ∧
    SentAs (.destroy 0 3) [88, 88, 88] :=
  ⟨sentAs_of _ _ (by decide) (by decide +kernel), sentAs_of _ _ (by decide) (by decide +kernel)⟩

end MuduoChat.SendPointers
