import MuduoChat.ConnectionOutput

/-!
The two flow-control callbacks of TcpConnection.cc. writeCompleteCallback_ is queued from
two places, the direct write of sendInLoop and the end of a drain, and the mark is tested
against the backlog before the rest is appended. Each call's callbacks are read off here
from what the connection holds before and after it; the runs follow.
-/

namespace MuduoChat.FlowControl
open ByteBuffer hiding step
open EPollPoller hiding step isWriting
open ConnectionOutput

variable {C : Type} [DecidableEq C]

def backlog (conn : TcpConnection C) : Nat := readableBytes conn.outputBuffer_

/-- How much of the data passed to the connection the kernel has not taken yet. -/
def unsent (given : Bytes) (conn : TcpConnection C) : Nat := given.length - conn.accepted.length

/-- The notification of a step over the mark, from below it. -/
def crossing (before after : TcpConnection C) : List Callback :=
  if backlog before < before.highWaterMark_ ∧ before.highWaterMark_ ≤ backlog after then
    [.highWaterMark (backlog after)] else []

/-- The notification that the last of some unsent bytes is out. -/
def completion (pending left : Nat) : List Callback :=
  if 0 < pending ∧ left = 0 then [.writeComplete] else []

/-- No direct write is answered by a reset. handleWrite only logs the errors of its writes. -/
def NoFatal (_ : TcpConnection C) : LoopCall → Prop
  | .sendInLoop data answer => NoFault data.length answer
  | _ => True

instance (conn : TcpConnection C) : DecidablePred (NoFatal conn)
  | .sendInLoop data answer => inferInstanceAs (Decidable (NoFault data.length answer))
  | .handleWrite _ | .shutdown | .shutdownInLoop => .isTrue trivial

/-! What a piece of the code queues. -/

/-- The callbacks are queued, in this order, and the settings are as they were. -/
structure Announces (before after : TcpConnection C) (callbacks : List Callback) : Prop where
  queued : after.queued = before.queued ++ callbacks
  mark : after.highWaterMark_ = before.highWaterMark_
  onComplete : after.writeCompleteCallback_ = before.writeCompleteCallback_
  onMark : after.highWaterMarkCallback_ = before.highWaterMarkCallback_

omit [DecidableEq C] in
theorem announces_none (conn : TcpConnection C) : Announces conn conn [] :=
  ⟨(List.append_nil _).symm, rfl, rfl, rfl⟩

omit [DecidableEq C] in
theorem announces_append (first second third : TcpConnection C) (left right : List Callback)
    (earlier : Announces first second left) (later : Announces second third right) :
    Announces first third (left ++ right) where
  queued := by rw [later.queued, earlier.queued, List.append_assoc]
  mark := later.mark.trans earlier.mark
  onComplete := later.onComplete.trans earlier.onComplete
  onMark := later.onMark.trans earlier.onMark

omit [DecidableEq C] in
theorem tell_announces (conn : TcpConnection C) (set : conn.writeCompleteCallback_ = true) :
    Announces conn (tellWriteComplete conn) [.writeComplete] ∧
      backlog (tellWriteComplete conn) = backlog conn := by
  rw [tellWriteComplete, if_pos set]
  exact ⟨⟨rfl, rfl, rfl, rfl⟩, rfl⟩

omit [DecidableEq C] in
theorem warn_announces (remaining : Nat) (conn : TcpConnection C)
    (set : conn.highWaterMarkCallback_ = true) :
    Announces conn (warnHighWater remaining conn)
      (if backlog conn < conn.highWaterMark_ ∧ conn.highWaterMark_ ≤ backlog conn + remaining then
        [.highWaterMark (backlog conn + remaining)] else []) ∧
      (warnHighWater remaining conn).outputBuffer_ = conn.outputBuffer_ := by
  unfold warnHighWater
  by_cases crosses : backlog conn < conn.highWaterMark_ ∧
    conn.highWaterMark_ ≤ backlog conn + remaining
  · rw [if_pos crosses, if_pos ⟨crosses.2, crosses.1, set⟩]
    exact ⟨⟨rfl, rfl, rfl, rfl⟩, rfl⟩
  · rw [if_neg crosses, if_neg (fun all => crosses ⟨all.2.1, all.1⟩)]
    exact ⟨announces_none conn, rfl⟩

theorem channelCall_announces (op : ChannelOp) (conn next : TcpConnection C)
    (called : channelCall op conn = some next) :
    Announces conn next [] ∧ backlog next = backlog conn := by
  obtain ⟨poller, _, rfl⟩ := Option.map_eq_some_iff.mp called
  exact ⟨⟨(List.append_nil _).symm, rfl, rfl, rfl⟩, rfl⟩

omit [DecidableEq C] in
theorem backlog_contents (sent : Bytes) (conn : TcpConnection C) (streaming : Streaming sent conn) :
    backlog conn = (contents conn.outputBuffer_).length :=
  readable_eq_length conn.outputBuffer_ streaming.valid

omit [DecidableEq C] in
/-- The backlog is what has been passed in and not been taken. -/
theorem unsent_backlog (sent more : Bytes) (conn : TcpConnection C)
    (streaming : Streaming sent conn) :
    unsent (sent ++ more) conn = backlog conn + more.length := by
  rw [backlog_contents sent conn streaming, unsent, ← streaming.stream]
  simp only [List.length_append]
  omega

theorem keepRest_announces (rest : Bytes) (conn next : TcpConnection C)
    (valid : Valid conn.outputBuffer_)
    (set : conn.highWaterMarkCallback_ = true) (kept : keepRest rest conn = some next) :
    Announces conn next (crossing conn next) ∧ backlog next = backlog conn + rest.length := by
  obtain ⟨warned, sameBuffer⟩ := warn_announces rest.length conn set
  have grown : readableBytes (append conn.outputBuffer_ rest) = backlog conn + rest.length := by
    rw [readable_eq_length _ (append_valid _ rest valid), contents_append _ rest valid,
      List.length_append, backlog,
      readable_eq_length _ valid]
  have last : Announces (warnHighWater rest.length conn) next [] ∧
      backlog next = backlog conn + rest.length := by
    simp only [keepRest] at kept
    split at kept
    · cases kept
      exact ⟨⟨(List.append_nil _).symm, rfl, rfl, rfl⟩, by rw [backlog, sameBuffer, grown]⟩
    · obtain ⟨called, same⟩ := channelCall_announces _ _ _ kept
      exact ⟨⟨called.queued, called.mark, called.onComplete, called.onMark⟩,
        same.trans (by rw [backlog, sameBuffer, grown])⟩
  have both := announces_append _ _ _ _ _ warned last.1
  rw [List.append_nil] at both
  refine ⟨?_, last.2⟩
  rw [crossing, last.2]
  exact both

/-! One call. -/

/-- The settings under which both callbacks are called. -/
structure Watched (conn : TcpConnection C) : Prop where
  positive : 0 < conn.highWaterMark_
  onComplete : conn.writeCompleteCallback_ = true
  onMark : conn.highWaterMarkCallback_ = true

omit [DecidableEq C] in
theorem announces_watched (before after : TcpConnection C) (callbacks : List Callback)
    (watched : Watched before)
    (announces : Announces before after callbacks) : Watched after :=
  ⟨by rw [announces.mark]; exact watched.positive, announces.onComplete.trans watched.onComplete,
    announces.onMark.trans watched.onMark⟩

omit [DecidableEq C] in
theorem crossing_not_grown (before after : TcpConnection C)
    (shrinks : backlog after ≤ backlog before) :
    crossing before after = [] := by
  rw [crossing, if_neg (by omega)]

theorem completion_left (pending left : Nat) (some_ : 0 < left) : completion pending left = [] := by
  rw [completion, if_neg (by omega)]

/-- What the direct write leaves is appended, so something stays unsent. -/
theorem send_rest (data rest : Bytes) (conn direct next : TcpConnection C) (watched : Watched conn)
    (valid : Valid conn.outputBuffer_) (quiet : Announces conn direct [])
    (same : direct.outputBuffer_ = conn.outputBuffer_)
    (someLeft : 0 < rest.length) (kept : keepRest rest direct = some next) :
    Announces conn next (crossing conn next ++ completion (backlog conn + data.length)
      (backlog next)) := by
  have equal : backlog direct = backlog conn := by rw [backlog, backlog, same]
  obtain ⟨warned, grown⟩ := keepRest_announces rest direct next (by rw [same]; exact valid)
    (announces_watched conn direct [] watched quiet).onMark kept
  have sameCrossing : crossing direct next = crossing conn next := by
    rw [crossing, crossing, equal, quiet.mark]
  rw [completion_left _ _ (by omega), List.append_nil, ← sameCrossing]
  exact announces_append conn direct next [] _ quiet warned

theorem send_announces (answer : WriteAnswer) (data sent : Bytes) (conn next : TcpConnection C)
    (streaming : Streaming sent conn) (watched : Watched conn)
    (noFault : NoFault data.length answer)
    (ran : sendOpen answer data conn = some next) :
    Announces conn next (crossing conn next ++ completion (backlog conn + data.length)
      (backlog next)) := by
  have writing := streaming_writing sent conn streaming
  have length := backlog_contents sent conn streaming
  have quiet : Announces conn (write conn data answer) [] :=
    ⟨(List.append_nil _).symm, rfl, rfl, rfl⟩
  unfold sendOpen at ran
  by_cases idle : (!isWriting conn && readableBytes conn.outputBuffer_ == 0) = true
  · -- nothing waits, so the bytes are offered to the kernel before the buffer sees them
    simp only [writeDirectly, idle, if_true] at ran
    have none_ : backlog conn = 0 := by
      simp only [Bool.and_eq_true, beq_iff_eq] at idle
      exact idle.2
    by_cases wrote : 0 < answer.ret
    · have within := noFault.1
      by_cases all : data.length - answer.ret.toNat = 0
      · -- all of it is out at once: the direct write itself reports it
        simp only [wrote, if_true, all, Nat.lt_irrefl, and_false, if_false,
          Option.some.injEq] at ran
        subst ran
        obtain ⟨told, still⟩ := tell_announces (write conn data answer) watched.onComplete
        have after : backlog (tellWriteComplete (write conn data answer)) = 0 := still.trans none_
        rw [crossing_not_grown _ _ (by omega), completion, if_pos ⟨by omega, after⟩]
        exact announces_append conn _ _ [] _ quiet told
      · have left : 0 < data.length - answer.ret.toNat := by omega
        simp only [wrote, if_true, all, left, and_self, if_false] at ran
        exact send_rest data _ conn _ next watched streaming.valid quiet rfl
          (by rw [List.length_drop]; exact left) ran
    · -- the kernel took nothing: what was offered is kept whole, unless there was nothing
      by_cases some_ : 0 < data.length
      · obtain ⟨pipe, reset⟩ := noFault.2 some_ (by omega)
        have noReset : (answer.errno == .EPIPE || answer.errno == .ECONNRESET) = false := by
          simp [pipe, reset]
        simp only [wrote, if_false, noReset, Nat.sub_zero, some_, and_self, if_true,
          List.drop_zero] at ran
        exact send_rest data data conn _ next watched streaming.valid quiet rfl some_ ran
      · simp only [wrote, if_false, Nat.sub_zero, some_, and_false, Option.some.injEq] at ran
        subst ran
        have after : backlog (write conn data answer) = backlog conn := rfl
        rw [crossing_not_grown _ _ (by omega), completion, if_neg (by omega)]
        exact quiet
  · simp only [writeDirectly, idle, Bool.false_eq_true, if_false, true_and, Nat.sub_zero,
      List.drop_zero] at ran
    -- isWriting() and the backlog go together, so here some bytes are before this send
    have waiting : 0 < backlog conn := by
      by_contra none_
      have empty : contents conn.outputBuffer_ = [] := List.length_eq_zero_iff.mp (by omega)
      have zero : readableBytes conn.outputBuffer_ = 0 :=
        (readable_zero _ streaming.valid).mpr empty
      exact idle (by simp [writing, empty, zero])
    by_cases some_ : 0 < data.length
    · rw [if_pos some_] at ran
      exact send_rest data data conn conn next watched streaming.valid
        (announces_none conn) rfl some_ ran
    · rw [if_neg some_, Option.some.injEq] at ran
      subst ran
      rw [crossing_not_grown _ _ (Nat.le_refl _), completion_left _ _ waiting]
      exact announces_none conn

theorem drain_announces (answer : WriteAnswer) (sent : Bytes) (conn next : TcpConnection C)
    (emptied : Bool)
    (streaming : Streaming sent conn) (watched : Watched conn)
    (drained : drain answer conn = some (emptied, next)) :
    backlog next ≤ backlog conn ∧ Announces conn next (completion (backlog conn) (backlog next)) :=
      by
  have writing := streaming_writing sent conn streaming
  have length := backlog_contents sent conn streaming
  unfold drain at drained
  by_cases waiting : contents conn.outputBuffer_ = []
  · rw [writing] at drained
    simp only [waiting, ne_eq, not_true_eq_false, decide_false, Bool.false_eq_true, if_false,
      Option.some.injEq,
      Prod.mk.injEq] at drained
    obtain ⟨_, rfl⟩ := drained
    have none_ : backlog conn = 0 := by rw [length, waiting, List.length_nil]
    rw [none_, completion, if_neg (by omega)]
    exact ⟨Nat.le_refl _, announces_none conn⟩
  · have some_ : 0 < backlog conn := by
      rw [length]
      exact List.length_pos_iff.mpr waiting
    rw [writing] at drained
    simp only [waiting, ne_eq, not_false_eq_true, decide_true, if_true] at drained
    by_cases wrote : 0 < answer.ret
    · have left : readableBytes (retrieve conn.outputBuffer_ answer.ret.toNat) ≤ backlog conn := by
        rw [readable_eq_length _ (retrieve_valid _ _ streaming.valid),
          contents_retrieve _ _ streaming.valid,
          List.length_drop, length]
        omega
      simp only [wrote, if_true] at drained
      split at drained
      · -- the last byte is out: the interest in writing goes first, then the callback is queued
        rename_i zero
        obtain ⟨quiet, called, same⟩ := Option.map_eq_some_iff.mp drained
        obtain ⟨_, rfl⟩ := Prod.mk.inj same
        obtain ⟨still, kept⟩ := channelCall_announces _ _ _ called
        obtain ⟨told, last⟩ := tell_announces quiet (still.onComplete.trans watched.onComplete)
        have after : backlog (tellWriteComplete quiet) = 0 := (last.trans kept).trans zero
        have first : Announces conn quiet [] :=
          ⟨still.queued, still.mark, still.onComplete, still.onMark⟩
        rw [after, completion, if_pos ⟨some_, rfl⟩]
        exact ⟨Nat.zero_le _, announces_append conn quiet _ [] _ first told⟩
      · rename_i more
        simp only [Option.some.injEq, Prod.mk.injEq] at drained
        obtain ⟨_, rfl⟩ := drained
        refine ⟨left, ?_⟩
        have quiet : completion (backlog conn)
            (readableBytes (retrieve conn.outputBuffer_ answer.ret.toNat)) = [] :=
          completion_left _ _ (Nat.pos_of_ne_zero more)
        change Announces conn _ (completion (backlog conn)
          (readableBytes (retrieve conn.outputBuffer_ answer.ret.toNat)))
        rw [quiet]
        exact ⟨(List.append_nil _).symm, rfl, rfl, rfl⟩
    · simp only [wrote, if_false, Option.some.injEq, Prod.mk.injEq] at drained
      obtain ⟨_, rfl⟩ := drained
      refine ⟨Nat.le_refl _, ?_⟩
      change Announces conn _ (completion (backlog conn) (backlog conn))
      rw [completion_left _ _ some_]
      exact ⟨(List.append_nil _).symm, rfl, rfl, rfl⟩

omit [DecidableEq C] in
theorem shutdownInLoop_announces (conn : TcpConnection C) :
    Announces conn (shutdownInLoop conn) [] ∧ backlog (shutdownInLoop conn) = backlog conn := by
  unfold shutdownInLoop
  split <;> exact ⟨⟨(List.append_nil _).symm, rfl, rfl, rfl⟩, rfl⟩

omit [DecidableEq C] in
/-- A call that leaves queue and backlog alone has nothing to report. -/
theorem idle_announces (before after : TcpConnection C) (quiet : Announces before after [])
    (same : backlog after = backlog before) :
    Announces before after (crossing before after ++ completion (backlog before + 0)
      (backlog after)) := by
  rw [crossing_not_grown _ _ (Nat.le_of_eq same), completion, if_neg (by omega)]
  exact quiet

/-- What a call queues, for every call. -/
theorem call_announces (sent : Bytes) (before after : TcpConnection C) (call : LoopCall)
    (streaming : Streaming sent before) (alive : before.state_ ≠ .kDisconnected)
    (watched : Watched before)
    (noFatal : NoFatal before call) (stepped : step before call = some after) :
    Announces before after
      (crossing before after ++ completion (backlog before + (passed [call]).length)
        (backlog after)) := by
  cases call with
  | sendInLoop data answer =>
      rw [step, sendInLoop, if_neg alive] at stepped
      simpa [passed] using send_announces answer data sent before after streaming
        watched noFatal stepped
  | handleWrite answer =>
      obtain ⟨⟨emptied, next⟩, drained, finished⟩ := Option.map_eq_some_iff.mp stepped
      obtain ⟨shrinks, announced⟩ :=
        drain_announces answer sent before next emptied streaming watched drained
      have last : Announces next after [] ∧ backlog after = backlog next := by
        subst finished
        split
        · exact shutdownInLoop_announces next
        · exact ⟨announces_none next, rfl⟩
      have both := announces_append before next after _ [] announced last.1
      rw [List.append_nil] at both
      rw [crossing_not_grown _ _ (by omega), last.2]
      exact both
  | shutdown =>
      cases stepped
      refine idle_announces before _ ?_ ?_ <;> unfold ConnectionOutput.shutdown <;> split <;>
        first | rfl | exact ⟨(List.append_nil _).symm, rfl, rfl, rfl⟩
  | shutdownInLoop =>
      cases stepped
      obtain ⟨quiet, same⟩ := shutdownInLoop_announces before
      exact idle_announces before _ quiet same

/-- Only a send adds to the backlog. -/
theorem grows_send (sent : Bytes) (before after : TcpConnection C) (call : LoopCall)
    (streaming : Streaming sent before) (watched : Watched before)
    (stepped : step before call = some after)
    (grows : backlog before < backlog after) : ∃ data answer, call = .sendInLoop data answer := by
  cases call with
  | sendInLoop data answer => exact ⟨data, answer, rfl⟩
  | handleWrite answer =>
      obtain ⟨⟨emptied, next⟩, drained, finished⟩ := Option.map_eq_some_iff.mp stepped
      have shrinks := (drain_announces answer sent before next emptied streaming watched drained).1
      have last : backlog after = backlog next := by
        subst finished
        split
        · exact (shutdownInLoop_announces next).2
        · rfl
      omega
  | shutdown =>
      cases stepped
      unfold ConnectionOutput.shutdown at grows
      split at grows <;> exact absurd grows (Nat.lt_irrefl _)
  | shutdownInLoop =>
      cases stepped
      exact absurd grows (Nat.not_lt.mpr (Nat.le_of_eq (shutdownInLoop_announces before).2))

/-! The runs. -/

/-- What holds between two calls of an open connection. -/
structure Open (conn : TcpConnection C) (given : Bytes) (now : TcpConnection C) : Prop where
  streaming : Streaming given now
  alive : now.state_ ≠ .kDisconnected
  watched : Watched now
  mark : now.highWaterMark_ = conn.highWaterMark_

theorem passed_snoc (earlier : List LoopCall) (call : LoopCall) :
    passed (earlier ++ [call]) = passed earlier ++ passed [call] := by
  induction earlier with
  | nil => rfl
  | cons first rest ih =>
      rw [List.cons_append, passed_cons, ih, passed_cons first rest, List.append_assoc]

theorem step_open (conn now : TcpConnection C) (given : Bytes) (call : LoopCall)
    (open_ : Open conn given now)
    (noFatal : NoFatal now call) :
    ∃ next, step now call = some next ∧ Open conn (given ++ passed [call]) next ∧
      Announces now next (crossing now next ++ completion (backlog now + (passed [call]).length)
        (backlog next)) := by
  have noFault : ∀ data answer, call = .sendInLoop data answer → NoFault data.length answer := by
    rintro data answer rfl
    exact noFatal
  obtain ⟨next, stepped, streaming, alive⟩ :=
    step_streaming given now call open_.streaming open_.alive noFault
  have announces :=
    call_announces given now next call open_.streaming open_.alive open_.watched noFatal stepped
  exact ⟨next, stepped,
    ⟨streaming, alive, announces_watched now next _ open_.watched announces,
      announces.mark.trans open_.mark⟩, announces⟩

theorem run_open (conn : TcpConnection C) (calls : List LoopCall) (given : Bytes)
    (now : TcpConnection C)
    (open_ : Open conn given now) (noFatal : Transition.Guarded step NoFatal now calls) :
    ∃ after, Transition.run step now calls = some after ∧
      Open conn (given ++ passed calls) after := by
  induction calls generalizing given now with
  | nil => exact ⟨now, rfl, by simpa [passed] using open_⟩
  | cons call rest ih =>
      obtain ⟨next, stepped, kept, _⟩ := step_open conn now given call open_ noFatal.1
      obtain ⟨after, ran, final⟩ := ih (given ++ passed [call]) next kept
        (Transition.guarded_tail step NoFatal now next call rest noFatal stepped)
      refine ⟨after, (Transition.run_cons step now after call rest).mpr ⟨next, stepped, ran⟩, ?_⟩
      rw [passed_cons, ← List.append_assoc]
      exact final

/-- The backlogs that highWaterMarkCallback_ has been queued with. -/
def warnings (conn : TcpConnection C) : List Nat :=
  conn.queued.filterMap fun callback => match callback with
    | .highWaterMark len => some len
    | .writeComplete => none

omit [DecidableEq C] in
theorem warnings_announced (before after : TcpConnection C) (pending left : Nat)
    (announces : Announces before after (crossing before after ++ completion pending left)) :
    warnings after = warnings before ++
      if backlog before < before.highWaterMark_ ∧ before.highWaterMark_ ≤ backlog after then
        [backlog after] else [] := by
  rw [warnings, announces.queued, List.filterMap_append, List.filterMap_append, ← warnings]
  unfold crossing completion
  split <;> split <;> simp

/-- As long as the backlog stays at the mark or above nothing more is queued for it. -/
theorem run_above (conn now after : TcpConnection C) (given : Bytes) (calls : List LoopCall)
    (open_ : Open conn given now) (noFatal : Transition.Guarded step NoFatal now calls)
    (ran : Transition.run step now calls = some after)
    (above : ∀ first second middle, calls = first ++ second →
      Transition.run step now first = some middle →
      conn.highWaterMark_ ≤ backlog middle) : warnings after = warnings now := by
  induction calls generalizing given now with
  | nil => cases ran; rfl
  | cons call rest ih =>
      obtain ⟨next, stepped, tail⟩ := (Transition.run_cons step now after call rest).mp ran
      obtain ⟨other, again, kept, announces⟩ := step_open conn now given call open_ noFatal.1
      obtain rfl := Option.some.inj (stepped.symm.trans again)
      have high : conn.highWaterMark_ ≤ backlog now := above [] (call :: rest) now rfl rfl
      have same := warnings_announced now next _ _ announces
      rw [open_.mark, if_neg (by omega), List.append_nil] at same
      rw [← same]
      refine ih next (given ++ passed [call]) kept
        (Transition.guarded_tail step NoFatal now next call rest noFatal stepped) tail ?_
      intro first second middle split reached
      exact above (call :: first) second middle (by rw [split]; rfl)
        ((Transition.run_cons step now middle call first).mpr ⟨next, stepped, reached⟩)

omit [DecidableEq C] in
theorem established_open (conn : TcpConnection C) (established : Established conn)
    (watched : Watched conn) :
    Open conn [] conn ∧ backlog conn = 0 := by
  refine ⟨⟨established_streaming conn established, established.alive, watched, rfl⟩, ?_⟩
  rw [backlog, established.buffer]
  rfl

/-- Every state of the run, with the calls that are still to come. -/
theorem reached_open (conn now : TcpConnection C) (earlier later : List LoopCall)
    (open_ : Open conn [] conn)
    (noFatal : Transition.Guarded step NoFatal conn (earlier ++ later))
    (ran : Transition.run step conn earlier = some now) :
    Open conn (passed earlier) now ∧ Transition.Guarded step NoFatal now later := by
  obtain ⟨front, rest⟩ := Transition.guarded_append step NoFatal conn now earlier later noFatal ran
  obtain ⟨after, again, kept⟩ := run_open conn earlier [] conn open_ front
  obtain rfl := Option.some.inj (ran.symm.trans again)
  exact ⟨kept, rest⟩

/-- One call of a run: what it queues, and what is unsent after it. -/
theorem called_announces (conn before : TcpConnection C) (earlier later : List LoopCall)
    (call : LoopCall)
    (open_ : Open conn [] conn) (noFatal : Transition.Guarded step NoFatal conn
      (earlier ++ call :: later))
    (ran : Transition.run step conn earlier = some before) :
    ∃ after, step before call = some after ∧ after.highWaterMark_ = conn.highWaterMark_ ∧
      after.queued = before.queued ++ (crossing before after ++
        completion (unsent (passed (earlier ++ [call])) before)
          (unsent (passed (earlier ++ [call])) after)) ∧
      unsent (passed (earlier ++ [call])) after = backlog after ∧
      (backlog before < backlog after → ∃ data answer, call = .sendInLoop data answer) := by
  obtain ⟨kept, rest⟩ := reached_open conn before earlier (call :: later) open_ noFatal ran
  obtain ⟨after, stepped, keptAfter, announces⟩ := step_open conn before _ call kept rest.1
  have left := unsent_backlog (passed earlier) (passed [call]) before kept.streaming
  have all := unsent_backlog (passed earlier ++ passed [call]) [] after keptAfter.streaming
  rw [List.append_nil, List.length_nil, Nat.add_zero] at all
  rw [passed_snoc, left]
  refine ⟨after, stepped, keptAfter.mark, ?_, all, fun grows => ?_⟩
  · rw [all]
    exact announces.queued
  · exact grows_send _ before after call kept.streaming kept.watched stepped grows

/-- A call that queues the mark's callback starts below the mark. -/
theorem notified_below (conn now next : TcpConnection C) (earlier later : List LoopCall)
    (call : LoopCall)
    (open_ : Open conn [] conn) (noFatal : Transition.Guarded step NoFatal conn
      (earlier ++ call :: later))
    (ran : Transition.run step conn earlier = some now) (stepped : step now call = some next)
    (notified : warnings next ≠ warnings now) : backlog now < conn.highWaterMark_ := by
  obtain ⟨kept, rest⟩ := reached_open conn now earlier (call :: later) open_ noFatal ran
  obtain ⟨after, again, _, announces⟩ := step_open conn now _ call kept rest.1
  obtain rfl := Option.some.inj (stepped.symm.trans again)
  have told := warnings_announced now next _ _ announces
  rw [kept.mark] at told
  by_contra high
  rw [if_neg (fun crosses => high crosses.1), List.append_nil] at told
  exact notified told

/-- A backlog at the mark has come there by one call, which was notified, and no other since. -/
theorem notified_since (conn now : TcpConnection C) (earlier later : List LoopCall)
    (open_ : Open conn [] conn)
    (low : backlog conn < conn.highWaterMark_)
    (noFatal : Transition.Guarded step NoFatal conn (earlier ++ later))
    (ran : Transition.run step conn earlier = some now) (high : conn.highWaterMark_ ≤ backlog now) :
    ∃ front call rest below above, earlier = front ++ call :: rest ∧
      Transition.run step conn front = some below ∧
      step below call = some above ∧ backlog below < conn.highWaterMark_ ∧
      (∀ left right middle, rest = left ++ right → Transition.run step above left = some middle →
        conn.highWaterMark_ ≤ backlog middle) ∧
      warnings now = warnings below ++ [backlog above] := by
  -- cut the run at the last state below the mark
  obtain ⟨front, call, rest, below, above, rfl, reached, stepped, lowBefore, stays⟩ :=
    Transition.run_entry step
      (fun state => conn.highWaterMark_ ≤ backlog state) conn now earlier ran (by omega) high
  obtain ⟨kept, tail⟩ := reached_open conn below front (call :: (rest ++ later)) open_
    (by simpa using noFatal) reached
  obtain ⟨other, again, keptAbove, announces⟩ := step_open conn below _ call kept tail.1
  obtain rfl := Option.some.inj (stepped.symm.trans again)
  have told := warnings_announced below above _ _ announces
  have entered : conn.highWaterMark_ ≤ backlog above := stays [] rest above rfl rfl
  rw [kept.mark, if_pos ⟨by omega, entered⟩] at told
  have walked : Transition.run step above rest = some now := by
    rw [Transition.run_append, reached, Option.bind_some, Transition.run, stepped,
      Option.bind_some] at ran
    exact ran
  have guarded := Transition.guarded_tail step NoFatal below above call (rest ++ later) tail stepped
  have same := run_above conn above now _ rest keptAbove
    (Transition.guarded_append step NoFatal above now rest later guarded walked).1 walked stays
  exact ⟨front, call, rest, below, above, rfl, reached, stepped, by omega, stays, same.trans told⟩

/-- Over every run from a new connection. A call queues the mark's callback just when it takes
the backlog from below the mark to it or over it, which only a send can do, and the other one
just when it brings the unsent total to zero from above, the data of the call included. So
there is a state below the mark between two notifications, and a backlog at the mark has been
notified once since it was last below. -/
theorem flow_callbacks_mark_crossings (conn : TcpConnection C) (calls : List LoopCall)
    (established : Established conn) (positive : 0 < conn.highWaterMark_)
    (onComplete : conn.writeCompleteCallback_ = true) (onMark : conn.highWaterMarkCallback_ = true)
    (noFatal : Transition.Guarded step NoFatal conn calls) :
    (∃ after, Transition.run step conn calls = some after) ∧
      (∀ earlier call later before, calls = earlier ++ call :: later →
        Transition.run step conn earlier = some before →
        ∃ after, step before call = some after ∧ after.highWaterMark_ = conn.highWaterMark_ ∧
          after.queued = before.queued ++ (crossing before after ++
            completion (unsent (passed (earlier ++ [call])) before)
              (unsent (passed (earlier ++ [call])) after)) ∧
          unsent (passed (earlier ++ [call])) after = backlog after ∧
          (backlog before < backlog after → ∃ data answer, call = .sendInLoop data answer)) ∧
      (∀ front first middle second later start one two three,
        calls = front ++ first :: (middle ++ second :: later) →
          Transition.run step conn front = some start →
        step start first = some one → Transition.run step one middle = some two →
          step two second = some three →
        warnings one ≠ warnings start → warnings three ≠ warnings two →
          backlog two < conn.highWaterMark_) ∧
      ∀ earlier later now, calls = earlier ++ later → Transition.run step conn earlier = some now →
        conn.highWaterMark_ ≤ backlog now →
        ∃ front call rest below above, earlier = front ++ call :: rest ∧
          Transition.run step conn front = some below ∧
          step below call = some above ∧ backlog below < conn.highWaterMark_ ∧
          (∀ left right middle, rest = left ++ right →
            Transition.run step above left = some middle →
            conn.highWaterMark_ ≤ backlog middle) ∧
          warnings now = warnings below ++ [backlog above] := by
  obtain ⟨open_, none_⟩ := established_open conn established ⟨positive, onComplete, onMark⟩
  refine ⟨?_, ?_, ?_, ?_⟩
  · obtain ⟨after, ran, _⟩ := run_open conn calls [] conn open_ noFatal
    exact ⟨after, ran⟩
  · rintro earlier call later before rfl ran
    exact called_announces conn before earlier later call open_ noFatal ran
  · rintro front first middle second later start one two three rfl ran entered walked again _ notified
    have path : Transition.run step conn (front ++ first :: middle) = some two := by
      rw [Transition.run_append, ran, Option.bind_some, Transition.run, entered, Option.bind_some,
        walked]
    exact notified_below conn two three (front ++ first :: middle) later second open_
      (by simpa using noFatal) path
      again notified
  · rintro earlier later now rfl ran high
    exact notified_since conn now earlier later open_ (by omega) noFatal ran high

/-- A connection of the loop with both callbacks and a mark of four bytes. -/
def marked : TcpConnection Unit :=
  { established with highWaterMark_ := 4, writeCompleteCallback_ := true,
                     highWaterMarkCallback_ := true }

/-- Six bytes of which one goes out at once, one more that stays above the mark, and the drain. -/
theorem flow_callbacks_mark_crossings_six :
    ∃ after, Transition.run step marked
      [.sendInLoop [1, 2, 3, 4, 5, 6] ⟨1, .other⟩, .sendInLoop [7] ⟨-1, .EWOULDBLOCK⟩,
        .handleWrite ⟨6, .other⟩] =
        some after :=
  (flow_callbacks_mark_crossings marked
    [.sendInLoop [1, 2, 3, 4, 5, 6] ⟨1, .other⟩, .sendInLoop [7] ⟨-1, .EWOULDBLOCK⟩,
      .handleWrite ⟨6, .other⟩]
    { registered := established_holds.registered
      opened := established_holds.opened
      alone := established_holds.alone
      alive := established_holds.alive
      added := rfl
      events := rfl
      buffer := rfl
      accepted := rfl } (by decide) rfl rfl (by decide +kernel)).1

end MuduoChat.FlowControl
