import MuduoChat.LoginOutcomes
import MuduoChat.ServerFraming

/-!
ChatServer::onMessage from the bytes of a delivery to the end of the handler, with the
accessors of json.hpp that may throw. Nothing catches an exception of onMessage, so it ends
the server. Every handler reads all its fields before it does anything, so an exception at
least leaves no effect behind; the database and Redis may fail at any operation.
-/

namespace MuduoChat.BadRequests
open Interleaving ChatService
open LoginOutcomes (attempt)
open ServerFraming (MsgHandler getHandler)

/-! nlohmann::json. -/

/-- A number_float stands with what static_cast<int> makes of it. -/
inductive Value where
  | null
  | boolean (value : Bool)
  | number (value : Int)
  | float (cast : Int)
  | string (value : Text)
  | array (values : List Value)
  | object (members : List (String × Value))

inductive Exception where
  | parse_error
  | type_error (id : Nat)
  deriving DecidableEq

/-- `text` reads a string that is one JSON text and nothing else. -/
structure Json where
  text : Text → Option Value
  dump : Value → Text

/-- `js[key]`: a null becomes an object, and a new member is null. -/
def member (js : Value) (key : String) : Except Exception Value :=
  match js with
  | .null => .ok .null
  | .object members => .ok ((members.lookup key).getD .null)
  | _ => .error (.type_error 305)

/-- `get<int>()` takes the numbers of all three types, and booleans. -/
def getInt : Value → Except Exception Int
  | .boolean value => .ok value.toInt
  | .number value => .ok (value.bmod 4294967296)
  | .float cast => .ok cast
  | _ => .error (.type_error 302)

/-- The conversion to std::string. -/
def getString : Value → Except Exception Text
  | .string value => .ok value
  | _ => .error (.type_error 302)

/-- json::parse takes a NUL for the end of the input. -/
def parse (json : Json) (buf : Text) : Except Exception Value :=
  match json.text (Framing.firstBody 0 buf) with
  | some js => .ok js
  | none => .error .parse_error

/-! The handlers, from the parsed request on. -/

section Handlers
variable {S C : Type}

/-- Code of a handler: operations, and exceptions that leave it. -/
abbrev Throwing (S C : Type) := ExceptT Exception (Task S C)

def orThrow {α : Type} (result : Except Exception α) : Throwing S C α := ExceptT.mk (pure result)

def run {α : Type} (task : Task S C α) : Throwing S C α := ExceptT.lift task

def intAt (js : Value) (key : String) : Except Exception Int := member js key >>= getInt
def textAt (js : Value) (key : String) : Except Exception Text := member js key >>= getString

variable (json : Json) (server : S) (conn : C) (js : Value)

def login : Throwing S C Unit := do
  let id ← orThrow (intAt js "id")
  let pwd ← orThrow (textAt js "password")
  run (ChatService.login server conn id pwd)

def reg : Throwing S C Unit := do
  let name ← orThrow (textAt js "name")
  let pwd ← orThrow (textAt js "password")
  run (ChatService.reg conn name pwd)

def loginout : Throwing S C Unit := do
  let userid ← orThrow (intAt js "id")
  run (ChatService.loginout server userid)

def oneChat : Throwing S C Unit := do
  let toid ← orThrow (intAt js "to")
  run (ChatService.oneChat server toid (json.dump js))

def addFriend : Throwing S C Unit := do
  let userid ← orThrow (intAt js "id")
  let friendid ← orThrow (intAt js "friendid")
  run (ChatService.addFriend userid friendid)

def creatGroup : Throwing S C Unit := do
  let userid ← orThrow (intAt js "id")
  let name ← orThrow (textAt js "groupname")
  let desc ← orThrow (textAt js "groupdesc")
  run (ChatService.creatGroup userid name desc)

def addGroup : Throwing S C Unit := do
  let userid ← orThrow (intAt js "id")
  let groupid ← orThrow (intAt js "groupid")
  run (ChatService.addGroup userid groupid)

def groupChat : Throwing S C Unit := do
  let userid ← orThrow (intAt js "id")
  let groupid ← orThrow (intAt js "groupid")
  run (ChatService.groupChat server userid groupid (json.dump js))

/-- The function that getHandler gives back. -/
def handle : MsgHandler → Throwing S C Unit
  | .login => login server conn js
  | .reg => reg conn js
  | .loginout => loginout server js
  | .oneChat => oneChat json server js
  | .addFriend => addFriend js
  | .creatGroup => creatGroup js
  | .addGroup => addGroup js
  | .groupChat => groupChat json server js
  -- it only logs
  | .canNotFind _ => pure ()

def onMessage (buf : Text) : Throwing S C Unit := do
  let js ← orThrow (parse json buf)
  let msgid ← orThrow (intAt js "msgid")
  handle json server conn js (getHandler msgid)

/-! What a request asks for. -/

/-- The job of a handler once it has read its fields; the one that only logs has none. -/
def job : MsgHandler → Except Exception (Option (Job S C))
  | .login => do
      let id ← intAt js "id"
      let pwd ← textAt js "password"
      pure (some (.login server conn id pwd))
  | .reg => do
      let name ← textAt js "name"
      let pwd ← textAt js "password"
      pure (some (.reg server conn name pwd))
  | .loginout => do
      let userid ← intAt js "id"
      pure (some (.loginout server conn userid))
  | .oneChat => do
      let toid ← intAt js "to"
      pure (some (.oneChat server conn toid (json.dump js)))
  | .addFriend => do
      let userid ← intAt js "id"
      let friendid ← intAt js "friendid"
      pure (some (.addFriend server conn userid friendid))
  | .creatGroup => do
      let userid ← intAt js "id"
      let name ← textAt js "groupname"
      let desc ← textAt js "groupdesc"
      pure (some (.creatGroup server conn userid name desc))
  | .addGroup => do
      let userid ← intAt js "id"
      let groupid ← intAt js "groupid"
      pure (some (.addGroup server conn userid groupid))
  | .groupChat => do
      let userid ← intAt js "id"
      let groupid ← intAt js "groupid"
      pure (some (.groupChat server conn userid groupid (json.dump js)))
  | .canNotFind _ => pure none

def request (buf : Text) : Except Exception (Option (Job S C)) := do
  let js ← parse json buf
  let msgid ← intAt js "msgid"
  job json server conn js (getHandler msgid)

def task [DecidableEq S] [DecidableEq C] : Option (Job S C) → Task S C Unit
  | some job => program job
  | none => pure ()

theorem orThrow_ok {α β : Type} (value : α) (next : α → Throwing S C β) :
    (orThrow (.ok value) >>= next) = next value := rfl

theorem orThrow_error {α β : Type} (error : Exception) (next : α → Throwing S C β) :
    (orThrow (.error error) >>= next) = orThrow (.error error) := rfl

variable [DecidableEq S] [DecidableEq C]

/-- Every handler reads its fields first. -/
theorem handle_job (handler : MsgHandler) :
    (handle json server conn js handler : Throwing S C Unit) =
    orThrow (job json server conn js handler) >>= fun job => run (task job) := by
  cases handler with
  | login =>
      unfold handle login job
      cases intAt js "id" <;> cases textAt js "password" <;> rfl
  | reg =>
      unfold handle reg job
      cases textAt js "name" <;> cases textAt js "password" <;> rfl
  | loginout =>
      unfold handle loginout job
      cases intAt js "id" <;> rfl
  | oneChat =>
      unfold handle oneChat job
      cases intAt js "to" <;> rfl
  | addFriend =>
      unfold handle addFriend job
      cases intAt js "id" <;> cases intAt js "friendid" <;> rfl
  | creatGroup =>
      unfold handle creatGroup job
      cases intAt js "id" <;> cases textAt js "groupname" <;> cases textAt js "groupdesc" <;> rfl
  | addGroup =>
      unfold handle addGroup job
      cases intAt js "id" <;> cases intAt js "groupid" <;> rfl
  | groupChat =>
      unfold handle groupChat job
      cases intAt js "id" <;> cases intAt js "groupid" <;> rfl
  | canNotFind msgid => rfl

theorem onMessage_request (buf : Text) : (onMessage json server conn buf : Throwing S C Unit) =
    orThrow (request json server conn buf) >>= fun job => run (task job) := by
  unfold onMessage request
  cases parse json buf with
  | error error => rfl
  | ok js =>
      rw [orThrow_ok]
      cases msgid : intAt js "msgid" with
      | error error =>
          change orThrow (.error error) >>= _ = orThrow (intAt js "msgid" >>= _) >>= _
          rw [msgid]
          rfl
      | ok number =>
          change handle json server conn js (getHandler number) = orThrow
            (intAt js "msgid" >>= _) >>= _
          rw [msgid, handle_job]
          rfl

theorem runs_refused (buf : Text) (error : Exception)
    (refused : request json server conn buf = .error error)
    (result : Except Exception Unit) (shared after : Shared S C) :
    Runs attempt (onMessage json server conn buf) shared result after ↔ result = .error error ∧
      after = shared := by
  rw [onMessage_request, refused, orThrow_error]
  exact runs_done attempt (.error error) result shared after

theorem runs_accepted (buf : Text) (asked : Option (Job S C))
    (accepted : request json server conn buf = .ok asked)
    (result : Except Exception Unit) (shared after : Shared S C) :
    Runs attempt (onMessage json server conn buf) shared result after ↔
      result = .ok () ∧ Runs attempt (task asked) shared () after := by
  rw [onMessage_request, accepted, orThrow_ok]
  change Runs attempt (task asked >>= fun value => .done (.ok value)) shared result after ↔ _
  rw [runs_bind]
  constructor
  · rintro ⟨value, middle, ran, last⟩
    obtain ⟨rfl, rfl⟩ := (runs_done attempt _ result middle after).mp last
    exact ⟨rfl, ran⟩
  · rintro ⟨rfl, ran⟩
    exact ⟨(), after, ran, (runs_done attempt _ _ after after).mpr ⟨rfl, rfl⟩⟩

/-- An exception leaves no effect behind. -/
theorem exception_no_effect (buf : Text) (error : Exception) (shared after : Shared S C)
    (ran : Runs attempt (onMessage json server conn buf) shared (.error error) after) :
    after = shared := by
  cases asked : request json server conn buf with
  | error _ => exact ((runs_refused json server conn buf _ asked _ shared after).mp ran).2
  | ok job =>
      obtain ⟨returns, _⟩ := (runs_accepted json server conn buf job asked _ shared after).mp ran
      cases returns

end Handlers

/-! A job comes to its end: the mutex is all that it can wait for. -/

section Finishing
variable {S C : Type} [DecidableEq S] [DecidableEq C]

def lockless : Monitor (Op S C) Res Unit where
  allowed _ op := ∀ server, op ≠ .lock server
  after _ _ _ := ()

/-- The server whose mutex a job locks. -/
def locks : Job S C → Option S
  | .loginout server _ _ => some server
  | .oneChat server _ _ _ => some server
  | .clientCloseException server _ => some server
  | .handlerRedisSubscribeMessage server _ _ => some server
  | _ => none

theorem perform_ready (op : Op S C) (shared : Shared S C) (notLock : ∀ server, op ≠ .lock server) :
    ∃ choice result after, perform choice op shared = some (result, after) := by
  cases op with
  | lock server => exact absurd rfl (notLock server)
  | findConn server conn =>
      cases ids : ((shared.userConnMap server).entries.filter
        fun entry => entry.2 = conn).map (·.1) with
      | nil => exact ⟨0, none, shared, by simp [perform, ids]⟩
      | cons first rest => exact ⟨first, some first, shared, by simp [perform, ids]⟩
  | insertUser user => exact ⟨0, none, shared, by simp [perform]⟩
  | createGroup name desc => exact ⟨0, none, shared, by simp [perform]⟩
  | subscribe server channel =>
      by_cases already : (server, channel) ∈ shared.subscribed
      · exact ⟨0, (), shared, by simp [perform, already]⟩
      · exact ⟨0, (), _, if_neg already⟩
  | _ => exact ⟨0, _, _, rfl⟩

def Lockless {α : Type} (program : Task S C α) : Prop := Follows lockless program (fun _ _ => True)
    ()

theorem lockless_finishes {α : Type} (program : Task S C α) (shared : Shared S C)
    (free : Lockless program) :
    ∃ value after, Runs attempt program shared value after := by
  induction program generalizing shared with
  | done value =>
      exact ⟨value, shared, (runs_done attempt value value shared shared).mpr ⟨rfl, rfl⟩⟩
  | act op next ih =>
      obtain ⟨choice, result, middle, performed⟩ := perform_ready op shared free.1
      obtain ⟨value, after, rest⟩ := ih result middle (free.2 result)
      exact ⟨value, after, (runs_act attempt op next shared after value).mpr
        ⟨some choice, result, middle, performed, rest⟩⟩

omit [DecidableEq S] [DecidableEq C] in
theorem lockless_bind {α β : Type} (program : Task S C α) (next : α → Task S C β)
    (first : Lockless program)
    (rest : ∀ value, Lockless (next value)) : Lockless (program >>= next) :=
  follows_seq lockless program next _ () ()
    (follows_mono lockless program _ _ (fun _ _ _ => rfl) () first) rest

omit [DecidableEq S] [DecidableEq C] in
theorem lockless_call (op : Op S C) (notLock : ∀ server, op ≠ .lock server) :
    Lockless (call op : Task S C (Res op)) := ⟨notLock, fun _ => trivial⟩

omit [DecidableEq S] [DecidableEq C] in
/-- An operation other than lock, and what follows it. -/
theorem lockless_act {β : Type} (op : Op S C) (next : Res op → Task S C β)
    (notLock : ∀ server, op ≠ .lock server)
    (rest : ∀ result, Lockless (next result)) : Lockless (call op >>= next) := ⟨notLock, rest⟩

omit [DecidableEq S] [DecidableEq C] in
theorem withMembers_lockless (groups : List Group) :
    Lockless (withMembers groups : Task S C (List Group)) := by
  induction groups with
  | nil => trivial
  | cons group rest ih =>
      refine lockless_act _ _ (by simp) fun users => lockless_bind _ _ ih fun groups => ?_
      trivial

omit [DecidableEq S] [DecidableEq C] in
theorem passOn_lockless (id : Int) (text : Text) : Lockless (passOn id text : Task S C Unit) := by
  refine lockless_act _ _ (by simp) fun user => ?_
  split <;> exact lockless_call _ (by simp)

omit [DecidableEq S] [DecidableEq C] in
theorem chatAll_lockless (server : S) (text : Text) (ids : List Int) :
    Lockless (chatAll server text ids : Task S C Unit) := by
  induction ids with
  | nil => trivial
  | cons id rest ih =>
      refine lockless_act _ _ (by simp) fun entry => ?_
      cases entry with
      | some conn => exact lockless_act _ _ (by simp) fun _ => ih
      | none => exact lockless_bind _ _ (passOn_lockless id text) fun _ => ih

omit [DecidableEq S] [DecidableEq C] in
theorem login_lockless (server : S) (conn : C) (id : Int) (pwd : Text) :
    Lockless (ChatService.login server conn id pwd : Task S C Unit) := by
  refine lockless_act _ _ (by simp) fun user => ?_
  split
  · split
    · exact lockless_call _ (by simp)
    · refine lockless_act _ _ (by simp) fun _ => lockless_act _ _ (by simp) fun _ =>
        lockless_act _ _ (by simp) fun _ => ?_
      refine lockless_bind _ _ (lockless_act _ _ (by simp) fun vec => ?_) fun vec => ?_
      · split
        · trivial
        · exact lockless_act _ _ (by simp) fun _ => trivial
      · refine lockless_act _ _ (by simp) fun userVec =>
          lockless_bind _ _ (lockless_act _ _ (by simp) fun groups => ?_)
          fun groups => lockless_call _ (by simp)
        exact withMembers_lockless groups
  · exact lockless_call _ (by simp)

/-- Behind a lock that can be taken. -/
theorem locked_finishes (server : S) (rest : Unit → Task S C Unit) (shared : Shared S C)
    (open_ : shared.connMutex server = false) (free : Lockless (rest ())) :
    ∃ after, Runs attempt (ChatService.lock server >>= rest) shared () after := by
  obtain ⟨_, after, ran⟩ := lockless_finishes (rest ())
    { shared with connMutex := Function.update shared.connMutex server true } free
  have locks : attempt (some 0) (Op.lock server) shared =
      some ((), { shared with connMutex := Function.update shared.connMutex server true }) := by
    simp only [attempt, perform, open_, Bool.false_eq_true, if_false]
  exact ⟨after, (runs_act attempt (Op.lock server) rest shared after ()).mpr
    ⟨some 0, (), _, locks, ran⟩⟩

theorem job_finishes (job : Job S C) (shared : Shared S C)
    (free : ∀ server ∈ locks job, shared.connMutex server = false) :
    ∃ after, Runs attempt (program job) shared () after := by
  have alone : Lockless (program job) → ∃ after, Runs attempt (program job) shared () after := by
    intro lockless
    obtain ⟨_, after, ran⟩ := lockless_finishes (program job) shared lockless
    exact ⟨after, ran⟩
  cases job with
  | login server conn id pwd => exact alone (login_lockless server conn id pwd)
  | reg server conn name pwd =>
      refine alone (lockless_act _ _ (by simp) fun inserted => ?_)
      cases inserted with
      | some id => exact lockless_call _ (by simp)
      | none => exact lockless_call _ (by simp)
  | loginout server conn userid =>
      refine locked_finishes server _ shared (free server rfl)
        (lockless_act _ _ (by simp) fun entry => ?_)
      have rest : Lockless (do
          unlock server
          call (Op.unsubscribe server userid)
          ChatService.updateState userid .offline : Task S C Unit) :=
        lockless_act _ _ (by simp) fun _ => lockless_act _ _ (by simp) fun _ =>
          lockless_call _ (by simp)
      cases entry with
      | some conn => exact lockless_act _ _ (by simp) fun _ => rest
      | none => exact rest
  | oneChat server conn toid text =>
      refine locked_finishes server _ shared (free server rfl)
        (lockless_act _ _ (by simp) fun entry => ?_)
      cases entry with
      | some conn => exact lockless_act _ _ (by simp) fun _ => lockless_call _ (by simp)
      | none => exact lockless_act _ _ (by simp) fun _ => passOn_lockless toid text
  | addFriend server conn userid friendid => exact alone (lockless_call _ (by simp))
  | creatGroup server conn userid name desc =>
      refine alone (lockless_act _ _ (by simp) fun created => ?_)
      cases created with
      | some groupid => exact lockless_call _ (by simp)
      | none => trivial
  | addGroup server conn userid groupid => exact alone (lockless_call _ (by simp))
  | groupChat server conn userid groupid text =>
      exact alone (lockless_act _ _ (by simp)
        fun useridVec => chatAll_lockless server text useridVec)
  | clientCloseException server conn =>
      refine locked_finishes server _ shared (free server rfl)
        (lockless_act _ _ (by simp) fun entry => ?_)
      cases entry with
      | some id =>
          refine lockless_act _ _ (by simp) fun _ => lockless_act _ _ (by simp) fun _ =>
            lockless_act _ _ (by simp) fun _ => ?_
          split
          · exact lockless_call _ (by simp)
          · trivial
      | none =>
          refine lockless_act _ _ (by simp) fun _ => lockless_act _ _ (by simp) fun _ => ?_
          split
          · exact lockless_call _ (by simp)
          · trivial
  | handlerRedisSubscribeMessage server userid msg =>
      refine locked_finishes server _ shared (free server rfl)
        (lockless_act _ _ (by simp) fun entry => ?_)
      cases entry with
      | some conn => exact lockless_act _ _ (by simp) fun _ => lockless_call _ (by simp)
      | none => exact lockless_act _ _ (by simp) fun _ => lockless_call _ (by simp)

end Finishing

/-! The requests that are handled. -/

inductive Kind where
  | int
  | text

/-- What each handler reads. -/
def fields : MsgHandler → List (String × Kind)
  | .login => [("id", .int), ("password", .text)]
  | .reg => [("name", .text), ("password", .text)]
  | .loginout => [("id", .int)]
  | .oneChat => [("to", .int)]
  | .addFriend => [("id", .int), ("friendid", .int)]
  | .creatGroup => [("id", .int), ("groupname", .text), ("groupdesc", .text)]
  | .addGroup => [("id", .int), ("groupid", .int)]
  | .groupChat => [("id", .int), ("groupid", .int)]
  | .canNotFind _ => []

/-- A member that is there and has the type that is asked for. -/
def Fits : Kind → Option Value → Prop
  | .int, some (.boolean _) => True
  | .int, some (.number _) => True
  | .int, some (.float _) => True
  | .text, some (.string _) => True
  | _, _ => False

/-- An object with a numeric msgid and, where that is known, the fields of its handler. -/
def WellFormed (json : Json) (buf : Text) : Prop :=
  ∃ members, json.text (Framing.firstBody 0 buf) = some (.object members) ∧
    Fits .int (members.lookup "msgid") ∧
    ∀ msgid, intAt (.object members) "msgid" = .ok msgid →
      ∀ field ∈ fields (getHandler msgid), Fits field.2 (members.lookup field.1)

theorem bind_eq_ok {α β : Type} (first : Except Exception α) (next : α → Except Exception β)
    (last : β) :
    (first >>= next) = .ok last ↔ ∃ value, first = .ok value ∧ next value = .ok last := by
  cases first with
  | error error => exact iff_of_false (by rintro ⟨⟩) (by rintro ⟨_, ⟨⟩, _⟩)
  | ok value =>
      constructor
      · intro equal
        exact ⟨value, rfl, equal⟩
      · rintro ⟨_, ⟨⟩, after⟩
        exact after

theorem bind_ok_iff {α β : Type} (first : Except Exception α) (next : α → Except Exception β) :
    (∃ last, (first >>= next) = .ok last) ↔ ∃ value, first = .ok value ∧
    ∃ last, next value = .ok last := by
  simp only [bind_eq_ok]
  rw [exists_comm]
  simp only [exists_and_left]

theorem pure_ok {α : Type} (value : α) :
    (∃ last, (pure value : Except Exception α) = .ok last) ↔ True :=
  iff_of_true ⟨value, rfl⟩ trivial

theorem intAt_ok (members : List (String × Value)) (key : String) :
    (∃ value, intAt (.object members) key = .ok value) ↔ Fits .int (members.lookup key) := by
  change (∃ value, getInt ((members.lookup key).getD .null) = .ok value) ↔ _
  cases members.lookup key with
  | none => simp [getInt, Fits]
  | some found => cases found <;> simp [getInt, Fits]

theorem textAt_ok (members : List (String × Value)) (key : String) :
    (∃ value, textAt (.object members) key = .ok value) ↔ Fits .text (members.lookup key) := by
  change (∃ value, getString ((members.lookup key).getD .null) = .ok value) ↔ _
  cases members.lookup key with
  | none => simp [getString, Fits]
  | some found => cases found <;> simp [getString, Fits]

/-- Only an object has a member that is a number. -/
theorem intAt_object (js : Value) (key : String) (value : Int) (found : intAt js key = .ok value) :
    ∃ members, js = .object members := by
  cases js with
  | object members => exact ⟨members, rfl⟩
  | _ => cases found

section Requests
variable {S C : Type} (json : Json) (server : S) (conn : C)

theorem job_ok (members : List (String × Value)) (handler : MsgHandler) :
    (∃ asked, (job json server conn (.object members) handler : Except Exception
      (Option (Job S C))) = .ok asked) ↔
      ∀ field ∈ fields handler, Fits field.2 (members.lookup field.1) := by
  cases handler <;>
    simp only [job, fields, bind_ok_iff, pure_ok, List.forall_mem_cons, List.not_mem_nil,
      false_implies, implies_true,
      and_true, exists_and_right, ← intAt_ok, ← textAt_ok]

theorem request_ok (buf : Text) :
    (∃ asked, (request json server conn buf : Except Exception (Option (Job S C))) = .ok asked) ↔
    WellFormed json buf := by
  rw [request, bind_ok_iff]
  simp only [bind_ok_iff, WellFormed]
  constructor
  · rintro ⟨js, parsed, msgid, found, asked⟩
    obtain ⟨members, rfl⟩ := intAt_object js "msgid" msgid found
    have text : json.text (Framing.firstBody 0 buf) = some (.object members) := by
      unfold parse at parsed
      split at parsed
      · rename_i read
        rw [read, Except.ok.inj parsed]
      · cases parsed
    refine ⟨members, text, (intAt_ok members "msgid").mp ⟨msgid, found⟩, fun other again => ?_⟩
    rw [found] at again
    cases again
    exact (job_ok json server conn members (getHandler msgid)).mp asked
  · rintro ⟨members, text, numeric, all⟩
    obtain ⟨msgid, found⟩ := (intAt_ok members "msgid").mpr numeric
    refine ⟨.object members, by rw [parse, text], msgid, found, ?_⟩
    exact (job_ok json server conn members (getHandler msgid)).mpr (all msgid found)

/-- The mutex that a request's job locks is that of its server. -/
theorem job_locks (js : Value) (handler : MsgHandler) (asked : Job S C)
    (accepted : job json server conn js handler = .ok (some asked)) (other : S)
    (locked : other ∈ locks asked) :
    other = server := by
  cases handler with
  | loginout =>
      obtain ⟨_, _, last⟩ := (bind_eq_ok _ _ _).mp accepted
      cases last
      exact (Option.some.inj locked).symm
  | oneChat =>
      obtain ⟨_, _, last⟩ := (bind_eq_ok _ _ _).mp accepted
      cases last
      exact (Option.some.inj locked).symm
  | canNotFind msgid => cases accepted
  | creatGroup =>
      -- the only one with three fields
      obtain ⟨_, _, rest⟩ := (bind_eq_ok _ _ _).mp accepted
      obtain ⟨_, _, rest⟩ := (bind_eq_ok _ _ _).mp rest
      obtain ⟨_, _, last⟩ := (bind_eq_ok _ _ _).mp rest
      cases last
      cases locked
  | _ =>
      obtain ⟨_, _, rest⟩ := (bind_eq_ok _ _ _).mp accepted
      obtain ⟨_, _, last⟩ := (bind_eq_ok _ _ _).mp rest
      cases last
      cases locked

theorem request_locks (buf : Text) (asked : Job S C)
    (accepted : request json server conn buf = .ok (some asked))
    (other : S) (locked : other ∈ locks asked) : other = server := by
  obtain ⟨js, _, rest⟩ := (bind_eq_ok _ _ _).mp accepted
  obtain ⟨msgid, _, last⟩ := (bind_eq_ok _ _ _).mp rest
  exact job_locks json server conn js (getHandler msgid) asked last other locked

variable [DecidableEq S] [DecidableEq C]

/-- onMessage returns, and one handler has run to its end or nothing has changed. -/
def Handled (buf : Text) (shared : Shared S C) : Prop :=
  (∃ after, Runs attempt (onMessage json server conn buf) shared (.ok ()) after) ∧
    ∀ result after, Runs attempt (onMessage json server conn buf) shared result after →
      result = .ok () ∧
      ((∃ asked, request json server conn buf = .ok (some asked) ∧
        Runs attempt (program asked) shared () after) ∨
        after = shared)

end Requests

/-- A library that knows two texts: the empty object, and the keys id and msgid with 1 and 3. -/
def twoTexts : Json where
  text buf :=
    if buf = [123, 125] then some (.object [])
    else if buf = ServerFraming.sampleDump .loginout then
      some (.object [("id", .number 1), ("msgid", .number 3)])
    else none
  dump _ := []

end MuduoChat.BadRequests
