import Mathlib.Data.List.AList
import MuduoChat.ByteBuffer
import MuduoChat.Interleaving

/-!
CHAT/src/server/chatservice.cpp for any number of servers that share one MySQL
database and one Redis. A handler is a program; its atomic steps are the
operations of _userConnMap, of the mutex, the SQL statements of the model
classes, the Redis commands and the sends. Every step succeeds, but for the two
statements that a UNIQUE KEY can refuse. A text is what json::dump() gave, and a
statement stores it unchanged. `routed`, `looked`, `sent`, `stored`, `published`
and `replies` record what the handlers did; the code does not keep them.
-/

namespace MuduoChat.ChatService
open ByteBuffer (Bytes)
open Interleaving

abbrev Text := Bytes

/-! The rows and the objects of the model classes. -/

inductive UserState where
  | online
  | offline
  deriving DecidableEq

structure User where
  id : Int := -1
  name : Text := []
  password : Text := []
  state : UserState := .offline
  deriving DecidableEq

structure UserRow where
  name : Text
  password : Text
  state : UserState
  deriving DecidableEq

inductive GroupRole where
  | creator
  | normal
  deriving DecidableEq

structure GroupUser extends User where
  role : GroupRole
  deriving DecidableEq

structure Group where
  id : Int
  name : Text
  desc : Text
  users : List GroupUser := []
  deriving DecidableEq

/-- The answers a server makes up itself: LOGIN_MSG_ACK and REG_MSG_ACK. -/
inductive Ack where
  | loginFailed (errno : Int) (errmsg : String)
  | loggedIn (id : Int) (name : Text) (offlinemsg : List Text) (friends : List User)
      (groups : List Group)
  | registered (id : Int)
  | regFailed (errno : Int)

/-- A text on its way to a user: from a chat request, or reported by Redis to a server. -/
inductive Mail (S : Type) where
  | chat (text : Text)
  | relayed (server : S) (text : Text)
  deriving DecidableEq

def Mail.text {S : Type} : Mail S → Text
  | .chat text => text
  | .relayed _ text => text

/-- A look-up in _userConnMap is made to erase the entry or to pass a text on. -/
inductive Purpose (S : Type) where
  | erasing
  | passing (mail : Mail S)
  deriving DecidableEq

/-! The shared state: the tables, the servers, and Redis. -/

structure Shared (S C : Type) where
  user : AList fun _ : Int => UserRow
  offlinemessage : List (Int × Text)
  friend : List (Int × Int)
  allgroup : AList fun _ : Int => Text × Text
  groupuser : List (Int × Int × GroupRole)
  userConnMap : S → AList fun _ : Int => C
  connMutex : S → Bool
  subscribed : List (S × Int)
  relay : List (S × Int × Text)
  routed : List (Int × Text)
  looked : List (Int × Option C × Mail S)
  sent : List (Int × C × Mail S)
  stored : List (Int × Mail S)
  published : List (Int × Text × List S)
  replies : List (C × Ack)

inductive Op (S C : Type) where
  | lock (server : S)
  | unlock (server : S)
  | find (server : S) (id : Int) (purpose : Purpose S)
  | findConn (server : S) (conn : C)
  | insertConn (server : S) (id : Int) (conn : C)
  | eraseConn (server : S) (id : Int)
  | insertUser (user : User)
  | queryUser (id : Int)
  | updateState (id : Int) (state : UserState)
  | insertMsg (userid : Int) (mail : Mail S)
  | removeMsgs (userid : Int)
  | queryMsgs (userid : Int)
  | insertFriend (userid friendid : Int)
  | queryFriends (userid : Int)
  | createGroup (name desc : Text)
  | addGroup (userid groupid : Int) (role : GroupRole)
  | queryGroups (userid : Int)
  | queryMembers (groupid : Int)
  | queryGroupUsers (userid groupid : Int)
  | publish (channel : Int) (message : Text)
  | subscribe (server : S) (channel : Int)
  | unsubscribe (server : S) (channel : Int)
  | forward (id : Int) (conn : C) (mail : Mail S)
  | reply (conn : C) (ack : Ack)

abbrev Res {S C : Type} : Op S C → Type
  | .find .. => Option C
  | .findConn .. => Option Int
  | .insertUser .. => Option Int
  | .queryUser .. => User
  | .queryMsgs .. => List Text
  | .queryFriends .. => List User
  | .createGroup .. => Option Int
  | .queryGroups .. => List Group
  | .queryMembers .. => List GroupUser
  | .queryGroupUsers .. => List Int
  | _ => Unit

section Steps
variable {S C : Type} [DecidableEq S] [DecidableEq C]

/-- UserModel::query: no row gives User(). -/
def findUser (shared : Shared S C) (id : Int) : User :=
  match shared.user.lookup id with
  | none => {}
  | some row => { id := id, name := row.name, password := row.password, state := row.state }

/-- The test of login that leads to errno 0. -/
def accepts (id : Int) (pwd : Text) (user : User) : Prop :=
  user.id = id ∧ user.password = pwd ∧ user.state ≠ .online

instance (id : Int) (pwd : Text) (user : User) : Decidable (accepts id pwd user) :=
  inferInstanceAs (Decidable (_ ∧ _))

/-- update user set state = … where id = … -/
def setUserState (user : AList fun _ : Int => UserRow) (id : Int) (state : UserState) :
    AList fun _ : Int => UserRow :=
  match user.lookup id with
  | none => user
  | some row => user.insert id { row with state := state }

/-- unordered_map::insert leaves an existing entry as it is. -/
def insertNew (entries : AList fun _ : Int => C) (id : Int) (conn : C) : AList fun _ : Int => C :=
  if id ∈ entries then entries else entries.insert id conn

omit [DecidableEq S] [DecidableEq C] in
theorem insertNew_other (entries : AList fun _ : Int => C) (id other : Int) (conn : C)
    (away : other ≠ id) :
    (insertNew entries id conn).lookup other = entries.lookup other := by
  unfold insertNew
  split
  · rfl
  · exact AList.lookup_insert_ne away

omit [DecidableEq S] [DecidableEq C] in
theorem insertNew_absent (entries : AList fun _ : Int => C) (id : Int) (conn : C)
    (absent : entries.lookup id = none) :
    (insertNew entries id conn).lookup id = some conn := by
  rw [insertNew, if_neg (AList.lookup_eq_none.mp absent), AList.lookup_insert]

omit [DecidableEq S] [DecidableEq C] in
theorem setUserState_lookup (user : AList fun _ : Int => UserRow) (id other : Int)
    (state : UserState) :
    (setUserState user id state).lookup other =
      (user.lookup other).map fun row => if other = id then { row with state := state }
        else row := by
  unfold setUserState
  by_cases here : other = id
  · subst here
    cases found : user.lookup other with
    | none => simp [found]
    | some row => simp [AList.lookup_insert]
  · cases found : user.lookup id with
    | none => simp [here]
    | some row => simp [AList.lookup_insert_ne here, here]

def messagesOf (rows : List (Int × Text)) (userid : Int) : List Text :=
  (rows.filter fun row => row.1 = userid).map (·.2)

/-- The servers that a message published on the channel reaches. -/
def subscribers (subscribed : List (S × Int)) (channel : Int) : List S :=
  (subscribed.filter fun entry => entry.2 = channel).map (·.1)

def friendsOf (shared : Shared S C) (userid : Int) : List User :=
  shared.friend.filterMap fun row =>
    if row.1 = userid then (shared.user.lookup row.2).map fun found =>
      { id := row.2, name := found.name, state := found.state }
    else none

def groupsOf (shared : Shared S C) (userid : Int) : List Group :=
  shared.groupuser.filterMap fun row =>
    if row.2.1 = userid then (shared.allgroup.lookup row.1).map fun found =>
      { id := row.1, name := found.1, desc := found.2 }
    else none

def membersOf (shared : Shared S C) (groupid : Int) : List GroupUser :=
  shared.groupuser.filterMap fun row =>
    if row.1 = groupid then (shared.user.lookup row.2.1).map fun found =>
      { id := row.2.1, name := found.name, state := found.state, role := row.2.2 }
    else none

def route : Purpose S → Int → List (Int × Text)
  | .passing (.chat text), id => [(id, text)]
  | _, _ => []

def look (found : Option C) : Purpose S → Int → List (Int × Option C × Mail S)
  | .passing mail, id => [(id, found, mail)]
  | .erasing, _ => []

/-- `choice` is the id that AUTO_INCREMENT gives a new row (none where it is not
positive: a UNIQUE KEY refuses the row), or the entry that the search for a
connection meets first. -/
def perform (choice : Int) : (op : Op S C) → Shared S C → Option (Res op × Shared S C)
  | .lock server, shared =>
      if shared.connMutex server then none
      else some ((), { shared with connMutex := Function.update shared.connMutex server true })
  | .unlock server, shared => some ((),
      { shared with connMutex := Function.update shared.connMutex server false })
  | .find server id purpose, shared =>
      let found := (shared.userConnMap server).lookup id
      some (found, { shared with routed := shared.routed ++ route purpose id,
                                 looked := shared.looked ++ look found purpose id })
  | .findConn server conn, shared =>
      let ids := ((shared.userConnMap server).entries.filter fun entry => entry.2 = conn).map (·.1)
      if ids = [] then some (none, shared)
      else if choice ∈ ids then some (some choice, shared)
      else none
  | .insertConn server id conn, shared =>
      let entries := insertNew (shared.userConnMap server) id conn
      some ((), { shared with userConnMap := Function.update shared.userConnMap server entries })
  | .eraseConn server id, shared =>
      let entries := (shared.userConnMap server).erase id
      some ((), { shared with userConnMap := Function.update shared.userConnMap server entries })
  | .insertUser user, shared =>
      if choice ≤ 0 then some (none, shared)
      else if choice ∈ shared.user then none
      else
        some (some choice,
          { shared with user := shared.user.insert choice ⟨user.name, user.password, user.state⟩ })
  | .queryUser id, shared => some (findUser shared id, shared)
  | .updateState id state, shared =>
      some ((), { shared with user := setUserState shared.user id state })
  | .insertMsg userid mail, shared =>
      some ((), { shared with offlinemessage := shared.offlinemessage ++ [(userid, mail.text)],
                              stored := shared.stored ++ [(userid, mail)] })
  | .removeMsgs userid, shared =>
      some ((), { shared with offlinemessage := shared.offlinemessage.filter fun row =>
                                row.1 ≠ userid })
  | .queryMsgs userid, shared => some (messagesOf shared.offlinemessage userid, shared)
  | .insertFriend userid friendid, shared =>
      some ((), { shared with friend := shared.friend ++ [(userid, friendid)] })
  | .queryFriends userid, shared => some (friendsOf shared userid, shared)
  | .createGroup name desc, shared =>
      if choice ≤ 0 then some (none, shared)
      else if choice ∈ shared.allgroup then none
      else
        some (some choice, { shared with allgroup := shared.allgroup.insert choice (name, desc) })
  | .addGroup userid groupid role, shared =>
      some ((), { shared with groupuser := shared.groupuser ++ [(groupid, userid, role)] })
  | .queryGroups userid, shared => some (groupsOf shared userid, shared)
  | .queryMembers groupid, shared => some (membersOf shared groupid, shared)
  | .queryGroupUsers userid groupid, shared => some
      ((shared.groupuser.filter fun row => row.1 = groupid ∧ row.2.1 ≠ userid).map (·.2.1), shared)
  | .publish channel message, shared =>
      let reached := subscribers shared.subscribed channel
      some ((), { shared with relay := shared.relay ++ reached.map (fun server => (server,
        channel, message)),
                              published := shared.published ++ [(channel, message, reached)] })
  | .subscribe server channel, shared =>
      if (server, channel) ∈ shared.subscribed then some ((), shared)
      else some ((), { shared with subscribed := shared.subscribed ++ [(server, channel)] })
  | .unsubscribe server channel, shared =>
      some ((), { shared with subscribed := shared.subscribed.filter fun entry => entry ≠ (server,
        channel) })
  | .forward id conn mail, shared =>
      some ((), { shared with sent := shared.sent ++ [(id, conn, mail)] })
  | .reply conn ack, shared => some ((), { shared with replies := shared.replies ++ [(conn, ack)] })

/-- A server that subscribes again stays subscribed as it was. -/
theorem subscribe_spec (choice : Int) (server : S) (channel : Int) (result : Unit)
    (shared after : Shared S C)
    (subscribes : perform choice (.subscribe server channel) shared = some (result, after)) :
    after.user = shared.user ∧ after.userConnMap = shared.userConnMap ∧
      ∀ entry, entry ∈ after.subscribed ↔ entry ∈ shared.subscribed ∨ entry = (server, channel) :=
        by
  simp only [perform] at subscribes
  split at subscribes
  · rename_i already
    cases subscribes
    refine ⟨rfl, rfl, fun entry => ⟨Or.inl, ?_⟩⟩
    rintro (before | rfl)
    · exact before
    · exact already
  · cases subscribes
    exact ⟨rfl, rfl, fun entry => by simp⟩

end Steps

/-! The handlers. -/

section Handlers
variable {S C : Type}

abbrev Task (S C : Type) := Prog (Op S C) Res

def lock (server : S) : Task S C Unit := call (Op.lock server)
def unlock (server : S) : Task S C Unit := call (Op.unlock server)
def find (server : S) (id : Int) (purpose : Purpose S) : Task S C (Option C) :=
    call (Op.find server id purpose)
def queryUser (id : Int) : Task S C User := call (Op.queryUser id)
def updateState (id : Int) (state : UserState) : Task S C Unit := call (Op.updateState id state)
def reply (conn : C) (ack : Ack) : Task S C Unit := call (Op.reply conn ack)

/-- GroupModel::queryGroups, the members of one group after the other. -/
def withMembers : List Group → Task S C (List Group)
  | [] => pure []
  | group :: rest => do
      let users ← call (Op.queryMembers group.id)
      let groups ← withMembers rest
      pure ({ group with users := users } :: groups)

def queryGroups (userid : Int) : Task S C (List Group) := do
  let groups ← call (Op.queryGroups userid)
  withMembers groups

def takeOffline (id : Int) : Task S C (List Text) := do
  let vec ← call (Op.queryMsgs id)
  if vec = [] then pure [] else do
    call (Op.removeMsgs id)
    pure vec

/-- A mark that the query of the members leaves in place. -/
theorem withMembers_keep {Mark : Type} (monitor : Monitor (Op S C) Res Mark) (mark : Mark)
    (groups : List Group)
    (keeps : ∀ id users, monitor.allowed mark (.queryMembers id) ∧
      monitor.after mark (.queryMembers id) users = mark) :
    Follows monitor (withMembers groups) (fun _ last => last = mark) mark := by
  induction groups with
  | nil => rfl
  | cons group rest ih =>
      simp only [withMembers, call_bind, follows_act, follows_bind]
      refine ⟨(keeps group.id []).1, fun users => ?_⟩
      rw [(keeps group.id users).2]
      exact follows_mono _ _ _ _ (fun _ _ same => same) _ ih

theorem takeOffline_keep {Mark : Type} (monitor : Monitor (Op S C) Res Mark) (mark : Mark)
    (id : Int)
    (queries : ∀ vec, monitor.allowed mark (.queryMsgs id) ∧
      monitor.after mark (.queryMsgs id) vec = mark)
    (removes : ∀ done, monitor.allowed mark (.removeMsgs id) ∧
      monitor.after mark (.removeMsgs id) done = mark) :
    Follows monitor (takeOffline id) (fun _ last => last = mark) mark := by
  simp only [takeOffline, call_bind, follows_act]
  refine ⟨(queries []).1, fun vec => ?_⟩
  rw [(queries vec).2]
  split
  · rfl
  · exact ⟨(removes ()).1, fun done => (removes done).2⟩

def login (server : S) (conn : C) (id : Int) (pwd : Text) : Task S C Unit := do
  let user ← queryUser id
  if user.id = id ∧ user.password = pwd then
    if user.state = .online then
      reply conn (.loginFailed 2 "This account is using,please input another one!")
    else do
      -- `unique_lock<mutex>(_connMutex);` declares a lock of that name that locks nothing
      call (Op.insertConn server id conn)
      call (Op.subscribe server id)
      updateState user.id .online
      let vec ← takeOffline id
      let userVec ← call (Op.queryFriends id)
      let groups ← queryGroups id
      reply conn (.loggedIn user.id user.name vec userVec groups)
  else reply conn (.loginFailed 1 "Id or password is wrong! ")

def reg (conn : C) (name pwd : Text) : Task S C Unit := do
  let inserted ← call (Op.insertUser { name := name, password := pwd })
  match inserted with
  | some id => reply conn (.registered id)
  | none => reply conn (.regFailed 1)

def loginout (server : S) (userid : Int) : Task S C Unit := do
  lock server
  let entry ← find server userid .erasing
  if entry.isSome then call (Op.eraseConn server userid) else pure ()
  unlock server
  call (Op.unsubscribe server userid)
  updateState userid .offline

/-- What oneChat and groupChat do with a text for a user who is not in the map. -/
def passOn (id : Int) (text : Text) : Task S C Unit := do
  let user ← queryUser id
  if user.state = .online then call (Op.publish id text)
  else call (Op.insertMsg id (.chat text))

def oneChat (server : S) (toid : Int) (text : Text) : Task S C Unit := do
  lock server
  let entry ← find server toid (.passing (.chat text))
  match entry with
  | some conn => do
      call (Op.forward toid conn (.chat text))
      unlock server
  | none => do
      unlock server
      passOn toid text

def addFriend (userid friendid : Int) : Task S C Unit := call (Op.insertFriend userid friendid)

def creatGroup (userid : Int) (name desc : Text) : Task S C Unit := do
  let created ← call (Op.createGroup name desc)
  match created with
  | some groupid => call (Op.addGroup userid groupid .creator)
  | none => pure ()

def addGroup (userid groupid : Int) : Task S C Unit := call (Op.addGroup userid groupid .normal)

def chatAll (server : S) (text : Text) : List Int → Task S C Unit
  | [] => pure ()
  | id :: rest => do
      let entry ← find server id (.passing (.chat text))
      match entry with
      | some conn => call (Op.forward id conn (.chat text))
      | none => passOn id text
      chatAll server text rest

/-- The lock declared here locks nothing either. -/
def groupChat (server : S) (userid groupid : Int) (text : Text) : Task S C Unit := do
  let useridVec ← call (Op.queryGroupUsers userid groupid)
  chatAll server text useridVec

def clientCloseException (server : S) (conn : C) : Task S C Unit := do
  lock server
  let entry ← call (Op.findConn server conn)
  match entry with
  | some id => call (Op.eraseConn server id)
  | none => pure ()
  unlock server
  let id := entry.getD (-1)
  call (Op.unsubscribe server id)
  if id ≠ -1 then updateState id .offline else pure ()

def handlerRedisSubscribeMessage (server : S) (userid : Int) (msg : Text) : Task S C Unit := do
  lock server
  let entry ← find server userid (.passing (.relayed server msg))
  match entry with
  | some conn => call (Op.forward userid conn (.relayed server msg))
  | none => call (Op.insertMsg userid (.relayed server msg))
  unlock server

end Handlers

/-! What the worker threads and the Redis thread of a server run. -/

inductive Job (S C : Type) where
  | login (server : S) (conn : C) (id : Int) (pwd : Text)
  | reg (server : S) (conn : C) (name pwd : Text)
  | loginout (server : S) (conn : C) (userid : Int)
  | oneChat (server : S) (conn : C) (toid : Int) (text : Text)
  | addFriend (server : S) (conn : C) (userid friendid : Int)
  | creatGroup (server : S) (conn : C) (userid : Int) (name desc : Text)
  | addGroup (server : S) (conn : C) (userid groupid : Int)
  | groupChat (server : S) (conn : C) (userid groupid : Int) (text : Text)
  | clientCloseException (server : S) (conn : C)
  | handlerRedisSubscribeMessage (server : S) (userid : Int) (msg : Text)
  deriving DecidableEq

section System
variable {S C : Type} [DecidableEq S] [DecidableEq C]

def program : Job S C → Task S C Unit
  | .login server conn id pwd => login server conn id pwd
  | .reg _ conn name pwd => reg conn name pwd
  | .loginout server _ userid => loginout server userid
  | .oneChat server _ toid text => oneChat server toid text
  | .addFriend _ _ userid friendid => addFriend userid friendid
  | .creatGroup _ _ userid name desc => creatGroup userid name desc
  | .addGroup _ _ userid groupid => addGroup userid groupid
  | .groupChat server _ userid groupid text => groupChat server userid groupid text
  | .clientCloseException server conn => clientCloseException server conn
  | .handlerRedisSubscribeMessage server userid msg =>
      handlerRedisSubscribeMessage server userid msg

/-- The Redis thread reports what has been published, in any order. -/
def launch : Job S C → Shared S C → Option (Shared S C)
  | .handlerRedisSubscribeMessage server userid msg, shared =>
      if (server, userid, msg) ∈ shared.relay then
        some { shared with relay := shared.relay.erase (server, userid, msg) }
      else none
  | _, shared => some shared

omit [DecidableEq C] in
/-- A job that starts changes no more than what Redis has left to report. -/
theorem launch_frame (job : Job S C) (shared other : Shared S C)
    (launched : launch job shared = some other) :
    ∃ relay, other = { shared with relay := relay } := by
  cases job with
  | handlerRedisSubscribeMessage server userid msg =>
      simp only [launch] at launched
      split at launched
      · cases launched
        exact ⟨_, rfl⟩
      · cases launched
  | _ =>
      simp only [launch, Option.some.injEq] at launched
      exact ⟨shared.relay, launched.symm⟩

def servers : System (Shared S C) (Job S C) (Op S C) Res Int where
  program := program
  launch := launch
  perform := perform

end System

abbrev Servers (S C : Type) := Pool (Shared S C) (Job S C) (Op S C) Res

section Samples
variable {S C : Type}

/-- Servers that have just been started over a database without friends and groups. -/
def started (user : AList fun _ : Int => UserRow)
    (offlinemessage : List (Int × Text)) : Servers S C where
  shared :=
    { user := user
      offlinemessage := offlinemessage
      friend := []
      allgroup := ∅
      groupuser := []
      userConnMap := fun _ => ∅
      connMutex := fun _ => false
      subscribed := []
      relay := []
      routed := []
      looked := []
      sent := []
      stored := []
      published := []
      replies := [] }
  threads := []

/-- A table with one user, who is offline. -/
def oneUser : AList fun _ : Int => UserRow := AList.insert 1 ⟨[97], [120], .offline⟩ ∅

/-- The steps of one thread. -/
def steps (thread count : Nat) : List (Action (Job S C) Int) :=
    List.replicate count (.step thread 0)

end Samples
end MuduoChat.ChatService
