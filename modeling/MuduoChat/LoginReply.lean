import Mathlib.Data.List.AList
import MuduoChat.Sessions
import MuduoChat.ClientFraming
import MuduoChat.SqlText

/-!
The reply to a successful login, from ChatService::login to doLoginResponse of the client.
Friends and groups travel as arrays of dumped objects, and a group's members as an array
of dumped objects inside its own; an empty section is left out. The client keeps what it
received in globals, which a later login finds as the earlier one left them. What the
client prints is left out, but not the exceptions on the way to it.
-/

namespace MuduoChat.LoginReply
open ChatService (Text UserState GroupRole)
open SqlText (ascii)
open ServerFraming (LOGIN_MSG_ACK ONE_CHAT_MSG GROUP_CHAT_MSG)

/-! nlohmann::json, as far as the reply goes. -/

inductive Value where
  | number (value : Int)
  | string (value : Text)
  | strings (values : List Text)
  deriving DecidableEq

abbrev Object := AList fun _ : String => Value

structure Json where
  dump : Object → Text
  parse : Text → Option Object

def getInt (js : Object) (key : String) : Option Int :=
  match js.lookup key with
  | some (.number value) => some value
  | _ => none

def getString (js : Object) (key : String) : Option Text :=
  match js.lookup key with
  | some (.string value) => some value
  | _ => none

def getStrings (js : Object) (key : String) : Option (List Text) :=
  match js.lookup key with
  | some (.strings values) => some values
  | _ => none

/-! user.hpp, groupuser.hpp and group.hpp, which the server and the client share. -/

def offline : Text := ascii "offline"
def online : Text := ascii "online"
def creator : Text := ascii "creator"
def normal : Text := ascii "normal"

structure User where
  id : Int := -1
  name : Text := []
  password : Text := []
  state : Text := offline
  deriving DecidableEq

structure GroupUser extends User where
  role : Text := []
  deriving DecidableEq

structure Group where
  id : Int := -1
  name : Text := []
  desc : Text := []
  users : List GroupUser := []
  deriving DecidableEq

/-! The server's side. -/

section Server
variable (json : Json)

def userObject (user : User) : Object :=
  ((AList.insert "id" (.number user.id) ∅).insert "name" (.string user.name)).insert "state"
    (.string user.state)

def memberObject (user : GroupUser) : Object := (userObject user.toUser).insert "role"
    (.string user.role)

def groupObject (group : Group) : Object :=
  (((AList.insert "id" (.number group.id) ∅).insert "groupname" (.string group.name)).insert
    "groupdesc" (.string group.desc)).insert "users"
      (.strings (group.users.map fun user => json.dump (memberObject user)))

/-- `response[key] = vec` for a section that is left out when it is empty. -/
def putSection (response : Object) (key : String) (vec : List Text) : Object :=
  if vec = [] then response else response.insert key (.strings vec)

def loginReply (user : User) (vec : List Text) (userVec : List User)
    (groups : List Group) : Object :=
  let response := (((AList.insert "msgid" (.number LOGIN_MSG_ACK) ∅).insert "errno"
    (.number 0)).insert
    "id" (.number user.id)).insert "name" (.string user.name)
  let response := putSection response "offlinemsg" vec
  let response := putSection response "friends"
    (userVec.map fun user => json.dump (userObject user))
  putSection response "groups" (groups.map fun group => json.dump (groupObject json group))

end Server

/-! The client's side. -/

/-- The globals of the client. -/
structure Client where
  currentUser : User := {}
  currentUserFriendList : List User := []
  currentUserGroupList : List Group := []
  isLoginSuccess : Bool := false
  deriving DecidableEq

/-- Code that changes the globals and may throw. -/
abbrev Handler := EStateM Unit Client

def orThrow {α : Type} : Option α → Handler α
  | some value => pure value
  | none => throw ()

section Client
variable (json : Json)

def readUser (str : Text) : Option User := do
  let js ← json.parse str
  let id ← getInt js "id"
  let name ← getString js "name"
  let state ← getString js "state"
  pure { id := id, name := name, state := state }

def readMember (str : Text) : Option GroupUser := do
  let js ← json.parse str
  let id ← getInt js "id"
  let name ← getString js "name"
  let state ← getString js "state"
  let role ← getString js "role"
  pure { id := id, name := name, state := state, role := role }

def readGroup (str : Text) : Option Group := do
  let grpjs ← json.parse str
  let id ← getInt grpjs "id"
  let name ← getString grpjs "groupname"
  let desc ← getString grpjs "groupdesc"
  let vec2 ← getStrings grpjs "users"
  let users ← vec2.mapM (readMember json)
  pure { id := id, name := name, desc := desc, users := users }

def pushFriends : List Text → Handler Unit
  | [] => pure ()
  | str :: rest => do
      let user ← orThrow (readUser json str)
      modify fun client =>
        { client with currentUserFriendList := client.currentUserFriendList ++ [user] }
      pushFriends rest

def pushGroups : List Text → Handler Unit
  | [] => pure ()
  | str :: rest => do
      let group ← orThrow (readGroup json str)
      modify fun client =>
        { client with currentUserGroupList := client.currentUserGroupList ++ [group] }
      pushGroups rest

/-- What the client reads of an offline message before it prints it. -/
def showOffline : List Text → Handler Unit
  | [] => pure ()
  | str :: rest => do
      let js ← orThrow (json.parse str)
      let msgtype ← orThrow (getInt js "msgid")
      if msgtype = ONE_CHAT_MSG ∨ msgtype = GROUP_CHAT_MSG then do
        let _ ← orThrow (getString js "time")
        let _ ← orThrow (getString js "name")
        let _ ← orThrow (getString js "msg")
        showOffline rest
      else showOffline rest

/-- A section of the reply: what is cleared, and what reads it, only if the reply has it. -/
def withSection (responsejs : Object) (key : String) (clear : Client → Client)
    (read : List Text → Handler Unit) :
    Handler Unit :=
  if key ∈ responsejs then do
    modify clear
    let vec ← orThrow (getStrings responsejs key)
    read vec
  else pure ()

def doLoginResponse (responsejs : Object) : Handler Unit := do
  let errno ← orThrow (getInt responsejs "errno")
  if errno ≠ 0 then
    modify fun client => { client with isLoginSuccess := false }
  else do
    let id ← orThrow (getInt responsejs "id")
    modify fun client => { client with currentUser := { client.currentUser with id := id } }
    let name ← orThrow (getString responsejs "name")
    modify fun client => { client with currentUser := { client.currentUser with name := name } }
    withSection responsejs "friends" (fun client => { client with currentUserFriendList := [] })
      (pushFriends json)
    withSection responsejs "groups" (fun client => { client with currentUserGroupList := [] })
      (pushGroups json)
    withSection responsejs "offlinemsg" (fun client => client) (showOffline json)
    modify fun client => { client with isLoginSuccess := true }

/-- readTaskHandler with the bytes of one whole message. -/
def receive (text : Text) : Handler Unit := do
  let js ← orThrow (json.parse text)
  let msgtype ← orThrow (getInt js "msgid")
  match ClientFraming.branch msgtype with
  | .doLoginResponse => doLoginResponse json js
  | _ => pure ()

end Client

/-- The globals after it, whether it threw or not. -/
def globals : EStateM.Result Unit Client Unit → Client
  | .ok _ client => client
  | .error _ client => client

/-! What is read back of one object. -/

/-- A user as the reply shows it. -/
def listed (user : User) : User := { user with password := [] }

def listedMember (user : GroupUser) : GroupUser := { user with password := [] }

def listedGroup (group : Group) : Group := { group with users := group.users.map listedMember }

section Reading
variable (json : Json)

theorem readUser_dump (user : User)
    (inverse : json.parse (json.dump (userObject user)) = some (userObject user)) :
    readUser json (json.dump (userObject user)) = some (listed user) := by
  rw [readUser, inverse]
  simp [userObject, getInt, getString, listed, AList.lookup_insert_ne, -AList.insert_empty]

theorem readMember_dump (user : GroupUser)
    (inverse : json.parse (json.dump (memberObject user)) = some (memberObject user)) :
    readMember json (json.dump (memberObject user)) = some (listedMember user) := by
  rw [readMember, inverse]
  simp [memberObject, userObject, getInt, getString, listedMember,
    AList.lookup_insert_ne, -AList.insert_empty]

theorem readGroup_dump (group : Group)
    (inverse : json.parse (json.dump (groupObject json group)) = some (groupObject json group))
    (members : ∀ user ∈ group.users,
      json.parse (json.dump (memberObject user)) = some (memberObject user)) :
    readGroup json (json.dump (groupObject json group)) = some (listedGroup group) := by
  have users : (group.users.map fun user => json.dump (memberObject user)).mapM (readMember json) =
      some (group.users.map listedMember) := by
    generalize group.users = list at members
    induction list with
    | nil => rfl
    | cons user rest ih =>
        have here := readMember_dump json user (members user (by simp))
        have later := ih fun other member => members other (by simp [member])
        simp [here, later]
  rw [readGroup, inverse]
  simp [groupObject, getInt, getString, getStrings, users, listedGroup,
    AList.lookup_insert_ne, -AList.insert_empty]

/-! The sections, one after the other. -/

theorem orThrow_bind {α β : Type} (value : α) (next : α → Handler β) :
    (orThrow (some value) >>= next) = next value := by
  rfl

theorem bind_ok {α β : Type} (first : Handler α) (next : α → Handler β) (client after : Client)
    (value : α)
    (done : first client = .ok value after) : (first >>= next) client = next value after := by
  simp [bind, EStateM.bind, done]

theorem modify_bind {β : Type} (change : Client → Client) (next : Handler β) (client : Client) :
    (modify change >>= fun _ => next) client = next (change client) := rfl

theorem pushFriends_all (friends : List User) (client : Client)
    (inverse : ∀ user ∈ friends, json.parse
      (json.dump (userObject user)) = some (userObject user)) :
    pushFriends json (friends.map fun user => json.dump (userObject user)) client = .ok ()
      { client with currentUserFriendList := client.currentUserFriendList ++
                      friends.map listed } := by
  induction friends generalizing client with
  | nil =>
      rw [List.map_nil, List.map_nil, List.append_nil]
      rfl
  | cons user rest ih =>
      have here := readUser_dump json user (inverse user (by simp))
      simp only [List.map_cons, pushFriends, here, orThrow_bind, modify_bind]
      rw [ih _ fun other member => inverse other (by simp [member])]
      simp

theorem pushGroups_all (groups : List Group) (client : Client)
    (inverse : ∀ group ∈ groups, json.parse
      (json.dump (groupObject json group)) = some (groupObject json group) ∧
      ∀ user ∈ group.users, json.parse (json.dump (memberObject user)) = some (memberObject user)) :
    pushGroups json (groups.map fun group => json.dump (groupObject json group)) client = .ok ()
      { client with currentUserGroupList := client.currentUserGroupList ++
                      groups.map listedGroup } := by
  induction groups generalizing client with
  | nil =>
      rw [List.map_nil, List.map_nil, List.append_nil]
      rfl
  | cons group rest ih =>
      obtain ⟨itself, members⟩ := inverse group (by simp)
      have here := readGroup_dump json group itself members
      simp only [List.map_cons, pushGroups, here, orThrow_bind, modify_bind]
      rw [ih _ fun other member => inverse other (by simp [member])]
      simp

theorem orThrow_globals {α : Type} (found : Option α) (next : α → Handler Unit) (client : Client)
    (kept : ∀ value, globals (next value client) = client) :
    globals ((orThrow found >>= next) client) = client := by
  cases found with
  | none => rfl
  | some value => exact kept value

/-- An offline message is read, not kept. -/
theorem showOffline_globals (vec : List Text) (client : Client) :
    globals (showOffline json vec client) = client := by
  induction vec with
  | nil => rfl
  | cons str rest ih =>
      rw [showOffline]
      refine orThrow_globals _ _ client fun js => orThrow_globals _ _ client fun msgtype => ?_
      split
      · exact orThrow_globals _ _ client fun _ => orThrow_globals _ _ client fun _ =>
          orThrow_globals _ _ client fun _ => ih
      · exact ih

theorem putSection_lookup (response : Object) (key other : String) (vec : List Text) :
    (putSection response key vec).lookup other =
      if other = key ∧ vec ≠ [] then some (.strings vec) else response.lookup other := by
  unfold putSection
  by_cases none_ : vec = []
  · simp [none_]
  · by_cases same : other = key
    · subst same
      simp [none_]
    · simp [none_, same, AList.lookup_insert_ne]

/-- A section with entries is read after the clearing, one without leaves all as it is. -/
theorem withSection_put (responsejs : Object) (key : String) (vec : List Text)
    (clear : Client → Client)
    (read : List Text → Handler Unit) (client : Client)
    (put : responsejs.lookup key = if vec ≠ [] then some (.strings vec) else none) :
    withSection responsejs key clear read client = if vec = [] then .ok () client
      else read vec (clear client) := by
  by_cases none_ : vec = []
  · have absent : key ∉ responsejs := AList.lookup_eq_none.mp (by simpa [none_] using put)
    rw [withSection, if_neg absent, if_pos none_]
    rfl
  · rw [if_pos none_] at put
    have present : key ∈ responsejs := AList.lookup_isSome.mp (by simp [put])
    have strings : getStrings responsejs key = some vec := by rw [getStrings, put]
    rw [withSection, if_pos present, if_neg none_, modify_bind, strings, orThrow_bind]

end Reading

/-! The whole reply. -/

/-- The globals after the reply's own sections. -/
def stored (client : Client) (user : User) (friends : List User) (groups : List Group) : Client :=
  { client with
    currentUser := { client.currentUser with id := user.id, name := user.name }
    currentUserFriendList := if friends = [] then client.currentUserFriendList
      else friends.map listed
    currentUserGroupList := if groups = [] then client.currentUserGroupList
      else groups.map listedGroup }

section Reply
variable (json : Json)

/-- All objects that the server dumps for the reply, and the reply. -/
def parts (user : User) (vec : List Text) (friends : List User)
    (groups : List Group) : List Object :=
  loginReply json user vec friends groups :: friends.map userObject ++
    groups.map (groupObject json) ++
    groups.flatMap fun group => group.users.map memberObject

theorem reply_fields (user : User) (vec : List Text) (friends : List User) (groups : List Group) :
    getInt (loginReply json user vec friends groups) "msgid" = some LOGIN_MSG_ACK ∧
      getInt (loginReply json user vec friends groups) "errno" = some 0 ∧
      getInt (loginReply json user vec friends groups) "id" = some user.id ∧
      getString (loginReply json user vec friends groups) "name" = some user.name := by
  simp [loginReply, getInt, getString, putSection_lookup,
    AList.lookup_insert_ne, -AList.insert_empty]

theorem reply_sections (user : User) (vec : List Text) (friends : List User) (groups : List Group) :
    (loginReply json user vec friends groups).lookup "offlinemsg" =
      (if vec ≠ [] then some (.strings vec) else none) ∧
      (loginReply json user vec friends groups).lookup "friends" =
        (if (friends.map fun user => json.dump (userObject user)) ≠ [] then
          some (.strings (friends.map fun user => json.dump (userObject user))) else none) ∧
      (loginReply json user vec friends groups).lookup "groups" =
        (if (groups.map fun group => json.dump (groupObject json group)) ≠ [] then
          some (.strings (groups.map fun group => json.dump
            (groupObject json group))) else none) := by
  simp [loginReply, putSection_lookup, AList.lookup_insert_ne, -AList.insert_empty]

theorem friends_section (user : User) (vec : List Text) (friends : List User) (groups : List Group)
    (client : Client)
    (inverse : ∀ friend ∈ friends,
      json.parse (json.dump (userObject friend)) = some (userObject friend)) :
    withSection (loginReply json user vec friends groups) "friends"
        (fun client => { client with currentUserFriendList := [] })
          (pushFriends json) client = .ok ()
      { client with currentUserFriendList := if friends = [] then
                      client.currentUserFriendList else friends.map listed } := by
  rw [withSection_put _ _ _ _ _ client (reply_sections json user vec friends groups).2.1]
  by_cases none_ : friends = []
  · simp [none_]
  · rw [if_neg (by simpa using none_), pushFriends_all json friends _ inverse, if_neg none_,
      List.nil_append]

theorem groups_section (user : User) (vec : List Text) (friends : List User) (groups : List Group)
    (client : Client)
    (inverse : ∀ group ∈ groups, json.parse
      (json.dump (groupObject json group)) = some (groupObject json group) ∧
      ∀ user ∈ group.users, json.parse (json.dump (memberObject user)) = some (memberObject user)) :
    withSection (loginReply json user vec friends groups) "groups"
        (fun client => { client with currentUserGroupList := [] }) (pushGroups json) client = .ok ()
      { client with currentUserGroupList := if groups = [] then client.currentUserGroupList
                                            else groups.map listedGroup } := by
  rw [withSection_put _ _ _ _ _ client (reply_sections json user vec friends groups).2.2]
  by_cases none_ : groups = []
  · simp [none_]
  · rw [if_neg (by simpa using none_), pushGroups_all json groups _ inverse, if_neg none_,
      List.nil_append]

/-- The offline messages come last, and all that can be missing after them is the flag. -/
theorem offline_section (user : User) (vec : List Text) (friends : List User) (groups : List Group)
    (client : Client) :
    ∃ success, globals ((withSection (loginReply json user vec friends groups) "offlinemsg"
      (fun client => client)
        (showOffline json) >>= fun _ => modify fun client =>
          { client with isLoginSuccess := true }) client) =
      { client with isLoginSuccess := success } := by
  have section_ := withSection_put _ _ _ (fun client => client) (showOffline json) client
    (reply_sections json user vec friends groups).1
  have kept : globals (withSection (loginReply json user vec friends groups) "offlinemsg"
      (fun client => client)
      (showOffline json) client) = client := by
    rw [section_]
    split
    · rfl
    · exact showOffline_globals json vec client
  generalize withSection (loginReply json user vec friends groups) "offlinemsg"
    (fun client => client)
    (showOffline json) = shown at kept
  cases ended : shown client with
  | ok value after =>
      rw [ended] at kept
      have same : after = client := kept
      subst same
      rw [bind_ok shown _ after after value ended]
      exact ⟨true, rfl⟩
  | error thrown after =>
      rw [ended] at kept
      have same : after = client := kept
      subst same
      refine ⟨after.isLoginSuccess, ?_⟩
      simp [bind, EStateM.bind, ended, globals]

theorem receive_reply (user : User) (vec : List Text) (friends : List User) (groups : List Group)
    (client : Client)
    (inverse : ∀ object ∈ parts json user vec friends groups,
      json.parse (json.dump object) = some object) :
    ∃ success, globals (receive json (json.dump (loginReply json user vec friends groups)) client) =
      { stored client user friends groups with isLoginSuccess := success } := by
  obtain ⟨msgid, errno, id, name⟩ := reply_fields json user vec friends groups
  have whole := inverse (loginReply json user vec friends groups) (by simp [parts])
  have each : ∀ friend ∈ friends, json.parse (json.dump (userObject friend)) =
      some (userObject friend) := by
    intro friend member
    exact inverse _ (by simp only [parts, List.mem_append, List.mem_cons, List.mem_map]; grind)
  have every : ∀ group ∈ groups, json.parse (json.dump (groupObject json group)) =
      some (groupObject json group) ∧
      ∀ user ∈ group.users, json.parse (json.dump (memberObject user)) =
        some (memberObject user) := by
    intro group member
    constructor
    · exact inverse _ (by simp only [parts, List.mem_append, List.mem_cons, List.mem_map]; grind)
    · intro user inside
      exact inverse _ (by simp only [parts, List.mem_append, List.mem_cons, List.mem_map,
        List.mem_flatMap]; grind)
  have taken : ClientFraming.branch LOGIN_MSG_ACK = .doLoginResponse := rfl
  simp only [receive, whole, msgid, orThrow_bind, taken, doLoginResponse, errno, id, name, ne_eq,
    not_true_eq_false,
    if_false, modify_bind]
  rw [bind_ok _ _ _ _ _ (friends_section json user vec friends groups _ each),
    bind_ok _ _ _ _ _ (groups_section json user vec friends groups _ every)]
  exact offline_section json user vec friends groups _

end Reply

/-! User 1 logs in, with user 2 for a friend and without one. -/

section Sample

def ann : User := { id := 1, name := ascii "a" }
def bob : User := { id := 2, name := ascii "b" }

def friendText : Text := ascii "\x7b\"id\":2,\"name\":\"b\",\"state\":\"offline\"\x7d"

def replyText : Text :=
  ascii "\x7b\"errno\":0,\"friends\":[\"\x7b\\\"id\\\":2,\\\"name\\\":\\\"b\\\",\\\"state\\\":\\\"offline\\\"\x7d\"],\"id\":1,\"msgid\":2,\"name\":\"a\"\x7d"

def bareText : Text := ascii "\x7b\"errno\":0,\"id\":1,\"msgid\":2,\"name\":\"a\"\x7d"

def sampleReply : Object :=
  ((((AList.insert "msgid" (.number 2) ∅).insert "errno" (.number 0)).insert "id"
    (.number 1)).insert
    "name" (.string (ascii "a"))).insert "friends" (.strings [friendText])

def bareReply : Object :=
  (((AList.insert "msgid" (.number 2) ∅).insert "errno" (.number 0)).insert "id" (.number 1)).insert
    "name" (.string (ascii "a"))

def sampleJson : Json where
  dump js :=
    if "state" ∈ js then friendText
    else if "friends" ∈ js then replyText
    else bareText
  parse text :=
    if text = friendText then some (userObject bob)
    else if text = replyText then some sampleReply
    else if text = bareText then some bareReply
    else none

theorem sample_inverse : ∀ object ∈ parts sampleJson ann [] [bob] [],
    sampleJson.parse (sampleJson.dump object) = some object := by
  have all : parts sampleJson ann [] [bob] [] = [sampleReply, userObject bob] := rfl
  rw [all]
  rintro object (_ | ⟨_, _ | ⟨_, ⟨⟩⟩⟩)
  · rfl
  · rfl

end Sample

/-- The client's globals show the user, the friends and the groups with their members,
and no others. -/
def Shows (client : Client) (user : User) (friends : List User) (groups : List Group) : Prop :=
  client.currentUser.id = user.id ∧ client.currentUser.name = user.name ∧
    client.currentUserFriendList = friends.map listed ∧
      client.currentUserGroupList = groups.map listedGroup

theorem reply_shown (json : Json) (user : User) (vec : List Text) (friends : List User)
    (groups : List Group)
    (client : Client)
    (inverse : ∀ object ∈ parts json user vec friends groups,
      json.parse (json.dump object) = some object) :
    Shows (globals (receive json (json.dump
      (loginReply json user vec friends groups)) client)) user friends groups ↔
      (friends = [] → client.currentUserFriendList = []) ∧
        (groups = [] → client.currentUserGroupList = []) := by
  obtain ⟨success, received⟩ := receive_reply json user vec friends groups client inverse
  simp only [received, Shows, stored, true_and]
  apply and_congr
  · by_cases none_ : friends = [] <;> simp [none_]
  · by_cases none_ : groups = [] <;> simp [none_]

theorem reply_shown_friend : Shows
    (globals (receive sampleJson (sampleJson.dump (loginReply sampleJson ann [] [bob] []))
    { currentUserFriendList := [ann] })) ann [bob] [] :=
  (reply_shown sampleJson ann [] [bob] [] { currentUserFriendList := [ann] } sample_inverse).mpr
    ⟨by decide, fun _ => rfl⟩

/-- A login without friends after one with user 2 for a friend. -/
theorem reply_stale : (globals
    (receive sampleJson (sampleJson.dump (loginReply sampleJson ann [] [] []))
      { currentUserFriendList := [bob] })).currentUserFriendList = [bob] ∧
    ¬ Shows (globals (receive sampleJson (sampleJson.dump (loginReply sampleJson ann [] [] []))
      { currentUserFriendList := [bob] })) ann [] [] := by
  have kept : (globals (receive sampleJson (sampleJson.dump (loginReply sampleJson ann [] [] []))
      { currentUserFriendList := [bob] })).currentUserFriendList = [bob] := by
    decide +kernel
  refine ⟨kept, fun shown => ?_⟩
  have nobody := shown.2.2.1
  rw [kept] at nobody
  cases nobody

/-! What the handler of the server puts into the reply. -/

def stateText : UserState → Text
  | .online => online
  | .offline => offline

def roleText : GroupRole → Text
  | .creator => creator
  | .normal => normal

def ofUser (user : ChatService.User) : User :=
  { id := user.id, name := user.name, password := user.password, state := stateText user.state }

def ofMember (user : ChatService.GroupUser) : GroupUser :=
  { toUser := ofUser user.toUser, role := roleText user.role }

def ofGroup (group : ChatService.Group) : Group :=
  { id := group.id, name := group.name, desc := group.desc, users := group.users.map ofMember }

/-- No password is in what the queries for the reply give. -/
structure Plain (friends : List ChatService.User) (groups : List ChatService.Group) : Prop where
  friends : ∀ user ∈ friends, user.password = []
  members : ∀ group ∈ groups, ∀ user ∈ group.users, user.password = []

theorem plain_listed (friends : List ChatService.User) (groups : List ChatService.Group)
    (plain : Plain friends groups) :
    (friends.map ofUser).map listed = friends.map ofUser ∧
    (groups.map ofGroup).map listedGroup = groups.map ofGroup := by
  have one : ∀ user : ChatService.User, user.password = [] → listed (ofUser user) = ofUser user :=
    by
    rintro ⟨id, name, password, state⟩ rfl
    rfl
  have member : ∀ user : ChatService.GroupUser, user.password = [] →
      listedMember (ofMember user) = ofMember user := by
    rintro ⟨⟨id, name, password, state⟩, role⟩ rfl
    rfl
  rw [List.map_map, List.map_map]
  constructor
  · exact List.map_congr_left fun user inside => one user (plain.friends user inside)
  · refine List.map_congr_left fun group inside => ?_
    have users : (group.users.map ofMember).map listedMember = group.users.map ofMember := by
      rw [List.map_map]
      exact List.map_congr_left fun user found =>
        member user (plain.members group inside user found)
    simp only [Function.comp, listedGroup, ofGroup, users]

section Handler
open Interleaving ChatService
variable {S C : Type} [DecidableEq S] [DecidableEq C]

theorem withMembers_plain (groups all : List ChatService.Group) (shared after : Shared S C)
    (ran : Runs perform (withMembers groups) shared all after) :
    ∀ group ∈ all, ∀ user ∈ group.users, user.password = [] := by
  induction groups generalizing all shared with
  | nil =>
      obtain ⟨rfl, _⟩ := (runs_done _ _ _ _ _).mp ran
      simp
  | cons group rest ih =>
      simp only [withMembers, call_bind, runs_act, runs_bind] at ran
      obtain ⟨_, users, middle, performed, found, last, tail, finish⟩ := ran
      simp only [perform, Option.some.injEq, Prod.mk.injEq] at performed
      obtain ⟨rfl, rfl⟩ := performed
      rw [((runs_done _ _ _ _ _).mp finish).1]
      rintro other (_ | ⟨_, later⟩) user inside
      · simp only [membersOf, List.mem_filterMap] at inside
        obtain ⟨row, _, given⟩ := inside
        split at given
        · obtain ⟨_, _, rfl⟩ := Option.map_eq_some_iff.mp given
          rfl
        · cases given
      · obtain ⟨_, rfl⟩ := (runs_done _ _ _ _ _).mp finish
        exact ih found shared tail other later user inside

/-- An accepted login answers with lists that the reply carries in full. -/
theorem login_replies (server : S) (conn : C) (id : Int) (pwd : Text) (shared after : Shared S C)
    (ran : Runs perform (login server conn id pwd) shared () after)
    (accepted : accepts id pwd (findUser shared id)) :
    ∃ vec friends groups, Plain friends groups ∧
      after.replies = shared.replies ++
        [(conn, .loggedIn id (findUser shared id).name vec friends groups)] := by
  obtain ⟨same, secret, offline⟩ := accepted
  simp only [login, queryUser, ChatService.updateState, call_bind, runs_act] at ran
  obtain ⟨_, user, middle, performed, tail⟩ := ran
  simp only [perform, Option.some.injEq, Prod.mk.injEq] at performed
  obtain ⟨rfl, rfl⟩ := performed
  rw [if_pos ⟨same, secret⟩, if_neg offline] at tail
  simp only [runs_act, runs_bind, queryGroups, reply, call] at tail
  obtain ⟨_, _, entered, inserted, _, _, joined, subscribes, _, _, stored, updates, vec, read,
      reads, _, friends,
    befriended, queries, groups, grouped, ⟨rows, selected, ⟨_, _, asked, selects, found⟩, members⟩,
      _, _, replied,
    answers, finish⟩ := tail
  have plain := withMembers_plain rows groups _ _ members
  have unchanged := Sessions.members_runs rows groups _ _ members
  have kept := (Sessions.offline_runs id vec _ _ reads).2
  simp only [perform, Option.some.injEq, Prod.mk.injEq,
    true_and] at inserted updates queries selects answers
  obtain ⟨rfl, rfl⟩ := queries
  obtain ⟨_, rfl⟩ := selects
  obtain ⟨_, rfl⟩ := (runs_done _ _ _ _ _).mp found
  obtain ⟨_, rfl⟩ := (runs_done _ _ _ _ _).mp finish
  subst unchanged inserted updates answers
  have joins : joined.replies = shared.replies := by
    simp only [perform] at subscribes
    split at subscribes <;> cases subscribes <;> rfl
  refine ⟨vec, friendsOf grouped id, groups, ⟨fun user inside => ?_, plain⟩, ?_⟩
  · simp only [friendsOf, List.mem_filterMap] at inside
    obtain ⟨row, _, given⟩ := inside
    split at given
    · obtain ⟨_, _, rfl⟩ := Option.map_eq_some_iff.mp given
      rfl
    · cases given
  · simp only [kept, joins, same]

/-- From the handler to the client: its reply shows what its queries gave, to a client
that has nothing left where the reply has nothing. -/
theorem login_shown (server : S) (conn : C) (id : Int) (pwd : Text) (shared after : Shared S C)
    (ran : Runs perform (login server conn id pwd) shared () after)
    (accepted : accepts id pwd (findUser shared id)) :
    ∃ vec friends groups,
      after.replies = shared.replies ++
        [(conn, .loggedIn id (findUser shared id).name vec friends groups)] ∧
      ∀ (json : Json) (client : Client),
        let user : User := { id := id, name := (findUser shared id).name }
        (∀ object ∈ parts json user vec (friends.map ofUser) (groups.map ofGroup),
          json.parse (json.dump object) = some object) →
        (friends = [] → client.currentUserFriendList = []) →
          (groups = [] → client.currentUserGroupList = []) →
        ∃ success, globals (receive json (json.dump
            (loginReply json user vec (friends.map ofUser) (groups.map ofGroup))) client) =
          { currentUser := { client.currentUser with id := id, name := user.name }
            currentUserFriendList := friends.map ofUser
            currentUserGroupList := groups.map ofGroup
            isLoginSuccess := success } := by
  obtain ⟨vec, friends, groups, plain, replied⟩ :=
    login_replies server conn id pwd shared after ran accepted
  refine ⟨vec, friends, groups, replied, ?_⟩
  intro json client user inverse lonely groupless
  obtain ⟨success, received⟩ := receive_reply json user vec (friends.map ofUser)
    (groups.map ofGroup) client inverse
  obtain ⟨friendsSame, groupsSame⟩ := plain_listed friends groups plain
  refine ⟨success, received.trans ?_⟩
  have friends_ : (if friends.map ofUser = [] then
    client.currentUserFriendList else (friends.map ofUser).map listed) =
      friends.map ofUser := by
    rw [friendsSame]
    split
    · rename_i none_
      rw [none_, lonely (List.map_eq_nil_iff.mp none_)]
    · rfl
  have groups_ : (if groups.map ofGroup = [] then client.currentUserGroupList
      else (groups.map ofGroup).map listedGroup) = groups.map ofGroup := by
    rw [groupsSame]
    split
    · rename_i none_
      rw [none_, groupless (List.map_eq_nil_iff.mp none_)]
    · rfl
  simp only [stored, friends_, groups_, user]

end Handler
end MuduoChat.LoginReply
