import MuduoChat.ClientCommands

/-!
The two threads of CHAT/src/client/main.cpp: main, which asks for a login or a registration and
waits in sem_wait, and readTaskHandler, which handles what the server sends and posts the
semaphore. They share the globals of the client. The server answers a request at most once, and
may send chat messages at any time; each recv brings one message. What is printed on cout is left
out.
-/

namespace MuduoChat.ClientThreads
open ClientCommands (Line Menu Time mainMenuRound)
open LoginReply (Client Object Value doLoginResponse getInt getString)
open ServerFraming (LOGIN_MSG REG_MSG)
open Transition (run)

abbrev Bytes := List UInt8

inductive Request where
  | login (id : Int) (pwd : Bytes)
  | register (name pwd : Bytes)
  deriving DecidableEq

def Request.isLogin : Request → Bool
  | .login _ _ => true
  | .register _ _ => false

def Request.object : Request → Object
  | .login id pwd => ((AList.insert "msgid" (.number LOGIN_MSG) ∅).insert "id"
      (.number id)).insert "password"
      (.string pwd)
  | .register name pwd => ((AList.insert "msgid" (.number REG_MSG) ∅).insert "name"
      (.string name)).insert "password" (.string pwd)

/-- The main thread. `waiting` is after the call of send, up to the return of sem_wait. -/
inductive Main where
  | choosing
  | storing (request : Request)
  | sending (request : Request)
  | waiting (login : Bool)
  | testing
  | menu
  deriving DecidableEq

/-- The reading thread: in recv, in doLoginResponse, in doRegResponse, or before sem_post. -/
inductive Reader where
  | receiving
  | answering (js : Object)
  | registering (js : Object)
  | posting

/-- `requests` are with the server and not yet answered, `replies` not yet received. The last two
keep the logins that were sent, and the answers that doLoginResponse has come to the end of with the
globals it left. -/
structure State where
  globals : Client
  menu : Menu
  main : Main
  reader : Reader
  rwsem : Nat
  requests : List Request
  replies : List Object
  exited : Bool
  logins : List Request
  handled : List (Object × Client)

inductive Action where
  | choose (request : Request)
  | quit
  | store
  | send (ret : Int)
  | wake
  | test
  | command (line : Line) (now : Time) (ret : Int)
  | answer (js : Object)
  | forward (js : Object)
  | receive
  | finish
  | post
  | hangUp

section Steps
variable (dump : ClientCommands.Json) (json : LoginReply.Json)

/-- The branch of readTaskHandler for an object. -/
def branchOf (js : Object) : Option ClientFraming.Branch :=
    (getInt js "msgid").map ClientFraming.branch

def ack (login : Bool) : ClientFraming.Branch := if login then .doLoginResponse else .doRegResponse

/-- An exception in either thread ends the process. -/
def exit (s : State) : State := { s with exited := true }

/-- `js.dump()`, and the way on to send: only a login stores the flag first. -/
def choose (request : Request) (s : State) : State :=
  match dump.dump request.object with
  | none => exit s
  | some _ => { s with main := if request.isLogin then .storing request else .sending request }

/-- A send that fails is reported, and waited for all the same. -/
def send (request : Request) (ret : Int) (s : State) : State :=
  if ret = -1 then { s with main := .waiting request.isLogin }
  else
    { s with
      main := .waiting request.isLogin
      requests := s.requests ++ [request]
      logins := if request.isLogin then s.logins ++ [request] else s.logins }

def test (s : State) : State :=
  if s.globals.isLoginSuccess then
    { s with main := .menu, menu := { s.menu with isMainMenuRunning := true } }
  else { s with main := .choosing }

def command (line : Line) (now : Time) (ret : Int) (s : State) : State :=
  match mainMenuRound dump s.globals.currentUser now ret line s.menu with
  | .error _ => exit s
  | .ok menu => { s with menu := menu, main := if menu.isMainMenuRunning then .menu else .choosing }

/-- What is read of a chat message before it is printed. -/
def readable (js : Object) : Bool :=
  (getString js "time").isSome && (getString js "name").isSome && (getString js "msg").isSome

def receive (js : Object) (s : State) : State :=
  match branchOf js with
  | none => exit s
  | some .oneChat => if readable js then s else exit s
  | some .groupChat => if readable js then s else exit s
  | some .doLoginResponse => { s with reader := .answering js }
  | some .doRegResponse => { s with reader := .registering js }
  | some .dropped => s

def finishLogin (js : Object) (s : State) : State :=
  match doLoginResponse json js s.globals with
  | .error _ _ => exit s
  | .ok _ after =>
      { s with globals := after, reader := .posting, handled := s.handled ++ [(js, after)] }

/-- doRegResponse only prints. -/
def finishRegistration (js : Object) (s : State) : State :=
  match getInt js "errno" with
  | none => exit s
  | some _ => { s with reader := .posting }

def step (s : State) (action : Action) : Option State :=
  if s.exited then none
  else match action, s.main, s.reader with
    | .choose request, .choosing, _ => some (choose dump request s)
    | .quit, .choosing, _ => some (exit s)
    | .store, .storing request, _ =>
        some { s with globals := { s.globals with isLoginSuccess := false },
                      main := .sending request }
    | .send ret, .sending request, _ => some (send request ret s)
    | .wake, .waiting login, _ =>
        if 0 < s.rwsem then
          some { s with rwsem := s.rwsem - 1, main := if login then .testing else .choosing }
            else none
    | .test, .testing, _ => some (test s)
    | .command line now ret, .menu, _ => some (command dump line now ret s)
    | .answer js, _, _ =>
        match s.requests with
        | request :: rest =>
            if branchOf js = some (ack request.isLogin) then
              some { s with requests := rest, replies := s.replies ++ [js] }
            else none
        | [] => none
    | .forward js, _, _ =>
        if branchOf js ≠ some (ack true) ∧ branchOf js ≠ some (ack false) then
          some { s with replies := s.replies ++ [js] }
        else none
    | .receive, _, .receiving =>
        match s.replies with
        | js :: rest => some (receive js { s with replies := rest })
        | [] => none
    | .finish, _, .answering js => some (finishLogin json js s)
    | .finish, _, .registering js => some (finishRegistration js s)
    | .post, _, .posting => some { s with rwsem := s.rwsem + 1, reader := .receiving }
    | .hangUp, _, .receiving => some (exit s)
    | _, _, _ => none

end Steps

/-- After connect, sem_init and the start of the reading thread. -/
def started : State :=
  { globals := {}, menu := ⟨[], [], [], false⟩, main := .choosing, reader := .receiving,
    rwsem := 0, requests := [],
    replies := [], exited := false, logins := [], handled := [] }

/-! What doLoginResponse leaves in the globals. -/

section Answer
variable (json : LoginReply.Json)
open LoginReply (Handler orThrow)

/-- What the globals say after a login was answered. -/
structure Answered (js : Object) (client : Client) : Prop where
  errno : ∃ errno, getInt js "errno" = some errno ∧ (client.isLoginSuccess = true ↔ errno = 0)
  id : client.isLoginSuccess = true → getInt js "id" = some client.currentUser.id
  name : client.isLoginSuccess = true → getString js "name" = some client.currentUser.name

/-- The user stays as it is. -/
def KeepsUser {α : Type} (handler : Handler α) : Prop :=
  ∀ client value after, handler client = .ok value after → after.currentUser = client.currentUser

theorem keepsUser_pure {α : Type} (value : α) : KeepsUser (pure value : Handler α) := by
  intro client _ after done
  cases done
  rfl

theorem bind_done {α β : Type} (first : Handler α) (next : α → Handler β) (client after : Client)
    (value : β)
    (done : (first >>= next) client = .ok value after) :
    ∃ middle between, first client = .ok middle between ∧ next middle between = .ok value after :=
      by
  simp only [bind, EStateM.bind] at done
  cases first_ : first client with
  | ok middle between =>
      rw [first_] at done
      exact ⟨middle, between, rfl, done⟩
  | error failure between =>
      rw [first_] at done
      cases done

theorem keepsUser_bind {α β : Type} (first : Handler α) (next : α → Handler β)
    (one : KeepsUser first)
    (two : ∀ value, KeepsUser (next value)) : KeepsUser (first >>= next) := by
  intro client value after done
  obtain ⟨middle, between, before, behind⟩ := bind_done first next client after value done
  exact (two middle between value after behind).trans (one client middle between before)

theorem keepsUser_orThrow {α : Type} (found : Option α) : KeepsUser (orThrow found) := by
  cases found with
  | none => exact fun _ _ _ done => by cases done
  | some value => exact keepsUser_pure value

theorem keepsUser_modify (change : Client → Client)
    (kept : ∀ client, (change client).currentUser = client.currentUser) :
    KeepsUser (modify change : Handler PUnit) := by
  intro client value after done
  cases done
  exact kept client

theorem pushFriends_keeps (strings : List Bytes) :
    KeepsUser (LoginReply.pushFriends json strings) := by
  induction strings with
  | nil => exact keepsUser_pure ()
  | cons str rest ih =>
      exact keepsUser_bind _ _ (keepsUser_orThrow _) fun _ =>
        keepsUser_bind _ _ (keepsUser_modify _ fun _ => rfl) fun _ => ih

theorem pushGroups_keeps (strings : List Bytes) :
    KeepsUser (LoginReply.pushGroups json strings) := by
  induction strings with
  | nil => exact keepsUser_pure ()
  | cons str rest ih =>
      exact keepsUser_bind _ _ (keepsUser_orThrow _) fun _ =>
        keepsUser_bind _ _ (keepsUser_modify _ fun _ => rfl) fun _ => ih

theorem showOffline_keeps (strings : List Bytes) :
    KeepsUser (LoginReply.showOffline json strings) := by
  induction strings with
  | nil => exact keepsUser_pure ()
  | cons str rest ih =>
      refine keepsUser_bind _ _ (keepsUser_orThrow _) fun js =>
        keepsUser_bind _ _ (keepsUser_orThrow _) fun msgtype => ?_
      split
      · exact keepsUser_bind _ _ (keepsUser_orThrow _) fun _ =>
          keepsUser_bind _ _ (keepsUser_orThrow _) fun _ =>
          keepsUser_bind _ _ (keepsUser_orThrow _) fun _ => ih
      · exact ih

theorem withSection_keeps (js : Object) (key : String) (clear : Client → Client)
    (read : List Bytes → Handler Unit)
    (cleared : ∀ client, (clear client).currentUser = client.currentUser)
    (reads : ∀ strings, KeepsUser (read strings)) :
    KeepsUser (LoginReply.withSection js key clear read) := by
  unfold LoginReply.withSection
  split
  · exact keepsUser_bind _ _ (keepsUser_modify clear cleared) fun _ =>
      keepsUser_bind _ _ (keepsUser_orThrow _) reads
  · exact keepsUser_pure ()

theorem orThrow_done {α : Type} (found : Option α) (client after : Client) (value : α)
    (done : orThrow found client = .ok value after) :
    found = some value ∧ after = client := by
  cases found with
  | none => cases done
  | some other =>
      cases done
      exact ⟨rfl, rfl⟩

theorem doLoginResponse_answered (js : Object) (client after : Client)
    (done : doLoginResponse json js client = .ok () after) :
    Answered js after := by
  obtain ⟨errno, _, read, toErrno⟩ := bind_done _ _ client after () done
  obtain ⟨found, rfl⟩ := orThrow_done _ _ _ _ read
  split at toErrno
  · rename_i refused
    cases toErrno
    exact ⟨⟨errno, found, by simp [refused]⟩, by simp, by simp⟩
  · rename_i accepted
    obtain ⟨id, _, readId, toId⟩ := bind_done _ _ _ _ _ toErrno
    obtain ⟨foundId, rfl⟩ := orThrow_done _ _ _ _ readId
    obtain ⟨_, _, storedId, toName⟩ := bind_done _ _ _ _ _ toId
    obtain ⟨name, _, readName, toStore⟩ := bind_done _ _ _ _ _ toName
    obtain ⟨foundName, rfl⟩ := orThrow_done _ _ _ _ readName
    obtain ⟨_, _, storedName, toFriends⟩ := bind_done _ _ _ _ _ toStore
    obtain ⟨_, _, friends, toGroups⟩ := bind_done _ _ _ _ _ toFriends
    obtain ⟨_, _, groups, toOffline⟩ := bind_done _ _ _ _ _ toGroups
    obtain ⟨_, last, offline, toFlag⟩ := bind_done _ _ _ _ _ toOffline
    have one := withSection_keeps js "friends"
      (fun client => { client with currentUserFriendList := [] }) _
      (fun _ => rfl)
      (pushFriends_keeps json) _ _ _ friends
    have two := withSection_keeps js "groups"
      (fun client => { client with currentUserGroupList := [] }) _
      (fun _ => rfl)
      (pushGroups_keeps json) _ _ _ groups
    have three := withSection_keeps js "offlinemsg" (fun client => client) _ (fun _ => rfl)
      (showOffline_keeps json) _ _ _ offline
    have kept := three.trans (two.trans one)
    cases storedId
    cases storedName
    cases toFlag
    refine ⟨⟨errno, found, by simpa using accepted⟩, fun _ => ?_, fun _ => ?_⟩
    · rw [foundId]
      exact congrArg (fun user => some user.id) kept.symm
    · rw [foundName]
      exact congrArg (fun user => some user.name) kept.symm

end Answer

/-! One request at a time. -/

def Main.room : Main → Nat
  | .waiting _ => 1
  | _ => 0

def Reader.busy : Reader → Nat
  | .receiving => 0
  | _ => 1

def Reader.answersLogin : Reader → Nat
  | .answering _ => 1
  | _ => 0

def isAck (js : Object) : Bool := branchOf js == some (ack true) || branchOf js == some (ack false)

def isLoginAck (js : Object) : Bool := branchOf js == some (ack true)

/-- What is to wake the main thread: a request with the server, its answer on the way, the reading
thread at work, or the semaphore. -/
def tokens (s : State) : Nat := s.requests.length + s.replies.countP isAck + s.reader.busy + s.rwsem

/-- The logins that are not yet handled. -/
def pending (s : State) : Nat :=
    s.requests.countP Request.isLogin + s.replies.countP isLoginAck + s.reader.answersLogin

/-- The globals are what the last answer to a login has left. -/
def Settled (s : State) : Prop := ∃ js, s.handled.getLast? = some (js, s.globals) ∧
    Answered js s.globals

structure Tidy (s : State) : Prop where
  room : tokens s ≤ s.main.room
  asked : ∀ request ∈ s.requests, s.main = .waiting request.isLogin
  answered : ∀ js ∈ s.replies, ∀ login, branchOf js = some (ack login) → s.main = .waiting login
  answering : ∀ js, s.reader = .answering js → s.main = .waiting true
  registering : ∀ js, s.reader = .registering js → s.main = .waiting false
  counted : s.logins.length = s.handled.length + pending s
  woken : s.main = .waiting true → s.reader = .posting ∨ 0 < s.rwsem → Settled s
  testing : s.main = .testing → Settled s
  inMenu : s.main = .menu → Settled s ∧ s.globals.isLoginSuccess = true

/-- Nothing is underway. -/
structure Idle (s : State) : Prop where
  requests : s.requests = []
  replies : ∀ js ∈ s.replies, isAck js = false
  reader : s.reader = .receiving
  rwsem : s.rwsem = 0

theorem busy_zero (reader : Reader) : reader.busy = 0 ↔ reader = .receiving := by
  cases reader <;> simp [Reader.busy]

theorem idle_iff (s : State) : tokens s = 0 ↔ Idle s := by
  constructor
  · intro zero
    simp only [tokens, Nat.add_eq_zero_iff, List.length_eq_zero_iff, List.countP_eq_zero,
      Bool.not_eq_true,
      busy_zero] at zero
    obtain ⟨⟨⟨requests, replies⟩, reader⟩, rwsem⟩ := zero
    exact ⟨requests, replies, reader, rwsem⟩
  · rintro ⟨requests, replies, reader, rwsem⟩
    simp [tokens, requests, reader, rwsem, Reader.busy,
      List.countP_eq_zero.mpr (by simpa using replies)]

theorem tidy_idle (s : State) (tidy : Tidy s) (other : s.main.room = 0) : Idle s :=
  (idle_iff s).mp (Nat.le_zero.mp (other ▸ tidy.room))

/-- While nothing is underway, the main thread goes on as it likes. -/
theorem moved_tidy (s : State) (main : Main) (globals : Client) (menu : Menu) (tidy : Tidy s)
    (still : s.main.room = 0)
    (testing : main = .testing → Settled { s with globals := globals })
    (inMenu : main = .menu → Settled { s with globals := globals } ∧
      globals.isLoginSuccess = true) :
    Tidy { s with main := main, globals := globals, menu := menu } := by
  have idle := tidy_idle s tidy still
  have zero : tokens s = 0 := (idle_iff s).mpr idle
  constructor
  case room => exact (Nat.le_of_eq zero).trans (Nat.zero_le _)
  case asked =>
    intro request member
    simp only [idle.requests] at member
    cases member
  case answered =>
    intro js member login known
    have plain := idle.replies js member
    cases login <;> simp [isAck, known] at plain
  case answering => exact fun js same => by cases idle.reader.symm.trans same
  case registering => exact fun js same => by cases idle.reader.symm.trans same
  case counted => exact tidy.counted
  case woken =>
    rintro _ (posting | up)
    · cases idle.reader.symm.trans posting
    · exact absurd up (by simp [idle.rwsem])
  case testing => exact testing
  case inMenu => exact inMenu

theorem exit_tidy (s : State) (tidy : Tidy s) : Tidy (exit s) :=
  ⟨tidy.room, tidy.asked, tidy.answered, tidy.answering, tidy.registering, tidy.counted, tidy.woken,
    tidy.testing, tidy.inMenu⟩

/-! Each step keeps it so. -/

section Steps
variable (dump : ClientCommands.Json) (json : LoginReply.Json)

theorem choose_tidy (s : State) (request : Request) (tidy : Tidy s)
    (choosing : s.main = .choosing) :
    Tidy (choose dump request s) := by
  have still : s.main.room = 0 := congrArg Main.room choosing
  unfold choose
  split
  · exact exit_tidy s tidy
  · cases request.isLogin with
    | true =>
        exact moved_tidy s (.storing request) s.globals s.menu tidy still
          (fun same => by cases same)
          fun same => by cases same
    | false =>
        exact moved_tidy s (.sending request) s.globals s.menu tidy still
          (fun same => by cases same)
          fun same => by cases same

theorem send_tidy (s : State) (request : Request) (ret : Int) (tidy : Tidy s)
    (sending : s.main = .sending request) :
    Tidy (send request ret s) := by
  have idle := tidy_idle s tidy (congrArg Main.room sending)
  have zero : tokens s = 0 := (idle_iff s).mpr idle
  have plain (js : Object) (member : js ∈ s.replies) (login : Bool)
      (known : branchOf js = some (ack login)) :
      False := by
    have here := idle.replies js member
    cases login <;> simp [isAck, known] at here
  unfold send
  split
  · constructor
    case room => exact (Nat.le_of_eq zero).trans (Nat.zero_le _)
    case asked => exact fun other member => by simp [idle.requests] at member
    case answered => exact fun js member login known => (plain js member login known).elim
    case answering => exact fun js same => by cases idle.reader.symm.trans same
    case registering => exact fun js same => by cases idle.reader.symm.trans same
    case counted => exact tidy.counted
    case woken =>
      rintro _ (posting | up)
      · cases idle.reader.symm.trans posting
      · exact absurd up (by simp [idle.rwsem])
    case testing => exact fun same => by cases same
    case inMenu => exact fun same => by cases same
  · constructor
    case room =>
      simp only [tokens, Main.room, List.length_append, List.length_singleton] at zero ⊢
      omega
    case asked =>
      intro other member
      simp only [idle.requests, List.nil_append, List.mem_singleton] at member
      rw [member]
    case answered => exact fun js member login known => (plain js member login known).elim
    case answering => exact fun js same => by cases idle.reader.symm.trans same
    case registering => exact fun js same => by cases idle.reader.symm.trans same
    case counted =>
      have counted := tidy.counted
      simp only [pending, List.countP_append, List.countP_singleton] at counted ⊢
      cases request.isLogin with
      | true =>
          simp only [if_true, List.length_append, List.length_singleton]
          omega
      | false =>
          simp only [Bool.false_eq_true, if_false]
          omega
    case woken =>
      rintro _ (posting | up)
      · cases idle.reader.symm.trans posting
      · exact absurd up (by simp [idle.rwsem])
    case testing => exact fun same => by cases same
    case inMenu => exact fun same => by cases same

theorem wake_tidy (s : State) (login : Bool) (tidy : Tidy s) (waiting : s.main = .waiting login)
    (up : 0 < s.rwsem) :
    Tidy { s with rwsem := s.rwsem - 1, main := if login then .testing else .choosing } := by
  have room := tidy.room
  rw [waiting, Main.room] at room
  -- the post was the one token, so no request, no answer and no reading is left
  have zero : tokens
      { s with rwsem := s.rwsem - 1, main := if login then .testing else .choosing } = 0 := by
    simp only [tokens] at room ⊢
    omega
  have idle := (idle_iff _).mp zero
  constructor
  case room => exact (Nat.le_of_eq zero).trans (Nat.zero_le _)
  case asked =>
    have empty : s.requests = [] := idle.requests
    exact fun other member => by simp [empty] at member
  case answered =>
    intro js member other known
    have plain := idle.replies js member
    cases other <;> simp [isAck, known] at plain
  case answering => exact fun js same => by cases idle.reader.symm.trans same
  case registering => exact fun js same => by cases idle.reader.symm.trans same
  case counted => exact tidy.counted
  case woken =>
    cases login with
    | true => exact fun same => by cases same
    | false => exact fun same => by cases same
  case testing =>
    cases login with
    | true => exact fun _ => tidy.woken waiting (.inr up)
    | false => exact fun same => by cases same
  case inMenu =>
    cases login with
    | true => exact fun same => by cases same
    | false => exact fun same => by cases same

theorem test_tidy (s : State) (tidy : Tidy s) (testing : s.main = .testing) : Tidy (test s) := by
  have still : s.main.room = 0 := congrArg Main.room testing
  unfold test
  split
  · rename_i success
    exact moved_tidy s .menu s.globals _ tidy still (fun same => by cases same) fun _ =>
      ⟨tidy.testing testing, success⟩
  · exact moved_tidy s .choosing s.globals s.menu tidy still (fun same => by cases same)
      fun same => by cases same

theorem command_tidy (s : State) (line : Line) (now : Time) (ret : Int) (tidy : Tidy s)
    (menu : s.main = .menu) :
    Tidy (command dump line now ret s) := by
  have still : s.main.room = 0 := congrArg Main.room menu
  unfold command
  split
  · exact exit_tidy s tidy
  · rename_i after _
    cases after.isMainMenuRunning with
    | true =>
        exact moved_tidy s .menu s.globals after tidy still (fun same => by cases same) fun _ =>
          tidy.inMenu menu
    | false =>
        exact moved_tidy s .choosing s.globals after tidy still (fun same => by cases same)
          fun same => by cases same

theorem answer_tidy (s : State) (request : Request) (rest : List Request) (js : Object)
    (tidy : Tidy s)
    (first : s.requests = request :: rest) (kind : branchOf js = some (ack request.isLogin)) :
    Tidy { s with requests := rest, replies := s.replies ++ [js] } := by
  have waiting := tidy.asked request (first ▸ List.mem_cons_self)
  have room := tidy.room
  have acked : isAck js = true := by cases login : request.isLogin <;> simp [isAck, kind, login]
  have logged : isLoginAck js = request.isLogin := by
    cases login : request.isLogin <;> simp [isLoginAck, kind, login, ack]
  -- main waits, so this request is the one token there may be
  rw [waiting, Main.room] at room
  simp only [tokens, first, List.length_cons] at room
  constructor
  case room =>
    simp only [tokens, waiting, Main.room, List.countP_append, List.countP_singleton, acked,
      if_true]
    omega
  case asked => exact fun other member => tidy.asked other (first ▸ List.mem_cons_of_mem _ member)
  case answered =>
    intro other member login known
    rcases List.mem_append.mp member with old | new
    · exact tidy.answered other old login known
    · rw [List.mem_singleton.mp new, kind] at known
      have same : request.isLogin = login := by
        cases one : request.isLogin <;> cases login <;> simp [one, ack] at known ⊢
      rw [← same]
      exact waiting
  case answering => exact tidy.answering
  case registering => exact tidy.registering
  case counted =>
    have counted := tidy.counted
    simp only [pending, first, List.countP_cons, List.countP_append, List.countP_nil,
      logged] at counted ⊢
    omega
  case woken => exact tidy.woken
  case testing => exact tidy.testing
  case inMenu => exact tidy.inMenu

theorem forward_tidy (s : State) (js : Object) (tidy : Tidy s)
    (other : ∀ login, branchOf js ≠ some (ack login)) :
    Tidy { s with replies := s.replies ++ [js] } := by
  have plain : isAck js = false := by simp [isAck, other]
  have unlogged : isLoginAck js = false := by simp [isLoginAck, other]
  constructor
  case room => simpa [tokens, plain] using tidy.room
  case asked => exact tidy.asked
  case answered =>
    intro reply member login known
    rcases List.mem_append.mp member with old | new
    · exact tidy.answered reply old login known
    · exact absurd (List.mem_singleton.mp new ▸ known) (other login)
  case answering => exact tidy.answering
  case registering => exact tidy.registering
  case counted => simpa [pending, unlogged] using tidy.counted
  case woken => exact tidy.woken
  case testing => exact tidy.testing
  case inMenu => exact tidy.inMenu

end Steps

/-! The reading thread. -/

section Reading
variable (dump : ClientCommands.Json) (json : LoginReply.Json)

/-- One reply less, and it was no answer. -/
theorem skip_tidy (s : State) (js : Object) (rest : List Object) (tidy : Tidy s)
    (first : s.replies = js :: rest)
    (other : ∀ login, branchOf js ≠ some (ack login)) : Tidy { s with replies := rest } := by
  have plain : isAck js = false := by simp [isAck, other]
  have unlogged : isLoginAck js = false := by simp [isLoginAck, other]
  constructor
  case room => simpa [tokens, first, plain] using tidy.room
  case asked => exact tidy.asked
  case answered =>
    exact fun reply member => tidy.answered reply (first ▸ List.mem_cons_of_mem _ member)
  case answering => exact tidy.answering
  case registering => exact tidy.registering
  case counted => simpa [pending, first, unlogged] using tidy.counted
  case woken => exact tidy.woken
  case testing => exact tidy.testing
  case inMenu => exact tidy.inMenu

/-- The answer to the one request is taken up. -/
theorem take_tidy (s : State) (js : Object) (rest : List Object) (login : Bool) (reader : Reader)
    (tidy : Tidy s)
    (first : s.replies = js :: rest) (receiving : s.reader = .receiving)
    (kind : branchOf js = some (ack login))
    (taken : reader = if login then .answering js else .registering js) :
    Tidy { s with replies := rest, reader := reader } := by
  have waiting := tidy.answered js (first ▸ List.mem_cons_self) login kind
  have acked : isAck js = true := by cases login <;> simp [isAck, kind]
  have room := tidy.room
  -- the token goes from the reply to the reading thread, and none is left for sem_wait
  rw [waiting, Main.room] at room
  simp only [tokens, first, List.countP_cons, acked, if_true, receiving, Reader.busy] at room
  constructor
  case room =>
    have busy : reader.busy = 1 := by cases login <;> simp [taken, Reader.busy]
    simp only [tokens, waiting, Main.room, busy]
    omega
  case asked => exact tidy.asked
  case answered =>
    exact fun reply member => tidy.answered reply (first ▸ List.mem_cons_of_mem _ member)
  case answering =>
    rintro other same
    cases login with
    | true => exact waiting
    | false => cases taken.symm.trans same
  case registering =>
    rintro other same
    cases login with
    | true => cases taken.symm.trans same
    | false => exact waiting
  case counted =>
    have counted := tidy.counted
    have logged : isLoginAck js = login := by cases login <;> simp [isLoginAck, kind, ack]
    have answers : reader.answersLogin = if login then 1
        else 0 := by cases login <;> simp [taken, Reader.answersLogin]
    have still : Reader.receiving.answersLogin = 0 := rfl
    simp only [pending, first, List.countP_cons, logged, receiving, still, answers] at counted ⊢
    omega
  case woken =>
    rintro _ (posting | up)
    · cases login <;> cases taken.symm.trans posting
    · exact absurd up (by simp only; omega)
  case testing => exact fun same => by cases waiting.symm.trans same
  case inMenu => exact fun same => by cases waiting.symm.trans same

theorem receive_tidy (s : State) (js : Object) (rest : List Object) (tidy : Tidy s)
    (first : s.replies = js :: rest)
    (receiving : s.reader = .receiving) : Tidy (receive js { s with replies := rest }) := by
  have skipped (other : ∀ login, branchOf js ≠ some (ack login)) :=
    skip_tidy s js rest tidy first other
  unfold receive
  cases kind : branchOf js with
  | none => exact exit_tidy _ (skipped fun login same => by cases kind.symm.trans same)
  | some branch =>
      cases branch with
      | oneChat | groupChat =>
          have still := skipped fun login same => by cases login <;> cases kind.symm.trans same
          simp only
          split
          · exact still
          · exact exit_tidy _ still
      | doLoginResponse => exact take_tidy s js rest true _ tidy first receiving kind rfl
      | doRegResponse => exact take_tidy s js rest false _ tidy first receiving kind rfl
      | dropped => exact skipped fun login same => by cases login <;> cases kind.symm.trans same

theorem finishLogin_tidy (s : State) (js : Object) (tidy : Tidy s)
    (answering : s.reader = .answering js) :
    Tidy (finishLogin json js s) := by
  have waiting := tidy.answering js answering
  have room := tidy.room
  rw [waiting, Main.room] at room
  simp only [tokens, answering, Reader.busy] at room
  unfold finishLogin
  split
  · exact exit_tidy s tidy
  · rename_i after done
    -- the flag and the globals are written by one thread, before its sem_post
    have answered := doLoginResponse_answered json js s.globals after done
    have settled : Settled
        { s with globals := after, reader := .posting, handled := s.handled ++ [(js, after)] } :=
      ⟨js, by simp, answered⟩
    constructor
    case room =>
      simp only [tokens, waiting, Main.room, Reader.busy]
      omega
    case asked => exact tidy.asked
    case answered => exact tidy.answered
    case answering => exact fun other same => by cases same
    case registering => exact fun other same => by cases same
    case counted =>
      have counted := tidy.counted
      simp only [pending, answering, Reader.answersLogin, List.length_append,
        List.length_singleton] at counted ⊢
      omega
    case woken => exact fun _ _ => settled
    case testing => exact fun same => by cases waiting.symm.trans same
    case inMenu => exact fun same => by cases waiting.symm.trans same

theorem finishRegistration_tidy (s : State) (js : Object) (tidy : Tidy s)
    (registering : s.reader = .registering js) :
    Tidy (finishRegistration js s) := by
  have waiting := tidy.registering js registering
  have room := tidy.room
  rw [waiting, Main.room] at room
  simp only [tokens, registering, Reader.busy] at room
  unfold finishRegistration
  split
  · exact exit_tidy s tidy
  · constructor
    case room =>
      simp only [tokens, waiting, Main.room, Reader.busy]
      omega
    case asked => exact tidy.asked
    case answered => exact tidy.answered
    case answering => exact fun other same => by cases same
    case registering => exact fun other same => by cases same
    case counted =>
      have counted := tidy.counted
      simp only [pending, registering, Reader.answersLogin] at counted ⊢
      omega
    case woken => exact fun same => by cases waiting.symm.trans same
    case testing => exact fun same => by cases waiting.symm.trans same
    case inMenu => exact fun same => by cases waiting.symm.trans same

theorem post_tidy (s : State) (tidy : Tidy s) (posting : s.reader = .posting) :
    Tidy { s with rwsem := s.rwsem + 1, reader := .receiving } := by
  have room := tidy.room
  simp only [tokens, posting, Reader.busy] at room
  constructor
  case room =>
    simp only [tokens, Reader.busy]
    omega
  case asked => exact tidy.asked
  case answered => exact tidy.answered
  case answering => exact fun other same => by cases same
  case registering => exact fun other same => by cases same
  case counted =>
    have counted := tidy.counted
    simp only [pending, posting, Reader.answersLogin] at counted ⊢
    omega
  case woken => exact fun same _ => tidy.woken same (.inl posting)
  case testing => exact tidy.testing
  case inMenu => exact tidy.inMenu

/-! Runs. -/

theorem step_tidy (s after : State) (action : Action) (tidy : Tidy s)
    (stepped : step dump json s action = some after) : Tidy after := by
  unfold step at stepped
  split at stepped
  · cases stepped
  split at stepped
  · rename_i main
    cases stepped
    exact choose_tidy dump s _ tidy main
  · cases stepped
    exact exit_tidy s tidy
  · rename_i main
    cases stepped
    exact moved_tidy s _ _ s.menu tidy (congrArg Main.room main) (fun same => by cases same)
      fun same => by cases same
  · rename_i main
    cases stepped
    exact send_tidy s _ _ tidy main
  · rename_i login main
    split at stepped
    · rename_i up
      cases stepped
      exact wake_tidy s login tidy main up
    · cases stepped
  · rename_i main
    cases stepped
    exact test_tidy s tidy main
  · rename_i main
    cases stepped
    exact command_tidy dump s _ _ _ tidy main
  · split at stepped
    · rename_i request rest first
      split at stepped
      · rename_i kind
        cases stepped
        exact answer_tidy s request rest _ tidy first kind
      · cases stepped
    · cases stepped
  · split at stepped
    · rename_i other
      cases stepped
      refine forward_tidy s _ tidy fun login => ?_
      cases login with
      | true => exact other.1
      | false => exact other.2
    · cases stepped
  · rename_i receiving
    split at stepped
    · rename_i js rest first
      cases stepped
      exact receive_tidy s js rest tidy first receiving
    · cases stepped
  · rename_i js answering
    cases stepped
    exact finishLogin_tidy json s js tidy answering
  · rename_i js registering
    cases stepped
    exact finishRegistration_tidy s js tidy registering
  · rename_i posting
    cases stepped
    exact post_tidy s tidy posting
  · cases stepped
    exact exit_tidy s tidy
  · cases stepped

theorem started_tidy : Tidy started := by
  constructor
  case room => decide
  case counted => decide
  case answered => exact fun js member => absurd member List.not_mem_nil
  case asked => exact fun request member => absurd member List.not_mem_nil
  case woken => exact fun same => by cases same
  all_goals
    intros
    contradiction

theorem run_tidy (trace : List Action) (s : State)
    (ran : run (step dump json) started trace = some s) : Tidy s :=
  Transition.run_always (step dump json) Tidy
    (fun before action after => step_tidy dump json before after action) started s trace
    started_tidy ran

end Reading

/-! The requests of the menu. -/

section Requests
variable (dump : ClientCommands.Json) (g_currentUser : LoginReply.User) (now : Time) (ret : Int)

/-- What was passed to send meanwhile carries the user's id. -/
def Signed (before : Menu) (result : Except ClientCommands.Exception Menu) : Prop :=
  ∀ after, result = .ok after → ∃ sent, after.passed = before.passed ++ sent ∧
    ∀ entry ∈ sent, getInt entry.1 "id" = some g_currentUser.id

theorem complain_signed (before menu : Menu) (message : Bytes)
    (same : menu.passed = before.passed) :
    Signed g_currentUser before (.ok (ClientCommands.complain message menu)) := by
  intro after returned
  cases returned
  exact ⟨[], by simp [ClientCommands.complain, same], by simp⟩

theorem sendRequest_signed (before menu : Menu) (js : Object) (failure : Bytes)
    (same : menu.passed = before.passed)
    (signed : getInt js "id" = some g_currentUser.id) :
    Signed g_currentUser before (ClientCommands.sendRequest dump ret js failure menu) := by
  intro after returned
  unfold ClientCommands.sendRequest at returned
  split at returned
  · cases returned
  · have passed : ∃ buffer, after.passed = menu.passed ++ [(js, buffer)] := by
      cases returned
      split <;> exact ⟨_, rfl⟩
    obtain ⟨buffer, passed⟩ := passed
    refine ⟨[(js, buffer)], by rw [passed, same], fun entry member => ?_⟩
    rw [List.mem_singleton.mp member]
    exact signed

theorem stoi_signed (before : Menu) (str : Bytes)
    (next : Int → Except ClientCommands.Exception Menu)
    (signed : ∀ number, Signed g_currentUser before (next number)) :
    Signed g_currentUser before (ClientCommands.stoi str >>= next) := by
  cases ClientCommands.stoi str with
  | error failure => exact fun after returned => by cases returned
  | ok number => exact signed number

theorem handle_signed (before menu : Menu) (str : Bytes) (handler : ClientCommands.CommandHandler)
    (same : menu.passed = before.passed) :
    Signed g_currentUser before
      (ClientCommands.handle dump g_currentUser now ret str menu handler) := by
  cases handler with
  | help =>
      intro after returned
      cases returned
      exact ⟨[], by simp [same], by simp⟩
  | chat =>
      simp only [ClientCommands.handle, ClientCommands.chat]
      split
      · exact complain_signed g_currentUser before menu _ same
      · exact sendRequest_signed dump g_currentUser ret before menu _ _ same rfl
  | addfriend => exact sendRequest_signed dump g_currentUser ret before menu _ _ same rfl
  | creategroup =>
      simp only [ClientCommands.handle, ClientCommands.creategroup]
      split
      · exact complain_signed g_currentUser before menu _ same
      · exact sendRequest_signed dump g_currentUser ret before menu _ _ same rfl
  | addgroup =>
      exact stoi_signed g_currentUser before str _ fun _ =>
        sendRequest_signed dump g_currentUser ret before menu _ _ same rfl
  | groupchat =>
      simp only [ClientCommands.handle, ClientCommands.groupchat]
      split
      · exact complain_signed g_currentUser before menu _ same
      · exact stoi_signed g_currentUser before _ _ fun _ =>
          sendRequest_signed dump g_currentUser ret before menu _ _ same rfl
  | loginout =>
      intro after returned
      simp only [ClientCommands.handle, ClientCommands.loginout] at returned
      cases sent : ClientCommands.sendRequest dump ret
        (ClientCommands.loginoutRequest g_currentUser)
          (SqlText.ascii "send loginout msg error -> ") menu with
      | error failure =>
          rw [sent] at returned
          cases returned
      | ok middle =>
          rw [sent] at returned
          have passed : after.passed = middle.passed := by
            cases returned
            split <;> rfl
          rw [passed]
          exact sendRequest_signed dump g_currentUser ret before menu _ _ same rfl middle sent

theorem round_signed (line : Line) (before : Menu) :
    Signed g_currentUser before (mainMenuRound dump g_currentUser now ret line before) := by
  unfold mainMenuRound
  simp only
  split
  · exact complain_signed g_currentUser before before _ rfl
  · exact handle_signed dump g_currentUser now ret before _ _ _ rfl

end Requests

/-! What holds in every state. -/

section Runs
variable (dump : ClientCommands.Json) (json : LoginReply.Json)

/-- The threads whose next step is with g_isLoginSuccess, g_currentUser or the lists. -/
def Main.touches : Main → Bool
  | .storing _ => true
  | .testing => true
  | .menu => true
  | _ => false

def Reader.touches : Reader → Bool
  | .answering _ => true
  | _ => false

/-- The two threads are never at the globals together: while the reading thread is in
doLoginResponse, the main thread waits for this very answer. No more than one request is underway,
be it with the server, its answer on the way, with the reading thread, or already posted. -/
theorem globals_guarded (trace : List Action) (s : State)
    (ran : run (step dump json) started trace = some s) :
    ¬ (s.main.touches = true ∧ s.reader.touches = true) ∧
      (s.reader.touches = true → s.main = .waiting true) ∧
      tokens s ≤ 1 := by
  have tidy := run_tidy dump json trace s ran
  have waits (touched : s.reader.touches = true) : s.main = .waiting true := by
    cases reader : s.reader with
    | answering js => exact tidy.answering js reader
    | receiving | registering _ | posting => simp [reader, Reader.touches] at touched
  refine ⟨fun ⟨main, reader⟩ => ?_, waits, ?_⟩
  · rw [waits reader] at main
    cases main
  · have one : s.main.room ≤ 1 := by cases s.main <;> simp [Main.room]
    exact tidy.room.trans one

/-- User 1 logs in; the answer is being handled. -/
def loggingIn : List Action :=
  [.choose (.login 1 (SqlText.ascii "a")), .store, .send 32, .answer LoginReply.sampleReply,
    .receive]

theorem globals_guarded_answering :
    ∃ s, run (step ClientCommands.sampleJson LoginReply.sampleJson) started loggingIn = some s ∧
      s.reader.touches = true ∧ ¬ (s.main.touches = true ∧ s.reader.touches = true) ∧
      (s.reader.touches = true → s.main = .waiting true) ∧ tokens s ≤ 1 :=
  ⟨_, rfl, rfl, globals_guarded ClientCommands.sampleJson LoginReply.sampleJson loggingIn _ rfl⟩

/-- Where main reads the flag, and in mainMenu, every login that was sent has been handled, and the
globals are those of the answer to the last one: main goes into mainMenu iff that answer has errno
0, and there g_currentUser is its user, whose id every request of the menu carries. -/
theorem menu_user (trace : List Action) (s : State)
    (ran : run (step dump json) started trace = some s)
    (inside : s.main = .testing ∨ s.main = .menu) :
    s.handled.length = s.logins.length ∧ ∃ js, s.handled.getLast? = some (js, s.globals) ∧
      (s.main = .testing → ((test s).main = .menu ↔ getInt js "errno" = some 0)) ∧
      (s.main = .menu → getInt js "id" = some s.globals.currentUser.id ∧
        getString js "name" = some s.globals.currentUser.name ∧
        ∀ line now ret after, step dump json s (.command line now ret) = some after →
          ∃ sent, after.menu.passed = s.menu.passed ++ sent ∧
            ∀ entry ∈ sent, getInt entry.1 "id" = getInt js "id") := by
  have tidy := run_tidy dump json trace s ran
  have still : s.main.room = 0 := by rcases inside with main | main <;> rw [main] <;> rfl
  have idle := tidy_idle s tidy still
  have settled : Settled s := by
    rcases inside with main | main
    · exact tidy.testing main
    · exact (tidy.inMenu main).1
  obtain ⟨js, last, answered⟩ := settled
  refine ⟨?_, js, last, ?_, ?_⟩
  · have counted := tidy.counted
    have none_ : s.replies.countP isLoginAck = 0 := List.countP_eq_zero.mpr fun js member => by
      have plain := idle.replies js member
      simp only [isAck, Bool.or_eq_false_iff] at plain
      simp [isLoginAck, plain.1]
    simpa [pending, idle.requests, idle.reader, none_, Reader.answersLogin] using counted.symm
  · intro _
    obtain ⟨errno, found, flag⟩ := answered.errno
    rw [found]
    unfold test
    split
    · rename_i success
      exact iff_of_true rfl (congrArg some (flag.mp success))
    · rename_i failure
      refine iff_of_false (fun same => by cases same) fun zero =>
        failure (flag.mpr (Option.some.inj zero))
  · intro main
    have success := (tidy.inMenu main).2
    refine ⟨answered.id success, answered.name success, fun line now ret after stepped => ?_⟩
    have went : after = command dump line now ret s := by
      simp only [step, main] at stepped
      split at stepped
      · cases stepped
      · exact (Option.some.inj stepped).symm
    subst went
    unfold command
    split
    · exact ⟨[], by simp [exit], by simp⟩
    · rename_i menu returned
      rw [answered.id success]
      exact round_signed dump s.globals.currentUser now ret line s.menu menu returned

/-- The answer is handled, and the main thread goes on into the menu. -/
def loggedIn : List Action := loggingIn ++ [.finish, .post, .wake, .test]

theorem menu_user_ann :
    ∃ s, run (step ClientCommands.sampleJson LoginReply.sampleJson) started loggedIn = some s ∧
      s.main = .menu ∧
      s.handled.length = s.logins.length ∧ ∃ js, s.handled.getLast? = some (js, s.globals) ∧
        (s.main = .testing → ((test s).main = .menu ↔ getInt js "errno" = some 0)) ∧
        (s.main = .menu → getInt js "id" = some s.globals.currentUser.id ∧
          getString js "name" = some s.globals.currentUser.name ∧
          ∀ line now ret after, step ClientCommands.sampleJson LoginReply.sampleJson s
            (.command line now ret) = some after →
              ∃ sent, after.menu.passed = s.menu.passed ++ sent ∧
              ∀ entry ∈ sent, getInt entry.1 "id" = getInt js "id") :=
  ⟨_, rfl, rfl, menu_user ClientCommands.sampleJson LoginReply.sampleJson loggedIn _ rfl (.inr rfl)⟩

end Runs

end MuduoChat.ClientThreads
