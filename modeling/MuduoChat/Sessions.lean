import MuduoChat.ChatService

/-!
Sessions, with one handler at a time. A client connects to a server, sends LOGIN
while no user is logged in on its connection and LOGINOUT for the user that is,
and may close at any point; every other request may come at any time. What a
registered user is in the three stores then always agrees: 'online' in the
database, mapped on one server, and subscribed there.
-/

namespace MuduoChat.Sessions
open Interleaving ChatService

/-- `clients` gives each open connection its server and the user logged in on it. -/
structure Cluster (S C : Type) where
  shared : Shared S C
  clients : C → Option (S × Option Int)

inductive Event (S C : Type) where
  | connect (server : S) (conn : C)
  | handle (job : Job S C) (choices : List Int)

section Model
variable {S C : Type} [DecidableEq S] [DecidableEq C]

/-- What a client sends when, and what the server learns only on an open connection. -/
def Behaves (clients : C → Option (S × Option Int)) : Job S C → Prop
  | .login server conn _ _ => clients conn = some (server, none)
  | .loginout server conn userid => clients conn = some (server, some userid)
  | .reg server conn _ _ => (clients conn).map (·.1) = some server
  | .oneChat server conn _ _ => (clients conn).map (·.1) = some server
  | .addFriend server conn _ _ => (clients conn).map (·.1) = some server
  | .creatGroup server conn _ _ _ => (clients conn).map (·.1) = some server
  | .addGroup server conn _ _ => (clients conn).map (·.1) = some server
  | .groupChat server conn _ _ _ => (clients conn).map (·.1) = some server
  | .clientCloseException server conn => (clients conn).map (·.1) = some server
  | .handlerRedisSubscribeMessage _ _ _ => True

instance (clients : C → Option (S × Option Int)) (job : Job S C) :
    Decidable (Behaves clients job) := by
  cases job <;> unfold Behaves <;> infer_instance

/-- The user of the last answer, where that is a login with errno 0. -/
def answered (replies : List (C × Ack)) : Option Int :=
  match replies.getLast? with
  | some (_, .loggedIn id _ _ _ _) => some id
  | _ => none

/-- What a client knows after its request. -/
def learn (clients : C → Option (S × Option Int)) (replies : List (C × Ack)) : Job S C → C →
    Option (S × Option Int)
  | .login server conn _ _ => Function.update clients conn (some (server, answered replies))
  | .loginout server conn _ => Function.update clients conn (some (server, none))
  | .clientCloseException _ conn => Function.update clients conn none
  | _ => clients

def step (cluster : Cluster S C) : Event S C → Option (Cluster S C)
  | .connect server conn =>
      if cluster.clients conn = none then
        some { cluster with clients := Function.update cluster.clients conn (some (server, none)) }
      else none
  | .handle job choices =>
      if Behaves cluster.clients job then
        (launch job cluster.shared).bind fun launched =>
          (runProg perform (program job) choices launched).map fun result =>
            { shared := result.2, clients := learn cluster.clients result.2.replies job }
      else none

/-! What a handler run alone does to the three stores. -/

def SameView (before after : Shared S C) : Prop :=
  after.user = before.user ∧ after.userConnMap = before.userConnMap ∧
    after.subscribed = before.subscribed

def keeps : Op S C → Bool
  | .insertConn _ _ _ => false
  | .eraseConn _ _ => false
  | .insertUser _ => false
  | .updateState _ _ => false
  | .subscribe _ _ => false
  | .unsubscribe _ _ => false
  | _ => true

def onlyKeeps : Monitor (Op S C) Res Unit where
  allowed _ op := keeps op = true
  after _ _ _ := ()

theorem keeps_view (op : Op S C) (choice : Int) (shared after : Shared S C) (result : Res op)
    (kept : keeps op = true)
    (performed : perform choice op shared = some (result, after)) : SameView shared after := by
  unfold SameView
  cases op <;> grind [perform, keeps]

/-- A program without the six operations leaves the stores alone. -/
theorem runs_view {α : Type} (body : Task S C α) (shared after : Shared S C) (value : α)
    (follows : Follows onlyKeeps body (fun _ _ => True) ())
    (ran : Runs perform body shared value after) :
    SameView shared after := by
  obtain ⟨_, _, same⟩ := runs_follows perform onlyKeeps (fun middle _ => SameView shared middle)
    (fun _ op choice middle result next allowed before performed => by
      obtain ⟨user, maps, subscribed⟩ := keeps_view op choice middle next result allowed performed
      exact ⟨user.trans before.1, maps.trans before.2.1, subscribed.trans before.2.2⟩)
    body _ () shared after value follows ⟨rfl, rfl, rfl⟩ ran
  exact same

omit [DecidableEq S] [DecidableEq C] in
theorem passOn_keeps (id : Int) (text : Text) :
    Follows onlyKeeps (passOn id text : Task S C Unit) (fun _ _ => True) () := by
  simp only [passOn, queryUser, call_bind, follows_act]
  refine ⟨rfl, fun user => ?_⟩
  split <;> exact ⟨rfl, fun _ => trivial⟩

omit [DecidableEq S] [DecidableEq C] in
theorem chatAll_keeps (server : S) (text : Text) (ids : List Int) :
    Follows onlyKeeps (chatAll server text ids : Task S C Unit) (fun _ _ => True) () := by
  induction ids with
  | nil => trivial
  | cons id rest ih =>
      simp only [chatAll, find, call_bind, follows_act]
      refine ⟨rfl, fun entry => ?_⟩
      cases entry with
      | some conn => exact ⟨rfl, fun _ => ih⟩
      | none =>
          rw [follows_bind]
          exact follows_mono _ _ _ _ (fun _ _ _ => ih) _ (passOn_keeps id text)

/-- The requests that are no part of a session. -/
def foreign : Job S C → Bool
  | .login .. => false
  | .reg .. => false
  | .loginout .. => false
  | .clientCloseException .. => false
  | _ => true

omit [DecidableEq S] [DecidableEq C] in
theorem foreign_keeps (job : Job S C) (other : foreign job = true) :
    Follows onlyKeeps (program job) (fun _ _ => True) () := by
  cases job with
  | oneChat server conn toid text =>
      simp only [program, oneChat, lock, find, call_bind, follows_act]
      refine ⟨rfl, fun _ => ⟨rfl, fun entry => ?_⟩⟩
      cases entry with
      | some conn => exact ⟨rfl, fun _ => ⟨rfl, fun _ => trivial⟩⟩
      | none => exact ⟨rfl, fun _ => passOn_keeps toid text⟩
  | addFriend server conn userid friendid => exact ⟨rfl, fun _ => trivial⟩
  | creatGroup server conn userid name desc =>
      simp only [program, creatGroup, call_bind, follows_act]
      refine ⟨rfl, fun created => ?_⟩
      cases created with
      | none => trivial
      | some groupid => exact ⟨rfl, fun _ => trivial⟩
  | addGroup server conn userid groupid => exact ⟨rfl, fun _ => trivial⟩
  | groupChat server conn userid groupid text =>
      exact ⟨rfl, fun ids => chatAll_keeps server text ids⟩
  | handlerRedisSubscribeMessage server userid msg =>
      simp only [program, handlerRedisSubscribeMessage, lock, unlock, find, call_bind, follows_act]
      refine ⟨rfl, fun _ => ⟨rfl, fun entry => ?_⟩⟩
      cases entry <;> exact ⟨rfl, fun _ => ⟨rfl, fun _ => trivial⟩⟩
  | _ => simp [foreign] at other

/-! Registration, and the steps of login in order. -/

theorem reg_runs (conn : C) (name pwd : Text) (shared after : Shared S C)
    (ran : Runs perform (reg conn name pwd : Task S C Unit) shared () after) :
    after.userConnMap = shared.userConnMap ∧ after.subscribed = shared.subscribed ∧
      (after.user = shared.user ∨ ∃ id row, 0 < id ∧ id ∉ shared.user ∧ row.state = .offline ∧
        after.user = shared.user.insert id row) := by
  simp only [reg, call_bind, runs_act] at ran
  obtain ⟨choice, inserted, middle, performed, tail⟩ := ran
  have answer : SameView middle after := by
    refine runs_view _ middle after () ?_ tail
    cases inserted <;> exact ⟨rfl, fun _ => trivial⟩
  obtain ⟨user, maps, subscribed⟩ := answer
  simp only [perform] at performed
  split at performed
  · cases performed
    exact ⟨maps, subscribed, Or.inl user⟩
  · split at performed
    · cases performed
    · rename_i positive fresh
      cases performed
      exact ⟨maps, subscribed, Or.inr ⟨choice, ⟨name, pwd, .offline⟩, by omega, fresh, rfl, user⟩⟩

theorem members_runs (groups all : List Group) (shared after : Shared S C)
    (ran : Runs perform (withMembers groups) shared all after) : after = shared := by
  induction groups generalizing all shared with
  | nil => exact ((runs_done _ _ _ _ _).mp ran).2
  | cons group rest ih =>
      simp only [withMembers, call_bind, runs_act, runs_bind] at ran
      obtain ⟨_, users, middle, performed, found, last, tail, finish⟩ := ran
      simp only [perform, Option.some.injEq, Prod.mk.injEq] at performed
      obtain ⟨_, rfl⟩ := performed
      obtain ⟨_, rfl⟩ := (runs_done _ _ _ _ _).mp finish
      exact ih found shared tail

theorem offline_runs (id : Int) (vec : List Text) (shared after : Shared S C)
    (ran : Runs perform (takeOffline id) shared vec after) :
    SameView shared after ∧ after.replies = shared.replies := by
  simp only [takeOffline, call_bind, runs_act] at ran
  obtain ⟨_, rows, middle, performed, tail⟩ := ran
  simp only [perform, Option.some.injEq, Prod.mk.injEq] at performed
  obtain ⟨_, rfl⟩ := performed
  split at tail
  · obtain ⟨_, rfl⟩ := (runs_done _ _ _ _ _).mp tail
    exact ⟨⟨rfl, rfl, rfl⟩, rfl⟩
  · simp only [runs_act] at tail
    obtain ⟨_, _, cleared, deleted, finish⟩ := tail
    obtain ⟨_, rfl⟩ := (runs_done _ _ _ _ _).mp finish
    simp only [perform, Option.some.injEq, Prod.mk.injEq, true_and] at deleted
    subst deleted
    exact ⟨⟨rfl, rfl, rfl⟩, rfl⟩

omit [DecidableEq S] [DecidableEq C] in
theorem answered_append (replies : List (C × Ack)) (conn : C) (ack : Ack) :
    answered (replies ++ [(conn, ack)]) =
      match ack with | .loggedIn id _ _ _ _ => some id | _ => none := by
  simp only [answered, List.getLast?_append, List.getLast?_singleton, Option.some_or]
  cases ack <;> rfl

/-- What an accepted login leaves behind. -/
structure LoggedIn (server : S) (conn : C) (id : Int) (shared after : Shared S C) : Prop where
  user : after.user = setUserState shared.user id .online
  maps : after.userConnMap = Function.update shared.userConnMap server
    (insertNew (shared.userConnMap server) id conn)
  subscribed : ∀ entry, entry ∈ after.subscribed ↔ entry ∈ shared.subscribed ∨ entry = (server, id)
  answer : answered after.replies = some id

theorem login_runs (server : S) (conn : C) (id : Int) (pwd : Text) (shared after : Shared S C)
    (ran : Runs perform (login server conn id pwd) shared () after) :
    (accepts id pwd (findUser shared id) ∧ LoggedIn server conn id shared after) ∨
      (SameView shared after ∧ answered after.replies = none) := by
  simp only [login, queryUser, updateState, call_bind, runs_act] at ran
  obtain ⟨_, user, middle, performed, tail⟩ := ran
  simp only [perform, Option.some.injEq, Prod.mk.injEq] at performed
  obtain ⟨rfl, rfl⟩ := performed
  -- both refusing branches only answer
  have refuses : ∀ errno errmsg, Runs perform (reply conn (.loginFailed errno errmsg)) shared
      () after →
      SameView shared after ∧ answered after.replies = none := by
    intro errno errmsg answers
    simp only [reply, call, runs_act, perform, Option.some.injEq, Prod.mk.injEq] at answers
    obtain ⟨_, _, _, ⟨_, rfl⟩, finish⟩ := answers
    obtain ⟨_, rfl⟩ := (runs_done _ _ _ _ _).mp finish
    exact ⟨⟨rfl, rfl, rfl⟩, by simp [answered_append]⟩
  split at tail
  · rename_i known
    split at tail
    · exact Or.inr (refuses _ _ tail)
    · rename_i offline
      left
      refine ⟨⟨known.1, known.2, offline⟩, ?_⟩
      simp only [runs_act, runs_bind, queryGroups, reply, call] at tail
      obtain ⟨_, _, entered, inserted, _, _, joined, subscribes, _, _, stored, updates, vec, read,
          reads, _, friends,
        befriended, queries, groups, grouped,
          ⟨rows, selected, ⟨_, _, asked, selects, found⟩, members⟩, _, _, replied,
        answers, finish⟩ := tail
      simp only [perform, Option.some.injEq, Prod.mk.injEq,
        true_and] at inserted updates queries selects answers
      obtain ⟨_, rfl⟩ := queries
      obtain ⟨_, rfl⟩ := selects
      obtain ⟨_, rfl⟩ := (runs_done _ _ _ _ _).mp found
      have unchanged := members_runs rows groups _ _ members
      subst unchanged
      obtain ⟨_, rfl⟩ := (runs_done _ _ _ _ _).mp finish
      obtain ⟨⟨user, maps, channels⟩, _⟩ := offline_runs id vec _ _ reads
      subst inserted updates answers
      have joins := subscribe_spec _ _ _ _ _ _ subscribes
      refine ⟨?_, ?_, ?_, ?_⟩
      · rw [user, ← joins.1, known.1]
      · rw [maps]
        exact joins.2.1
      · rw [channels]
        exact joins.2.2
      · rw [answered_append, known.1]
  · exact Or.inr (refuses _ _ tail)

/-- What is left of a session when its user has logged out. -/
structure LoggedOut (server : S) (id : Int) (shared after : Shared S C) : Prop where
  user : after.user = setUserState shared.user id .offline
  maps : ∀ other user, (after.userConnMap other).lookup user =
    if other = server ∧ user = id then none else (shared.userConnMap other).lookup user
  subscribed : ∀ entry, entry ∈ after.subscribed ↔ entry ∈ shared.subscribed ∧ entry ≠ (server, id)

omit [DecidableEq C] in
theorem erased_lookup (maps : S → AList fun _ : Int => C) (server other : S) (id user : Int) :
    (Function.update maps server ((maps server).erase id) other).lookup user =
      if other = server ∧ user = id then none else (maps other).lookup user := by
  by_cases here : other = server
  · subst here
    by_cases mine : user = id
    · subst mine
      simp [AList.lookup_erase]
    · simp [mine, AList.lookup_erase_ne mine]
  · simp [here]

/-- The last steps of loginout and of a close. -/
theorem leaving_runs (server : S) (id : Int) (shared after : Shared S C)
    (ran : Runs perform (.act (Op.unlock server) fun _ => .act (Op.unsubscribe server id) fun _ =>
      call (Op.updateState id .offline)) shared () after) :
    after.user = setUserState shared.user id .offline ∧ after.userConnMap = shared.userConnMap ∧
      ∀ entry, entry ∈ after.subscribed ↔ entry ∈ shared.subscribed ∧ entry ≠ (server, id) := by
  simp only [call, runs_act, perform, Option.some.injEq, Prod.mk.injEq, true_and] at ran
  obtain ⟨_, _, _, rfl, _, _, _, rfl, _, _, _, rfl, finish⟩ := ran
  obtain ⟨_, rfl⟩ := (runs_done _ _ _ _ _).mp finish
  exact ⟨rfl, rfl, fun entry => by simp⟩

theorem loginout_runs (server : S) (userid : Int) (shared after : Shared S C)
    (ran : Runs perform (loginout server userid : Task S C Unit) shared () after) :
    LoggedOut server userid shared after := by
  simp only [loginout, lock, unlock, find, updateState, call_bind, runs_act] at ran
  obtain ⟨_, _, held, locks, _, entry, looked, finds, rest⟩ := ran
  simp only [perform, Option.some.injEq, Prod.mk.injEq] at finds
  obtain ⟨rfl, rfl⟩ := finds
  obtain ⟨user, maps, channels⟩ :
      SameView shared held := keeps_view (Op.lock server) _ shared held () rfl locks
  cases found : (held.userConnMap server).lookup userid with
  | none =>
      simp only [found, Option.isSome_none, Bool.false_eq_true, if_false] at rest
      obtain ⟨stored, kept, left_⟩ := leaving_runs server userid _ after rest
      refine ⟨by rw [stored, user], fun other id => ?_, fun entry => by rw [left_, channels]⟩
      rw [kept, ← maps]
      split
      · rename_i here
        rw [here.1, here.2]
        exact found
      · rfl
  | some conn =>
      simp only [found, Option.isSome_some, if_true] at rest
      obtain ⟨_, _, erased, erases, rest⟩ := (runs_act _ _ _ _ _ _).mp rest
      simp only [perform, Option.some.injEq, Prod.mk.injEq, true_and] at erases
      subst erases
      obtain ⟨stored, kept, left_⟩ := leaving_runs server userid _ after rest
      refine ⟨by rw [stored, user], fun other id => ?_, fun entry => by rw [left_, channels]⟩
      rw [kept, ← maps]
      exact erased_lookup held.userConnMap server other userid id

omit [DecidableEq S] in
theorem mapped_member (entries : AList fun _ : Int => C) (conn : C) (id : Int) :
    id ∈ (entries.entries.filter fun entry => entry.2 = conn).map (·.1) ↔
      entries.lookup id = some conn := by
  rw [← Option.mem_def, AList.mem_lookup_iff]
  simp only [List.mem_map, List.mem_filter, decide_eq_true_eq]
  constructor
  · rintro ⟨⟨user, receiver⟩, ⟨member, rfl⟩, rfl⟩
    exact member
  · intro member
    exact ⟨⟨id, conn⟩, ⟨member, rfl⟩, rfl⟩

theorem setUserState_absent (user : AList fun _ : Int => UserRow) (id : Int) (state : UserState)
    (absent : user.lookup id = none) : setUserState user id state = user := by
  simp [setUserState, absent]

/-- The id of User() has no row, so the test before updateState makes no difference. -/
theorem closing_runs (server : S) (id : Int) (shared after : Shared S C)
    (absent : shared.user.lookup (-1) = none)
    (ran : Runs perform (.act (Op.unlock server) fun _ => .act (Op.unsubscribe server id) fun _ =>
      if id ≠ -1 then call (Op.updateState id .offline) else pure ()) shared () after) :
    after.user = setUserState shared.user id .offline ∧ after.userConnMap = shared.userConnMap ∧
      ∀ entry, entry ∈ after.subscribed ↔ entry ∈ shared.subscribed ∧ entry ≠ (server, id) := by
  by_cases nobody : id = -1
  · subst nobody
    simp only [ne_eq, not_true_eq_false, if_false, runs_act, perform, Option.some.injEq,
      Prod.mk.injEq, true_and] at ran
    obtain ⟨_, _, _, rfl, _, _, _, rfl, finish⟩ := ran
    obtain ⟨_, rfl⟩ := (runs_done _ _ _ _ _).mp finish
    exact ⟨(setUserState_absent _ _ _ absent).symm, rfl, fun entry => by simp⟩
  · simp only [ne_eq, nobody, not_false_eq_true, if_true] at ran
    exact leaving_runs server id shared after ran

/-- A close takes one entry of the connection, where there is one. Without one the
server unsubscribes from the channel of User()'s id. -/
theorem close_runs (server : S) (conn : C) (shared after : Shared S C)
    (absent : shared.user.lookup (-1) = none)
    (ran : Runs perform (clientCloseException server conn) shared () after) :
    (∃ id, (shared.userConnMap server).lookup id = some conn ∧ LoggedOut server id shared after) ∨
      ((∀ id, (shared.userConnMap server).lookup id ≠ some conn) ∧ after.user = shared.user ∧
        after.userConnMap = shared.userConnMap ∧
        ∀ entry, entry ∈ after.subscribed ↔ entry ∈ shared.subscribed ∧ entry ≠ (server, -1)) := by
  simp only [clientCloseException, lock, unlock, updateState, call_bind, runs_act] at ran
  obtain ⟨_, _, held, locks, choice, entry, searched, searches, rest⟩ := ran
  obtain ⟨user, maps, channels⟩ :
      SameView shared held := keeps_view (Op.lock server) _ shared held () rfl locks
  simp only [perform] at searches
  split at searches
  · rename_i empty
    simp only [Option.some.injEq, Prod.mk.injEq] at searches
    obtain ⟨rfl, rfl⟩ := searches
    obtain ⟨stored, kept, left_⟩ := closing_runs server (-1) held after
      (by rw [user]; exact absent) rest
    right
    refine ⟨fun id here => ?_, ?_, by rw [kept, maps], fun entry => by rw [left_, channels]⟩
    · rw [← maps] at here
      have member := (mapped_member (held.userConnMap server) conn id).mpr here
      rw [empty] at member
      simp at member
    · rw [stored, user, setUserState_absent _ _ _ absent]
  · split at searches
    · rename_i member
      simp only [Option.some.injEq, Prod.mk.injEq] at searches
      obtain ⟨rfl, rfl⟩ := searches
      have here := (mapped_member (held.userConnMap server) conn choice).mp member
      rw [maps] at here
      obtain ⟨_, _, erased, erases, rest⟩ := (runs_act _ _ _ _ _ _).mp rest
      simp only [perform, Option.some.injEq, Prod.mk.injEq, true_and] at erases
      subst erases
      obtain ⟨stored, kept, left_⟩ := closing_runs server choice _ after
        (by rw [user]; exact absent) rest
      refine Or.inl ⟨choice, here, by rw [stored, user], fun other id => ?_,
        fun entry => by rw [left_, channels]⟩
      rw [kept, ← maps]
      exact erased_lookup held.userConnMap server other choice id
    · cases searches

/-! The invariant. -/

def Mapped (shared : Shared S C) (server : S) (id : Int) (conn : C) : Prop :=
  (shared.userConnMap server).lookup id = some conn

/-- Every entry belongs to the session of its connection. For a registered user the
converse holds as well, and its entry, subscription and state go together. User()'s
id can be logged in without a row. -/
structure Inv (cluster : Cluster S C) : Prop where
  positive : ∀ id ∈ cluster.shared.user, 0 < id
  entry : ∀ server id conn, Mapped cluster.shared server id conn →
    cluster.clients conn = some (server, some id)
  session : ∀ server conn, ∀ id ∈ cluster.shared.user, cluster.clients conn =
    some (server, some id) →
    Mapped cluster.shared server id conn
  single : ∀ id ∈ cluster.shared.user, ∀ server other conn receiver,
    Mapped cluster.shared server id conn →
    Mapped cluster.shared other id receiver → server = other
  online : ∀ id row, cluster.shared.user.lookup id = some row →
    (row.state = .online ↔ ∃ server conn, Mapped cluster.shared server id conn)
  heard : ∀ id ∈ cluster.shared.user, ∀ server, (server, id) ∈ cluster.shared.subscribed ↔
    ∃ conn, Mapped cluster.shared server id conn
  known : ∀ server id conn, cluster.clients conn = some (server, some id) →
    id ∈ cluster.shared.user ∨ id = -1
  channel : ∀ server id, (server, id) ∈ cluster.shared.subscribed → id ∈ cluster.shared.user ∨
    id = -1

omit [DecidableEq S] [DecidableEq C] in
theorem inv_view (shared after : Shared S C) (clients : C → Option (S × Option Int))
    (inv : Inv ⟨shared, clients⟩)
    (same : SameView shared after) : Inv ⟨after, clients⟩ := by
  obtain ⟨user, maps, subscribed⟩ := same
  obtain ⟨positive, entry, session, single, online, heard, known, channel⟩ := inv
  simp only [Mapped] at entry session single online heard
  constructor <;> simp only [Mapped, user, maps, subscribed] <;> assumption

omit [DecidableEq S] in
/-- A connection in no entry that comes, or goes. -/
theorem client_inv (cluster : Cluster S C) (conn : C) (new : Option (S × Option Int))
    (inv : Inv cluster)
    (unmapped : ∀ server id, ¬ Mapped cluster.shared server id conn)
    (plain : ∀ server id, new ≠ some (server, some id)) :
    Inv { cluster with clients := Function.update cluster.clients conn new } := by
  obtain ⟨positive, entry, session, single, online, heard, known, channel⟩ := inv
  have opened : ∀ receiver server id, Function.update cluster.clients conn new receiver =
      some (server, some id) →
      cluster.clients receiver = some (server, some id) := by
    intro receiver server id open_
    by_cases here : receiver = conn
    · subst here
      simp only [Function.update_self] at open_
      exact absurd open_ (plain server id)
    · simpa only [Function.update_of_ne here] using open_
  constructor
  case positive => exact positive
  case entry =>
    intro server id receiver mapped
    have away : receiver ≠ conn := by
      rintro rfl
      exact unmapped server id mapped
    simp only [Function.update_of_ne away]
    exact entry server id receiver mapped
  case session =>
    intro server receiver id registered open_
    exact session server receiver id registered (opened receiver server id open_)
  case single => exact single
  case online => exact online
  case heard => exact heard
  case known =>
    intro server id receiver open_
    exact known server id receiver (opened receiver server id open_)
  case channel => exact channel

omit [DecidableEq S] [DecidableEq C] in
/-- A new user has no part in any session. -/
theorem reg_inv (shared after : Shared S C) (clients : C → Option (S × Option Int)) (id : Int)
    (row : UserRow)
    (inv : Inv ⟨shared, clients⟩) (positive_ : 0 < id) (fresh : id ∉ shared.user)
    (offline : row.state = .offline)
    (maps : after.userConnMap = shared.userConnMap)
    (subscribed : after.subscribed = shared.subscribed)
    (user : after.user = shared.user.insert id row) : Inv ⟨after, clients⟩ := by
  obtain ⟨positive, entry, session, single, online, heard, known, channel⟩ := inv
  have named : ∀ other, other ∈ after.user ↔ other = id ∨ other ∈ shared.user := by
    intro other
    rw [user, AList.mem_insert]
  -- an id that was not registered has no client, no entry and no channel
  have outside : ∀ server conn, clients conn ≠ some (server, some id) := by
    intro server conn open_
    rcases known server id conn open_ with registered | nobody
    · exact fresh registered
    · omega
  have unmapped : ∀ server conn, ¬ Mapped shared server id conn := fun server conn mapped =>
    outside server conn (entry server id conn mapped)
  have same : ∀ server other conn, Mapped after server other conn ↔
      Mapped shared server other conn := by
    intro server other conn
    simp only [Mapped, maps]
  constructor
  case positive =>
    intro other registered
    rcases (named other).mp registered with rfl | before
    · exact positive_
    · exact positive other before
  case entry =>
    intro server other conn mapped
    exact entry server other conn ((same server other conn).mp mapped)
  case session =>
    intro server conn other registered open_
    rcases (named other).mp registered with rfl | before
    · exact absurd open_ (outside server conn)
    · exact (same server other conn).mpr (session server conn other before open_)
  case single =>
    intro other registered server another conn receiver mapped twice
    rw [same] at mapped twice
    rcases (named other).mp registered with rfl | before
    · exact absurd mapped (unmapped server conn)
    · exact single other before server another conn receiver mapped twice
  case online =>
    intro other found here
    simp only [same]
    by_cases new : other = id
    · subst new
      rw [user, AList.lookup_insert, Option.some.injEq] at here
      subst here
      simp [offline, unmapped]
    · rw [user, AList.lookup_insert_ne new] at here
      exact online other found here
  case heard =>
    intro other registered server
    simp only [same, subscribed]
    rcases (named other).mp registered with rfl | before
    · simp only [unmapped, exists_false, iff_false]
      intro heard_
      rcases channel server other heard_ with registered | nobody
      · exact fresh registered
      · omega
    · exact heard other before server
  case known =>
    intro server other conn open_
    rw [named]
    exact (known server other conn open_).imp_left Or.inr
  case channel =>
    intro server other heard_
    rw [named]
    rw [subscribed] at heard_
    exact (channel server other heard_).imp_left Or.inr

theorem stored_member (user : AList fun _ : Int => UserRow) (id other : Int) (state : UserState) :
    other ∈ setUserState user id state ↔ other ∈ user := by
  rw [← AList.lookup_isSome, ← AList.lookup_isSome, setUserState_lookup, Option.isSome_map]

omit [DecidableEq C] in
/-- The entries after an insertion: the old ones, and the new one where the user had none. -/
theorem inserted_lookup (maps : S → AList fun _ : Int => C) (server other : S) (id user : Int)
    (conn receiver : C) :
    (Function.update maps server (insertNew (maps server) id conn) other).lookup user =
    some receiver ↔
      (maps other).lookup user = some receiver ∨
        (other = server ∧ user = id ∧ receiver = conn ∧ (maps server).lookup id = none) := by
  by_cases here : other = server
  · subst here
    simp only [Function.update_self, true_and]
    by_cases mine : user = id
    · subst mine
      cases found : (maps other).lookup user with
      | none => simp [insertNew_absent _ user conn found, eq_comm]
      | some old =>
          have present : user ∈ maps other := AList.lookup_isSome.mp (by simp [found])
          simp [insertNew, present, found]
    · rw [insertNew_other _ id user conn mine]
      simp [mine]
  · simp [here]

/-! An accepted login starts a session. -/

section Login
variable (shared after : Shared S C) (clients : C → Option (S × Option Int)) (server : S)
    (conn : C) (id : Int)
  (pwd : Text) (inv : Inv ⟨shared, clients⟩) (free : clients conn = some (server, none))
  (accepted : accepts id pwd (findUser shared id)) (loggedIn : LoggedIn server conn id shared after)

section After
include loggedIn

omit [DecidableEq C] in
theorem login_rows (other : Int) : other ∈ after.user ↔ other ∈ shared.user := by
  rw [loggedIn.user, stored_member]

omit [DecidableEq C] in
theorem login_mapped (other : S) (user : Int) (receiver : C) :
    Mapped after other user receiver ↔ Mapped shared other user receiver ∨
      (other = server ∧ user = id ∧ receiver = conn ∧
        (shared.userConnMap server).lookup id = none) := by
  rw [Mapped, loggedIn.maps]
  exact inserted_lookup shared.userConnMap server other id user conn receiver

end After

omit [DecidableEq S] [DecidableEq C] in
include inv free in
/-- The connection had no entry. -/
theorem login_apart (other : S) (user : Int) (receiver : C)
    (mapped : Mapped shared other user receiver) :
    receiver ≠ conn := by
  rintro rfl
  have open_ := inv.entry other user receiver mapped
  simp [free] at open_

omit [DecidableEq S] [DecidableEq C] in
include inv accepted in
/-- A registered user was mapped nowhere, since it was not 'online'. -/
theorem login_unmapped (registered : id ∈ shared.user) (other : S) (receiver : C) :
    ¬ Mapped shared other id receiver := by
  intro mapped
  obtain ⟨row, found⟩ := Option.isSome_iff_exists.mp (AList.lookup_isSome.mpr registered)
  have state := accepted.2.2
  simp only [findUser, found] at state
  exact state ((inv.online id row found).mpr ⟨other, receiver, mapped⟩)

omit [DecidableEq S] [DecidableEq C] in
include accepted in
theorem login_registers : id ∈ shared.user ∨ id = -1 := by
  have same := accepted.1
  cases found : shared.user.lookup id with
  | none =>
      simp only [findUser, found] at same
      exact Or.inr same.symm
  | some row => exact Or.inl (AList.lookup_isSome.mp (by simp [found]))

include inv loggedIn

section Accepted
include accepted

omit [DecidableEq C] in
theorem login_begun (registered : id ∈ shared.user) : Mapped after server id conn := by
  refine (login_mapped shared after server conn id loggedIn server id conn).mpr
    (Or.inr ⟨rfl, rfl, rfl, ?_⟩)
  cases found : (shared.userConnMap server).lookup id with
  | none => rfl
  | some receiver =>
      exact absurd found
        (login_unmapped shared clients id pwd inv accepted registered server receiver)

theorem login_session (other : S) (receiver : C) (user : Int) (registered : user ∈ after.user)
    (open_ : Function.update clients conn
      (some (server, some id)) receiver = some (other, some user)) :
    Mapped after other user receiver := by
  rw [login_rows shared after server conn id loggedIn] at registered
  by_cases here : receiver = conn
  · subst here
    simp only [Function.update_self, Option.some.injEq, Prod.mk.injEq] at open_
    obtain ⟨rfl, rfl⟩ := open_
    exact login_begun shared after clients server receiver id pwd inv accepted loggedIn registered
  · simp only [Function.update_of_ne here] at open_
    exact (login_mapped shared after server conn id loggedIn other user receiver).mpr
      (Or.inl (inv.session other receiver user registered open_))

omit [DecidableEq C] in
theorem login_single (user : Int) (registered : user ∈ after.user) (other another : S)
    (receiver second : C)
    (mapped : Mapped after other user receiver) (twice : Mapped after another user second) :
    other = another := by
  have unmapped := login_unmapped shared clients id pwd inv accepted
  have entries := login_mapped shared after server conn id loggedIn
  rw [login_rows shared after server conn id loggedIn] at registered
  rcases (entries other user receiver).mp mapped with before | ⟨here, mine, _, _⟩
  · rcases (entries another user second).mp twice with old | ⟨_, mine, _, _⟩
    · exact inv.single user registered other another receiver second before old
    · rw [mine] at before registered
      exact absurd before (unmapped registered other receiver)
  · rcases (entries another user second).mp twice with old | ⟨same, _⟩
    · rw [mine] at old registered
      exact absurd old (unmapped registered another second)
    · rw [here, same]

omit [DecidableEq C] in
theorem login_online (user : Int) (row : UserRow) (found : after.user.lookup user = some row) :
    row.state = .online ↔ ∃ other receiver, Mapped after other user receiver := by
  rw [loggedIn.user, setUserState_lookup] at found
  obtain ⟨old, before, rfl⟩ := Option.map_eq_some_iff.mp found
  have registered : user ∈ shared.user := AList.lookup_isSome.mp (by simp [before])
  by_cases mine : user = id
  · subst mine
    simp only [if_true, true_iff]
    exact ⟨server, conn,
      login_begun shared after clients server conn user pwd inv accepted loggedIn registered⟩
  · simp only [mine, if_false]
    rw [inv.online user old before]
    simp only [login_mapped shared after server conn id loggedIn, mine, false_and, and_false,
      or_false]

omit [DecidableEq C] in
theorem login_heard (user : Int) (registered : user ∈ after.user) (other : S) :
    (other, user) ∈ after.subscribed ↔ ∃ receiver, Mapped after other user receiver := by
  have entries := login_mapped shared after server conn id loggedIn
  rw [login_rows shared after server conn id loggedIn] at registered
  rw [loggedIn.subscribed, Prod.mk.injEq, inv.heard user registered other]
  constructor
  · rintro (⟨receiver, mapped⟩ | ⟨rfl, rfl⟩)
    · exact ⟨receiver, (entries other user receiver).mpr (Or.inl mapped)⟩
    · exact ⟨conn, login_begun shared after clients other conn user pwd inv accepted
        loggedIn registered⟩
  · rintro ⟨receiver, mapped⟩
    rcases (entries other user receiver).mp mapped with before | ⟨rfl, rfl, _, _⟩
    · exact Or.inl ⟨receiver, before⟩
    · exact Or.inr ⟨rfl, rfl⟩

end Accepted

include free in
theorem login_entry (other : S) (user : Int) (receiver : C)
    (mapped : Mapped after other user receiver) :
    Function.update clients conn (some (server, some id)) receiver = some (other, some user) := by
  rcases (login_mapped shared after server conn id loggedIn other user receiver).mp mapped with before | ⟨rfl, rfl, rfl, _⟩
  · rw [Function.update_of_ne
      (login_apart shared clients server conn inv free other user receiver before)]
    exact inv.entry other user receiver before
  · simp

include free accepted

theorem login_inv : Inv ⟨after, Function.update clients conn (some (server, some id))⟩ := by
  have rows := login_rows shared after server conn id loggedIn
  have registers := login_registers shared id pwd accepted
  constructor
  case positive => exact fun other registered => inv.positive other ((rows other).mp registered)
  case entry => exact login_entry shared after clients server conn id inv free loggedIn
  case session => exact login_session shared after clients server conn id pwd inv accepted loggedIn
  case single => exact login_single shared after clients server conn id pwd inv accepted loggedIn
  case online => exact login_online shared after clients server conn id pwd inv accepted loggedIn
  case heard => exact login_heard shared after clients server conn id pwd inv accepted loggedIn
  case known =>
    intro other user receiver open_
    rw [rows]
    by_cases here : receiver = conn
    · subst here
      simp only [Function.update_self, Option.some.injEq, Prod.mk.injEq] at open_
      rw [← open_.2]
      exact registers
    · simp only [Function.update_of_ne here] at open_
      exact inv.known other user receiver open_
  case channel =>
    intro other user heard_
    rw [rows]
    rcases (loggedIn.subscribed (other, user)).mp heard_ with before | new
    · exact inv.channel other user before
    · rw [(Prod.mk.inj new).2]
      exact registers

end Login

/-! The end of a session, by loginout or by a close. -/

section Logout
variable (shared after : Shared S C) (clients : C → Option (S × Option Int)) (server : S)
    (conn : C) (id : Int)
  (new : Option (S × Option Int)) (inv : Inv ⟨shared, clients⟩)
    (owner : clients conn = some (server, some id))
  (plain : ∀ server id, new ≠ some (server, some id)) (loggedOut : LoggedOut server id shared after)

section After
include loggedOut

omit [DecidableEq C] in
theorem logout_rows (other : Int) : other ∈ after.user ↔ other ∈ shared.user := by
  rw [loggedOut.user, stored_member]

omit [DecidableEq C] in
theorem logout_mapped (other : S) (user : Int) (receiver : C) : Mapped after other user receiver ↔
    Mapped shared other user receiver ∧ ¬ (other = server ∧ user = id) := by
  simp only [Mapped, loggedOut.maps]
  split
  · rename_i gone
    simp [gone]
  · rename_i stays
    simp [stays]

end After

omit [DecidableEq S] in
include plain in
theorem logout_opened (receiver : C) (other : S) (user : Int)
    (open_ : Function.update clients conn new receiver = some (other, some user)) :
    receiver ≠ conn ∧ clients receiver = some (other, some user) := by
  by_cases here : receiver = conn
  · subst here
    simp only [Function.update_self] at open_
    exact absurd open_ (plain other user)
  · simp only [Function.update_of_ne here] at open_
    exact ⟨here, open_⟩

include inv owner loggedOut

theorem logout_entry (other : S) (user : Int) (receiver : C)
    (mapped : Mapped after other user receiver) :
    Function.update clients conn new receiver = some (other, some user) := by
  obtain ⟨before, stays⟩ :=
    (logout_mapped shared after server id loggedOut other user receiver).mp mapped
  have open_ := inv.entry other user receiver before
  have away : receiver ≠ conn := by
    rintro rfl
    simp only [owner, Option.some.injEq, Prod.mk.injEq] at open_
    exact stays ⟨open_.1.symm, open_.2.symm⟩
  rw [Function.update_of_ne away]
  exact open_

include plain in
theorem logout_session (other : S) (receiver : C) (user : Int) (registered : user ∈ after.user)
    (open_ : Function.update clients conn new receiver = some (other, some user)) :
    Mapped after other user receiver := by
  rw [logout_rows shared after server id loggedOut] at registered
  obtain ⟨away, before⟩ := logout_opened clients conn new plain receiver other user open_
  have mapped := inv.session other receiver user registered before
  refine (logout_mapped shared after server id loggedOut other user receiver).mpr ⟨mapped, ?_⟩
  rintro ⟨here, mine⟩
  -- the entry that is gone was the one of `conn`
  rw [mine] at registered
  have own := inv.session server conn id registered owner
  rw [here, mine] at mapped
  rw [Mapped, mapped, Option.some.injEq] at own
  exact away own

omit [DecidableEq C] in
theorem logout_online (user : Int) (row : UserRow) (found : after.user.lookup user = some row) :
    row.state = .online ↔ ∃ other receiver, Mapped after other user receiver := by
  have entries := logout_mapped shared after server id loggedOut
  rw [loggedOut.user, setUserState_lookup] at found
  obtain ⟨old, before, rfl⟩ := Option.map_eq_some_iff.mp found
  have registered : user ∈ shared.user := AList.lookup_isSome.mp (by simp [before])
  by_cases mine : user = id
  · subst mine
    simp only [if_true, reduceCtorEq, false_iff]
    rintro ⟨other, receiver, mapped⟩
    obtain ⟨old_, stays⟩ := (entries other user receiver).mp mapped
    exact stays ⟨inv.single user registered other server receiver conn old_
      (inv.session server conn user registered owner), rfl⟩
  · simp only [mine, if_false]
    rw [inv.online user old before]
    simp only [entries, mine, and_false, not_false_eq_true, and_true]

include plain

theorem logout_inv : Inv ⟨after, Function.update clients conn new⟩ := by
  have rows := logout_rows shared after server id loggedOut
  have entries := logout_mapped shared after server id loggedOut
  constructor
  case positive => exact fun other registered => inv.positive other ((rows other).mp registered)
  case entry => exact logout_entry shared after clients server conn id new inv owner loggedOut
  case session =>
    exact logout_session shared after clients server conn id new inv owner plain loggedOut
  case single =>
    intro user registered other another receiver second mapped twice
    rw [rows] at registered
    exact inv.single user registered other another receiver second
      ((entries other user receiver).mp mapped).1
      ((entries another user second).mp twice).1
  case online => exact logout_online shared after clients server conn id inv owner loggedOut
  case heard =>
    intro user registered other
    rw [rows] at registered
    rw [loggedOut.subscribed, inv.heard user registered other, ne_eq, Prod.mk.injEq]
    simp only [entries, exists_and_right]
  case known =>
    intro other user receiver open_
    rw [rows]
    exact inv.known other user receiver
      (logout_opened clients conn new plain receiver other user open_).2
  case channel =>
    intro other user heard_
    rw [rows]
    exact inv.channel other user ((loggedOut.subscribed (other, user)).mp heard_).1

end Logout

omit [DecidableEq S] [DecidableEq C] in
/-- Leaving the channel of User()'s id is not noticed by any registered user. -/
theorem unheard_inv (shared after : Shared S C) (clients : C → Option (S × Option Int)) (server : S)
    (inv : Inv ⟨shared, clients⟩) (user : after.user = shared.user)
    (maps : after.userConnMap = shared.userConnMap)
    (subscribed : ∀ entry, entry ∈ after.subscribed ↔ entry ∈ shared.subscribed ∧
      entry ≠ (server, -1)) :
    Inv ⟨after, clients⟩ := by
  obtain ⟨positive, entry, session, single, online, heard, known, channel⟩ := inv
  simp only [Mapped] at entry session single online heard
  constructor <;> simp only [Mapped, user, maps]
  · exact positive
  · exact entry
  · exact session
  · exact single
  · exact online
  · intro id registered other
    have natural := positive id registered
    have away : (other, id) ≠ (server, -1) := by
      rintro ⟨⟩
      omega
    rw [subscribed, and_iff_left away]
    exact heard id registered other
  · exact known
  · intro other id heard_
    exact channel other id ((subscribed (other, id)).mp heard_).1

/-- One request, whatever it is. -/
theorem handle_inv (shared after : Shared S C) (clients : C → Option (S × Option Int))
    (job : Job S C)
    (inv : Inv ⟨shared, clients⟩) (behaves : Behaves clients job)
    (ran : Runs perform (program job) shared () after) :
    Inv ⟨after, learn clients after.replies job⟩ := by
  cases job with
  | login server conn id pwd =>
      simp only [Behaves] at behaves
      rcases login_runs server conn id pwd shared after ran with ⟨accepted, loggedIn⟩ |
          ⟨same, refused⟩
      · simp only [learn, loggedIn.answer]
        exact login_inv shared after clients server conn id pwd inv behaves accepted loggedIn
      · simp only [learn, refused, ← behaves, Function.update_eq_self]
        exact inv_view shared after clients inv same
  | reg server conn name pwd =>
      obtain ⟨maps, subscribed, user | ⟨id, row, positive, fresh, offline, user⟩⟩ :=
        reg_runs conn name pwd shared after ran
      · exact inv_view shared after clients inv ⟨user, maps, subscribed⟩
      · exact reg_inv shared after clients id row inv positive fresh offline maps subscribed user
  | loginout server conn userid =>
      exact logout_inv shared after clients server conn userid (some (server, none)) inv behaves
        (by simp)
        (loginout_runs server userid shared after ran)
  | clientCloseException server conn =>
      have absent : shared.user.lookup (-1) = none := by
        rw [AList.lookup_eq_none]
        intro registered
        have natural := inv.positive (-1) registered
        omega
      rcases close_runs server conn shared after absent ran with ⟨id, mapped, loggedOut⟩ |
          ⟨unmapped, user, maps, left_⟩
      · exact logout_inv shared after clients server conn id none inv
          (inv.entry server id conn mapped) (by simp) loggedOut
      · have nowhere : ∀ other id, ¬ Mapped shared other id conn := by
          intro other id mapped
          have open_ : clients conn = some (other, some id) := inv.entry other id conn mapped
          simp only [Behaves, open_, Option.map_some, Option.some.injEq] at behaves
          subst behaves
          exact unmapped id mapped
        exact unheard_inv shared after _ server
          (client_inv ⟨shared, clients⟩ conn none inv nowhere (by simp)) user maps
          left_
  | _ =>
      exact inv_view shared after clients inv
        (runs_view _ shared after () (foreign_keeps _ rfl) ran)

theorem step_inv (cluster after : Cluster S C) (event : Event S C) (inv : Inv cluster)
    (stepped : step cluster event = some after) : Inv after := by
  cases event with
  | connect server conn =>
      simp only [step] at stepped
      split at stepped
      · rename_i closed
        cases stepped
        refine client_inv cluster conn (some (server, none)) inv (fun other id mapped => ?_)
          (by simp)
        have open_ := inv.entry other id conn mapped
        simp [closed] at open_
      · cases stepped
  | handle job choices =>
      simp only [step] at stepped
      split at stepped
      · rename_i behaves
        simp only [Option.bind_eq_some_iff, Option.map_eq_some_iff] at stepped
        obtain ⟨launched, begun, ⟨_, shared⟩, ran, rfl⟩ := stepped
        obtain ⟨relay, rfl⟩ := launch_frame job cluster.shared launched begun
        exact handle_inv { cluster.shared with relay := relay } shared cluster.clients job
          (inv_view cluster.shared _ cluster.clients inv ⟨rfl, rfl, rfl⟩) behaves ⟨choices, ran⟩
      · cases stepped

theorem run_inv (first last : Cluster S C) (trace : List (Event S C)) (inv : Inv first)
    (ran : Transition.run step first trace = some last) : Inv last :=
  Transition.run_always step Inv
    (fun before event after kept stepped =>
      step_inv before after event kept stepped) first last trace inv ran

/-- All users offline, no connection and nothing subscribed. -/
structure Begins (cluster : Cluster S C) : Prop where
  positive : ∀ id ∈ cluster.shared.user, 0 < id
  offline : ∀ id row, cluster.shared.user.lookup id = some row → row.state = .offline
  closed : ∀ conn, cluster.clients conn = none
  unmapped : ∀ server id, (cluster.shared.userConnMap server).lookup id = none
  silent : cluster.shared.subscribed = []

omit [DecidableEq S] [DecidableEq C] in
theorem begins_inv (cluster : Cluster S C) (begins : Begins cluster) : Inv cluster := by
  obtain ⟨positive, offline, closed, unmapped, silent⟩ := begins
  constructor
  case positive => exact positive
  case entry => simp [Mapped, unmapped]
  case session => simp [closed]
  case single => simp [Mapped, unmapped]
  case online =>
    intro id row found
    simp [Mapped, unmapped, offline id row found]
  case heard => simp [silent, Mapped, unmapped]
  case known => simp [closed]
  case channel => simp [silent]

/-- The three stores of one cluster agree on every registered user. -/
structure Agrees (cluster : Cluster S C) : Prop where
  online : ∀ id row, cluster.shared.user.lookup id = some row →
    (row.state = .online ↔ ∃! server, id ∈ cluster.shared.userConnMap server)
  subscribed : ∀ id ∈ cluster.shared.user, ∀ server,
    (server, id) ∈ cluster.shared.subscribed ↔ id ∈ cluster.shared.userConnMap server
  opened : ∀ server id conn, Mapped cluster.shared server id conn →
    ∃ session, cluster.clients conn = some (server, session)
  once : ∀ server other id user conn, Mapped cluster.shared server id conn →
    Mapped cluster.shared other user conn →
    server = other ∧ id = user

omit [DecidableEq S] [DecidableEq C] in
theorem inv_agrees (cluster : Cluster S C) (inv : Inv cluster) : Agrees cluster := by
  have present : ∀ server id, id ∈ cluster.shared.userConnMap server ↔
      ∃ conn, Mapped cluster.shared server id conn := by
    intro server id
    rw [← AList.lookup_isSome, Option.isSome_iff_exists]
    exact Iff.rfl
  constructor
  · intro id row found
    have registered : id ∈ cluster.shared.user := AList.lookup_isSome.mp (by simp [found])
    rw [inv.online id row found]
    simp only [present]
    constructor
    · rintro ⟨server, conn, mapped⟩
      refine ⟨server, ⟨conn, mapped⟩, ?_⟩
      rintro other ⟨receiver, twice⟩
      exact inv.single id registered other server receiver conn twice mapped
    · rintro ⟨server, ⟨conn, mapped⟩, _⟩
      exact ⟨server, conn, mapped⟩
  · intro id registered server
    rw [present]
    exact inv.heard id registered server
  · intro server id conn mapped
    exact ⟨some id, inv.entry server id conn mapped⟩
  · intro server other id user conn mapped twice
    have first := inv.entry server id conn mapped
    rw [inv.entry other user conn twice] at first
    simp only [Option.some.injEq, Prod.mk.injEq] at first
    exact ⟨first.1.symm, first.2.symm⟩

end Model

/-- Two servers, one user, no connection. -/
def cluster : Cluster Bool Nat where
  shared := (started oneUser []).shared
  clients := fun _ => none

theorem cluster_begins : Begins cluster := by
  refine ⟨?_, ?_, fun _ => rfl, fun _ _ => rfl, rfl⟩
  · intro id registered
    have one : id = 1 ∨ id ∈ (∅ : AList fun _ : Int => UserRow) :=
      (AList.mem_insert _).mp registered
    rcases one with rfl | none_
    · decide
    · simp at none_
  · intro id row found
    by_cases one : id = 1
    · subst one
      have same : some (⟨[97], [120], .offline⟩ : UserRow) = some row := found
      cases same
      rfl
    · have nothing : (AList.insert 1 ⟨[97], [120], .offline⟩ ∅ : AList
        fun _ : Int => UserRow).lookup id = none := by
        rw [AList.lookup_insert_ne one, AList.lookup_empty]
      have absent : some row = none := found.symm.trans nothing
      simp at absent

def idle (count : Nat) : List Int := List.replicate count 0

/-- A login, a refused one, a text over Redis, a close, and the login again elsewhere. -/
def twoClients : List (Event Bool Nat) :=
  [.connect true 7, .connect false 8, .handle (.login true 7 1 [120]) (idle 8),
    .handle (.login false 8 1 [120]) (idle 2), .handle (.oneChat false 8 1 [5]) (idle 5),
    .handle (.handlerRedisSubscribeMessage true 1 [5]) (idle 4), .handle
      (.clientCloseException true 7) [0, 1, 0, 0, 0, 0],
    .handle (.login false 8 1 [120]) (idle 8)]

end MuduoChat.Sessions
