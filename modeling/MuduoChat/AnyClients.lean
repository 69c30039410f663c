import MuduoChat.Sessions

/-!
Clients that may send anything. Every handler takes the id it works on from the
message, so a connection may log in several users and name the users of other
connections. Only the order of one connection is fixed: it is opened on one server,
its messages arrive, and it is closed once.
-/

namespace MuduoChat.AnyClients
open Interleaving ChatService
open Sessions (Event Mapped SameView LoggedIn LoggedOut login_runs reg_runs loginout_runs close_runs runs_view
  foreign_keeps)

inductive Link (S : Type) where
  | fresh
  | opened (server : S)
  | closed
  deriving DecidableEq

structure Cluster (S C : Type) where
  shared : Shared S C
  link : C → Link S

section Model
variable {S C : Type} [DecidableEq S] [DecidableEq C]

/-- The connection a handler is called for; Redis calls one without a connection. -/
def origin : Job S C → Option (S × C)
  | .login server conn _ _ => some (server, conn)
  | .reg server conn _ _ => some (server, conn)
  | .loginout server conn _ => some (server, conn)
  | .oneChat server conn _ _ => some (server, conn)
  | .addFriend server conn _ _ => some (server, conn)
  | .creatGroup server conn _ _ _ => some (server, conn)
  | .addGroup server conn _ _ => some (server, conn)
  | .groupChat server conn _ _ _ => some (server, conn)
  | .clientCloseException server conn => some (server, conn)
  | .handlerRedisSubscribeMessage _ _ _ => none

def Arrives (link : C → Link S) (job : Job S C) : Prop :=
  ∀ place ∈ origin job, link place.2 = .opened place.1

instance (link : C → Link S) (job : Job S C) : Decidable (Arrives link job) :=
  inferInstanceAs (Decidable (∀ place ∈ origin job, link place.2 = .opened place.1))

def leave (link : C → Link S) : Job S C → C → Link S
  | .clientCloseException _ conn => Function.update link conn .closed
  | _ => link

def step (cluster : Cluster S C) : Event S C → Option (Cluster S C)
  | .connect server conn =>
      if cluster.link conn = .fresh then
        some { cluster with link := Function.update cluster.link conn (.opened server) }
      else none
  | .handle job choices =>
      if Arrives cluster.link job then
        (launch job cluster.shared).bind fun launched =>
          (runProg perform (program job) choices launched).map fun result =>
            { shared := result.2, link := leave cluster.link job }
      else none

/-- The database has positive ids only; nothing else is known about its rows. -/
structure Begins (cluster : Cluster S C) : Prop where
  positive : ∀ id ∈ cluster.shared.user, 0 < id
  unmapped : ∀ server id, (cluster.shared.userConnMap server).lookup id = none

/-- An entry outlives its connection where the close finds another one first. -/
structure Inv (cluster : Cluster S C) : Prop where
  positive : ∀ id ∈ cluster.shared.user, 0 < id
  entry : ∀ server id conn, Mapped cluster.shared server id conn →
    cluster.link conn = .opened server ∨ cluster.link conn = .closed
  known : ∀ server id conn, Mapped cluster.shared server id conn → id ∈ cluster.shared.user ∨
    id = -1

/-- A handler that runs sees the stores as they are. -/
theorem handled (cluster after : Cluster S C) (job : Job S C) (choices : List Int)
    (stepped : step cluster (.handle job choices) = some after) :
    Arrives cluster.link job ∧ after.link = leave cluster.link job ∧
      ∃ relay, Runs perform (program job) { cluster.shared with relay := relay } () after.shared :=
        by
  simp only [step] at stepped
  split at stepped
  · rename_i arrives
    simp only [Option.bind_eq_some_iff, Option.map_eq_some_iff] at stepped
    obtain ⟨launched, begun, ⟨_, shared⟩, ran, rfl⟩ := stepped
    obtain ⟨relay, rfl⟩ := launch_frame job cluster.shared launched begun
    exact ⟨arrives, rfl, relay, choices, ran⟩
  · cases stepped

omit [DecidableEq S] [DecidableEq C] in
theorem no_row (cluster : Cluster S C) (positive : ∀ id ∈ cluster.shared.user, 0 < id) :
    cluster.shared.user.lookup (-1) = none := by
  rw [AList.lookup_eq_none]
  intro registered
  have natural := positive (-1) registered
  omega

/-! What one handler can add to the tables and to the maps. -/

/-- New rows get positive ids, and a new entry comes from an accepted login. -/
structure Grows (job : Job S C) (shared after : Shared S C) : Prop where
  rows : ∀ id ∈ after.user, id ∈ shared.user ∨ 0 < id
  kept : ∀ id ∈ shared.user, id ∈ after.user
  entries : ∀ server id conn, Mapped after server id conn → Mapped shared server id conn ∨
    ∃ pwd, job = .login server conn id pwd ∧ accepts id pwd (findUser shared id)

omit [DecidableEq S] [DecidableEq C] in
theorem view_grows (job : Job S C) (shared after : Shared S C) (same : SameView shared after) :
    Grows job shared after := by
  obtain ⟨user, maps, _⟩ := same
  refine ⟨?_, ?_, ?_⟩
  · rw [user]
    exact fun id registered => Or.inl registered
  · rw [user]
    exact fun id registered => registered
  · intro server id conn mapped
    rw [Mapped, maps] at mapped
    exact Or.inl mapped

omit [DecidableEq S] [DecidableEq C] in
theorem accepted_known (shared : Shared S C) (id : Int) (pwd : Text)
    (accepted : accepts id pwd (findUser shared id)) : id ∈ shared.user ∨ id = -1 := by
  cases found : shared.user.lookup id with
  | some row => exact Or.inl (AList.lookup_isSome.mp (by simp [found]))
  | none =>
      have default : (findUser shared id).id = -1 := by simp [findUser, found]
      exact Or.inr (accepted.1.symm.trans default)

omit [DecidableEq C] in
theorem loggedOut_grows (job : Job S C) (server : S) (id : Int) (shared after : Shared S C)
    (loggedOut : LoggedOut server id shared after) : Grows job shared after := by
  obtain ⟨user, maps, _⟩ := loggedOut
  refine ⟨?_, ?_, ?_⟩
  · intro other registered
    rw [user, Sessions.stored_member] at registered
    exact Or.inl registered
  · intro other registered
    rw [user, Sessions.stored_member]
    exact registered
  · intro other user_ conn mapped
    rw [Mapped, maps] at mapped
    split at mapped
    · cases mapped
    · exact Or.inl mapped

theorem handler_grows (job : Job S C) (shared after : Shared S C)
    (absent : shared.user.lookup (-1) = none)
    (ran : Runs perform (program job) shared () after) : Grows job shared after := by
  cases job with
  | login server conn id pwd =>
      rcases login_runs server conn id pwd shared after ran with ⟨accepted, loggedIn⟩ | ⟨same, _⟩
      · refine ⟨?_, ?_, ?_⟩
        · intro other registered
          rw [loggedIn.user, Sessions.stored_member] at registered
          exact Or.inl registered
        · intro other registered
          rw [loggedIn.user, Sessions.stored_member]
          exact registered
        · intro other user receiver mapped
          rw [Mapped, loggedIn.maps, Sessions.inserted_lookup] at mapped
          rcases mapped with before | ⟨rfl, rfl, rfl, _⟩
          · exact Or.inl before
          · exact Or.inr ⟨pwd, rfl, accepted⟩
      · exact view_grows _ shared after same
  | reg server conn name pwd =>
      obtain ⟨maps, subscribed, user | ⟨id, row, positive, fresh, _, user⟩⟩ :=
        reg_runs conn name pwd shared after ran
      · exact view_grows _ shared after ⟨user, maps, subscribed⟩
      · refine ⟨?_, ?_, ?_⟩
        · intro other registered
          rw [user, AList.mem_insert] at registered
          rcases registered with rfl | before
          · exact Or.inr positive
          · exact Or.inl before
        · intro other registered
          rw [user, AList.mem_insert]
          exact Or.inr registered
        · intro other user_ receiver mapped
          rw [Mapped, maps] at mapped
          exact Or.inl mapped
  | loginout server conn userid =>
      exact loggedOut_grows _ server userid shared after
        (loginout_runs server userid shared after ran)
  | clientCloseException server conn =>
      rcases close_runs server conn shared after absent ran with ⟨id, _, loggedOut⟩ |
          ⟨_, user, maps, _⟩
      · exact loggedOut_grows _ server id shared after loggedOut
      · refine ⟨?_, ?_, ?_⟩
        · rw [user]
          exact fun id registered => Or.inl registered
        · rw [user]
          exact fun id registered => registered
        · intro other id receiver mapped
          rw [Mapped, maps] at mapped
          exact Or.inl mapped
  | _ => exact view_grows _ shared after (runs_view _ shared after () (foreign_keeps _ rfl) ran)

theorem step_inv (cluster after : Cluster S C) (event : Event S C) (inv : Inv cluster)
    (stepped : step cluster event = some after) : Inv after := by
  obtain ⟨positive, entry, known⟩ := inv
  cases event with
  | connect server conn =>
      simp only [step] at stepped
      split at stepped
      · rename_i fresh
        cases stepped
        refine ⟨positive, fun other id receiver mapped => ?_, known⟩
        -- a fresh connection is in no map yet
        have away : receiver ≠ conn := by
          rintro rfl
          have linked := entry other id receiver mapped
          simp [fresh] at linked
        simpa only [Function.update_of_ne away] using entry other id receiver mapped
      · cases stepped
  | handle job choices =>
      obtain ⟨arrives, links, relay, ran⟩ := handled cluster after job choices stepped
      obtain ⟨rows, kept, entries⟩ :=
        handler_grows job { cluster.shared with relay := relay } after.shared
        (no_row cluster positive) ran
      refine ⟨?_, ?_, ?_⟩
      · intro id registered
        rcases rows id registered with before | new
        · exact positive id before
        · exact new
      · intro server id conn mapped
        rw [links]
        rcases entries server id conn mapped with before | ⟨pwd, rfl, _⟩
        · have linked := entry server id conn before
          cases job with
          | clientCloseException other closing =>
              by_cases here : conn = closing
              · subst here
                right
                simp [leave]
              · simpa only [leave, Function.update_of_ne here] using linked
          | _ => exact linked
        · exact Or.inl (arrives (server, conn) rfl)
      · intro server id conn mapped
        have before : id ∈ cluster.shared.user ∨ id = -1 := by
          rcases entries server id conn mapped with old | ⟨pwd, _, accepted⟩
          · exact known server id conn old
          · exact accepted_known _ id pwd accepted
        exact before.imp_left (kept id)

theorem run_inv (first last : Cluster S C) (trace : List (Event S C)) (begins : Begins first)
    (ran : Transition.run step first trace = some last) : Inv last := by
  have start : Inv first := by
    refine ⟨begins.positive, fun server id conn mapped => ?_, fun server id conn mapped => ?_⟩ <;>
      simp [Mapped, begins.unmapped] at mapped
  exact Transition.run_always step Inv
    (fun before event after kept stepped =>
      step_inv before after event kept stepped) first last trace start ran

/-! The close. -/

theorem passOn_stores (id : Int) (text : Text) (shared after : Shared S C)
    (offline : (findUser shared id).state = .offline)
    (ran : Runs perform (passOn id text) shared () after) :
    after.offlinemessage = shared.offlinemessage ++ [(id, text)] := by
  simp only [passOn, queryUser, call_bind, runs_act, perform, Option.some.injEq,
    Prod.mk.injEq] at ran
  obtain ⟨_, user, _, ⟨rfl, rfl⟩, rest⟩ := ran
  simp only [offline, reduceCtorEq, if_false, call, runs_act, perform, Option.some.injEq,
    Prod.mk.injEq,
    true_and] at rest
  obtain ⟨_, _, _, rfl, finish⟩ := rest
  obtain ⟨_, rfl⟩ := (runs_done _ _ _ _ _).mp finish
  rfl

/-- One text to a user who is neither in the map nor online. -/
theorem oneChat_stores (server : S) (toid : Int) (text : Text) (shared after : Shared S C)
    (gone : (shared.userConnMap server).lookup toid = none)
    (offline : (findUser shared toid).state = .offline)
    (ran : Runs perform (oneChat server toid text) shared () after) :
    after.offlinemessage = shared.offlinemessage ++ [(toid, text)] := by
  simp only [oneChat, lock, unlock, find, call_bind, runs_act] at ran
  obtain ⟨_, _, held, locks, _, entry, looked, finds, rest⟩ := ran
  simp only [perform, Option.some.injEq, Prod.mk.injEq] at finds
  obtain ⟨rfl, rfl⟩ := finds
  simp only [perform] at locks
  split at locks
  · cases locks
  · cases locks
    simp only [gone, runs_act] at rest
    obtain ⟨_, _, freed, unlocks, rest⟩ := rest
    simp only [perform, Option.some.injEq, Prod.mk.injEq, true_and] at unlocks
    subst unlocks
    have stored := passOn_stores toid text _ after (by exact offline) rest
    exact stored

/-- What a close owes to the users of the connection. -/
structure Cleared (server : S) (conn : C) (shared after : Shared S C) : Prop where
  unmapped : ∀ other id, ¬ Mapped after other id conn
  offline : ∀ id, Mapped shared server id conn → (findUser after id).state = .offline
  unsubscribed : ∀ id, Mapped shared server id conn → (server, id) ∉ after.subscribed
  again : ∀ id row, Mapped shared server id conn → after.user.lookup id = some row →
    accepts id row.password (findUser after id)
  stores : ∀ id text later, Mapped shared server id conn →
    Runs perform (oneChat server id text) after () later →
    later.offlinemessage = after.offlinemessage ++ [(id, text)]

def AtMostOne (shared : Shared S C) (server : S) (conn : C) : Prop :=
  ∀ id other, Mapped shared server id conn → Mapped shared server other conn → id = other

theorem logout_cleared (server : S) (conn : C) (id : Int) (shared after : Shared S C)
    (own : ∀ other user, Mapped shared other user conn → other = server)
    (one : AtMostOne shared server conn)
    (mapped : Mapped shared server id conn) (loggedOut : LoggedOut server id shared after) :
    Cleared server conn shared after := by
  obtain ⟨user, maps, subscribed⟩ := loggedOut
  have offline : (findUser after id).state = .offline := by
    simp only [findUser, user, setUserState_lookup]
    cases shared.user.lookup id with
    | none => rfl
    | some row => simp
  refine ⟨?_, ?_, ?_, ?_, ?_⟩
  · intro other another still
    rw [Mapped, maps] at still
    split at still
    · cases still
    · rename_i stays
      obtain rfl := own other another still
      exact stays ⟨rfl, one another id still mapped⟩
  · intro another before
    rw [one another id before mapped]
    exact offline
  · intro another before heard
    rw [one another id before mapped, subscribed] at heard
    exact heard.2 rfl
  · intro another row before found
    obtain rfl := one another id before mapped
    have state : row.state = .offline := by simpa only [findUser, found] using offline
    simp [accepts, findUser, found, state]
  · intro another text later before ran
    obtain rfl := one another id before mapped
    apply oneChat_stores server another text after later
    · rw [maps]
      simp
    · exact offline
    · exact ran

end Model

/-! Two servers and two users. -/

def twoUsers : AList fun _ : Int => UserRow := AList.insert 2 ⟨[98], [121], .offline⟩ oneUser

def cluster : Cluster Bool Nat where
  shared := (started twoUsers []).shared
  link := fun _ => .fresh

theorem cluster_begins : Begins cluster := by
  refine ⟨fun id registered => ?_, fun _ _ => rfl⟩
  have listed : id = 2 ∨ id = 1 := by
    rcases (AList.mem_insert _).mp registered with two | rest
    · exact Or.inl two
    · rcases (AList.mem_insert _).mp rest with one | nothing
      · exact Or.inr one
      · simp at nothing
  omega

open Sessions (idle)

def loginOf (server : Bool) (conn : Nat) (id : Int) (letter : UInt8) : Event Bool Nat :=
  .handle (.login server conn id [letter]) (idle 8)

def closeOf (conn : Nat) (first : Int) : Event Bool Nat :=
    .handle (.clientCloseException true conn) [0, first, 0, 0, 0, 0]

section Closes
variable {S C : Type} [DecidableEq S] [DecidableEq C]

/-- A close erases the first entry of its connection and stops the search there. -/
theorem close_clears (first last after : Cluster S C) (trace : List (Event S C)) (server : S)
    (conn : C)
    (choices : List Int) (begins : Begins first) (ran : Transition.run step first trace = some last)
    (closed : step last (.handle (.clientCloseException server conn) choices) = some after) :
    Cleared server conn last.shared after.shared ↔ AtMostOne last.shared server conn := by
  have inv := run_inv first last trace begins ran
  obtain ⟨arrives, _, relay, closes⟩ := handled last after _ choices closed
  have open_ : last.link conn = .opened server := arrives (server, conn) rfl
  -- the entries of an open connection are on its own server
  have own : ∀ other id, Mapped last.shared other id conn → other = server := by
    intro other id mapped
    have linked := inv.entry other id conn mapped
    simp only [open_, Link.opened.injEq, reduceCtorEq, or_false] at linked
    exact linked.symm
  have effect := close_runs server conn { last.shared with relay := relay } after.shared
    (no_row last inv.positive) closes
  constructor
  · intro cleared id other mapped second
    rcases effect with ⟨gone, _, loggedOut⟩ | ⟨nobody, _⟩
    · have erased : ∀ user, Mapped last.shared server user conn → user = gone := by
        intro user before
        by_contra stays
        apply cleared.unmapped server user
        rw [Mapped, loggedOut.maps, if_neg]
        · exact before
        · rintro ⟨_, same⟩
          exact stays same
      rw [erased id mapped, erased other second]
    · exact absurd mapped (nobody id)
  · intro one
    rcases effect with ⟨gone, mapped, loggedOut⟩ | ⟨nobody, user, maps, _⟩
    · obtain ⟨rows, entries, channels⟩ := loggedOut
      exact logout_cleared server conn gone last.shared after.shared own one mapped
        ⟨rows, entries, channels⟩
    · have none_ : ∀ id, ¬ Mapped last.shared server id conn := nobody
      refine ⟨?_, ?_, ?_, ?_, ?_⟩
      · intro other id still
        rw [Mapped, maps] at still
        obtain rfl := own other id still
        exact none_ id still
      · exact fun id mapped => absurd mapped (none_ id)
      · exact fun id mapped => absurd mapped (none_ id)
      · exact fun id row mapped => absurd mapped (none_ id)
      · exact fun id text later mapped => absurd mapped (none_ id)

end Closes

theorem close_clears_one : ∃ last after,
    Transition.run step cluster [.connect true 7, loginOf true 7 1 120] = some last ∧
    step last (closeOf 7 1) = some after ∧ Mapped last.shared true 1 7 ∧
      Cleared true 7 last.shared after.shared := by
  have reached : ((Transition.run step cluster [.connect true 7, loginOf true 7 1 120]).bind
      fun last =>
      (step last (closeOf 7 1)).map fun _ =>
        decide ((last.shared.userConnMap true).entries = [⟨1, 7⟩])) = some true := by
    decide +kernel
  obtain ⟨last, ran, closes⟩ := Option.bind_eq_some_iff.mp reached
  obtain ⟨after, stepped, state⟩ := Option.map_eq_some_iff.mp closes
  have entries := of_decide_eq_true state
  have only : ∀ id, Mapped last.shared true id 7 ↔ id = 1 := by
    intro id
    rw [Mapped, ← Option.mem_def, AList.mem_lookup_iff, entries]
    simp
  refine ⟨last, after, ran, stepped, (only 1).mpr rfl, ?_⟩
  refine (close_clears cluster last after _ true 7 _ cluster_begins ran stepped).mpr
    fun id other mapped second => ?_
  rw [(only id).mp mapped, (only other).mp second]

/-- Two users log in on one connection; the close takes the entry of the first, and the
second stays in the map, online. -/
theorem second_login_survives : ∃ last after,
    Transition.run step cluster [.connect true 7, loginOf true 7 1 120, loginOf true 7 2 121] =
      some last ∧
      step last (closeOf 7 1) = some after ∧ Mapped after.shared true 2 7 ∧
      (findUser after.shared 2).state = .online ∧ ¬ Cleared true 7 last.shared after.shared := by
  have reached : ((Transition.run step cluster [.connect true 7, loginOf true 7 1 120,
      loginOf true 7 2 121]).bind
      fun last => (step last (closeOf 7 1)).map fun after =>
        decide ((after.shared.userConnMap true).lookup 2 = some 7 ∧
        (findUser after.shared 2).state = .online)) = some true := by
    decide +kernel
  obtain ⟨last, ran, closes⟩ := Option.bind_eq_some_iff.mp reached
  obtain ⟨after, stepped, state⟩ := Option.map_eq_some_iff.mp closes
  obtain ⟨mapped, online⟩ := of_decide_eq_true state
  exact ⟨last, after, ran, stepped, mapped, online, fun cleared => cleared.unmapped true 2 mapped⟩

section Messages
variable {S C : Type} [DecidableEq S] [DecidableEq C]

/-! The messages of other connections. -/

/-- What arrives from a client; a close and a report of Redis do not. -/
def message : Job S C → Bool
  | .clientCloseException _ _ => false
  | .handlerRedisSubscribeMessage _ _ _ => false
  | _ => true

def SameSession (id : Int) (shared after : Shared S C) : Prop :=
  (∀ server, (after.userConnMap server).lookup id = (shared.userConnMap server).lookup id) ∧
    (∀ server, (server, id) ∈ after.subscribed ↔ (server, id) ∈ shared.subscribed) ∧
    after.user.lookup id = shared.user.lookup id

omit [DecidableEq S] [DecidableEq C] in
theorem view_session (id : Int) (shared after : Shared S C) (same : SameView shared after) :
    SameSession id shared after := by
  obtain ⟨user, maps, subscribed⟩ := same
  exact ⟨fun server => by rw [maps], fun server => by rw [subscribed], by rw [user]⟩

omit [DecidableEq C] in
theorem login_session (server : S) (conn : C) (other id : Int) (shared after : Shared S C)
    (away : id ≠ other)
    (loggedIn : LoggedIn server conn other shared after) : SameSession id shared after := by
  refine ⟨fun place => ?_, fun place => ?_, ?_⟩
  · rw [loggedIn.maps]
    by_cases here : place = server
    · subst here
      rw [Function.update_self, insertNew_other _ _ _ _ away]
    · rw [Function.update_of_ne here]
  · simp [loggedIn.subscribed, away]
  · simp [loggedIn.user, setUserState_lookup, away]

omit [DecidableEq C] in
theorem loginout_session (server : S) (other id : Int) (shared after : Shared S C)
    (away : id ≠ other)
    (loggedOut : LoggedOut server other shared after) : SameSession id shared after := by
  refine ⟨fun place => ?_, fun place => ?_, ?_⟩
  · simp [loggedOut.maps, away]
  · simp [loggedOut.subscribed, away]
  · simp [loggedOut.user, setUserState_lookup, away]

end Messages

end MuduoChat.AnyClients
