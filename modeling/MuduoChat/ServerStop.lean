import MuduoChat.Sessions

/-!
Servers that are stopped and started again. SIGINT runs ChatService::reset and ends
the process: its map, its subscriptions and its connections are gone, and every row
that is 'online' becomes 'offline', whatever server its user is on.
-/

namespace MuduoChat.ServerStop
open Interleaving ChatService
open Sessions (Mapped Behaves learn answered stored_member idle)

structure Cluster (S C : Type) extends Sessions.Cluster S C where
  running : S → Bool

inductive Event (S C : Type) where
  | start (server : S)
  | stop (server : S)
  | client (event : Sessions.Event S C)

section Model
variable {S C : Type} [DecidableEq S] [DecidableEq C]

/-- update user set state = 'offline' where state = 'online' -/
def resetState (user : AList fun _ : Int => UserRow) : AList fun _ : Int => UserRow :=
  (user.keys.filter fun id => (user.lookup id).map (·.state) = some .online).foldl
    (fun table id => setUserState table id .offline) user

/-- The server an event needs. -/
def place : Sessions.Event S C → S
  | .connect server _ => server
  | .handle (.login server _ _ _) _ => server
  | .handle (.reg server _ _ _) _ => server
  | .handle (.loginout server _ _) _ => server
  | .handle (.oneChat server _ _ _) _ => server
  | .handle (.addFriend server _ _ _) _ => server
  | .handle (.creatGroup server _ _ _ _) _ => server
  | .handle (.addGroup server _ _ _) _ => server
  | .handle (.groupChat server _ _ _ _) _ => server
  | .handle (.clientCloseException server _) _ => server
  | .handle (.handlerRedisSubscribeMessage server _ _) _ => server

def resetHandler (cluster : Cluster S C) (server : S) : Cluster S C where
  shared :=
    { cluster.shared with
      user := resetState cluster.shared.user
      userConnMap := Function.update cluster.shared.userConnMap server ∅
      connMutex := Function.update cluster.shared.connMutex server false
      subscribed := cluster.shared.subscribed.filter fun entry => entry.1 ≠ server
      relay := cluster.shared.relay.filter fun entry => entry.1 ≠ server }
  clients conn := if (cluster.clients conn).map (·.1) = some server then none
    else cluster.clients conn
  running := Function.update cluster.running server false

def step (cluster : Cluster S C) : Event S C → Option (Cluster S C)
  | .start server =>
      if cluster.running server then none
      else some { cluster with running := Function.update cluster.running server true }
  | .stop server => if cluster.running server then some (resetHandler cluster server) else none
  | .client event =>
      if cluster.running (place event) then
        (Sessions.step cluster.toCluster event).map fun next =>
          { next with running := cluster.running }
      else none

/-! The rows after a reset. -/

theorem offline_lookup (ids : List Int) (user : AList fun _ : Int => UserRow) (id : Int) :
    (ids.foldl (fun table id => setUserState table id .offline) user).lookup id =
      (user.lookup id).map fun row => if id ∈ ids then { row with state := .offline } else row := by
  induction ids generalizing user with
  | nil => simp
  | cons other rest ih =>
      rw [List.foldl_cons, ih, setUserState_lookup]
      cases user.lookup id with
      | none => rfl
      | some row =>
          by_cases here : id = other
          · subst here
            simp
          · simp [here]

theorem resetState_lookup (user : AList fun _ : Int => UserRow) (id : Int) :
    (resetState user).lookup id = (user.lookup id).map fun row => { row with state := .offline } :=
    by
  rw [resetState, offline_lookup]
  cases found : user.lookup id with
  | none => rfl
  | some row =>
      have key : id ∈ user.keys := AList.lookup_isSome.mp (by simp [found])
      simp only [Option.map_some, List.mem_filter, key, true_and, found, decide_eq_true_eq,
        Option.some.injEq]
      split
      · rfl
      · rename_i offline
        have state : row.state = .offline := by
          cases here : row.state with
          | online => exact absurd here offline
          | offline => rfl
        rw [← state]

theorem resetState_member (user : AList fun _ : Int => UserRow) (id : Int) :
    id ∈ resetState user ↔ id ∈ user := by
  rw [← AList.lookup_isSome, ← AList.lookup_isSome, resetState_lookup, Option.isSome_map]

/-! What holds in the cluster. -/

/-- 'online' means: in the map of a server that runs. -/
def Truthful (cluster : Cluster S C) : Prop :=
  ∀ id row, cluster.shared.user.lookup id = some row →
    (row.state = .online ↔ ∃ server, cluster.running server = true ∧
      id ∈ cluster.shared.userConnMap server)

/-- No user is on another server when one is stopped. -/
def Alone (cluster : Cluster S C) : Event S C → Prop
  | .stop server => ∀ other, other ≠ server → cluster.running other = true →
      ∀ id ∈ cluster.shared.user.keys, id ∉ cluster.shared.userConnMap other
  | _ => True

/-- Sessions as before, each on a server that runs. -/
structure Inv (cluster : Cluster S C) : Prop where
  sessions : Sessions.Inv cluster.toCluster
  running : ∀ conn server session, cluster.clients conn = some (server, session) →
    cluster.running server = true

omit [DecidableEq S] [DecidableEq C] in
theorem mapped_some (shared : Shared S C) (server : S) (id : Int) :
    id ∈ shared.userConnMap server ↔ ∃ conn, Mapped shared server id conn := by
  rw [← AList.lookup_isSome, Option.isSome_iff_exists]
  exact Iff.rfl

omit [DecidableEq S] [DecidableEq C] in
theorem inv_truthful (cluster : Cluster S C) (inv : Inv cluster) : Truthful cluster := by
  intro id row found
  rw [inv.sessions.online id row found]
  simp only [mapped_some]
  constructor
  · rintro ⟨server, conn, mapped⟩
    exact ⟨server, inv.running conn server _ (inv.sessions.entry server id conn mapped), conn,
      mapped⟩
  · rintro ⟨server, _, conn, mapped⟩
    exact ⟨server, conn, mapped⟩

omit [DecidableEq C] in
theorem reset_mapped (cluster : Cluster S C) (server other : S) (id : Int) (conn : C) :
    Mapped (resetHandler cluster server).shared other id conn ↔
      other ≠ server ∧ Mapped cluster.shared other id conn := by
  by_cases here : other = server
  · subst here
    simp [Mapped, resetHandler]
  · simp [Mapped, resetHandler, here]

omit [DecidableEq C] in
theorem reset_clients (cluster : Cluster S C) (server other : S) (conn : C) (session : Option Int) :
    (resetHandler cluster server).clients conn = some (other, session) ↔
      other ≠ server ∧ cluster.clients conn = some (other, session) := by
  simp only [resetHandler]
  split
  · rename_i here
    obtain ⟨⟨_, held⟩, open_, rfl⟩ := Option.map_eq_some_iff.mp here
    simp only [open_, reduceCtorEq, Option.some.injEq, Prod.mk.injEq, false_iff, not_and]
    rintro away rfl _
    exact away rfl
  · rename_i away
    constructor
    · intro open_
      refine ⟨?_, open_⟩
      rintro rfl
      exact away (by simp [open_])
    · exact And.right

omit [DecidableEq C] in
/-- After a reset 'online' is right just where nobody is left on another server. -/
theorem reset_truthful (cluster : Cluster S C) (server : S) :
    Truthful (resetHandler cluster server) ↔ Alone cluster (.stop server) := by
  have offline : ∀ id row, (resetHandler cluster server).shared.user.lookup id = some row →
      row.state = .offline := by
    intro id row found
    have rows : (resetState cluster.shared.user).lookup id = some row := found
    rw [resetState_lookup] at rows
    obtain ⟨old, _, rfl⟩ := Option.map_eq_some_iff.mp rows
    rfl
  constructor
  · intro truthful other away runs id registered mapped
    obtain ⟨old, found⟩ := Option.isSome_iff_exists.mp (AList.lookup_isSome.mpr registered)
    have reset : (resetHandler cluster server).shared.user.lookup id =
        some { old with state := .offline } := by
      change (resetState cluster.shared.user).lookup id = _
      rw [resetState_lookup, found]
      rfl
    have online := (truthful id _ reset).mpr
    obtain ⟨conn, entry⟩ := (mapped_some cluster.shared other id).mp mapped
    have still : id ∈ (resetHandler cluster server).shared.userConnMap other :=
      (mapped_some _ other id).mpr ⟨conn,
        (reset_mapped cluster server other id conn).mpr ⟨away, entry⟩⟩
    have impossible := online ⟨other, by simp [resetHandler, away, runs], still⟩
    cases impossible
  · intro alone id row found
    rw [offline id row found]
    simp only [reduceCtorEq, false_iff]
    rintro ⟨other, runs, mapped⟩
    obtain ⟨conn, entry⟩ := (mapped_some _ other id).mp mapped
    obtain ⟨away, before⟩ := (reset_mapped cluster server other id conn).mp entry
    have registered : id ∈ resetState cluster.shared.user :=
      AList.lookup_isSome.mp (Option.isSome_of_eq_some found)
    simp only [resetHandler, Function.update_of_ne away] at runs
    exact alone other away runs id ((resetState_member cluster.shared.user id).mp registered)
      ((mapped_some cluster.shared other id).mpr ⟨conn, before⟩)

omit [DecidableEq S] in
/-- A request leaves the connections of all clients where they are, but for the close. -/
theorem learn_place (clients : C → Option (S × Option Int)) (replies : List (C × Ack))
    (job : Job S C)
    (behaves : Behaves clients job) (conn : C) (server : S) (session : Option Int)
    (open_ : learn clients replies job conn = some (server, session)) :
    ∃ before, clients conn = some (server, before) := by
  cases job with
  | login other sender id pwd =>
      by_cases here : conn = sender
      · subst here
        simp only [learn, Function.update_self, Option.some.injEq, Prod.mk.injEq] at open_
        exact ⟨none, open_.1 ▸ behaves⟩
      · simp only [learn, Function.update_of_ne here] at open_
        exact ⟨session, open_⟩
  | loginout other sender userid =>
      by_cases here : conn = sender
      · subst here
        simp only [learn, Function.update_self, Option.some.injEq, Prod.mk.injEq] at open_
        exact ⟨some userid, open_.1 ▸ behaves⟩
      · simp only [learn, Function.update_of_ne here] at open_
        exact ⟨session, open_⟩
  | clientCloseException other sender =>
      by_cases here : conn = sender
      · subst here
        simp [learn] at open_
      · simp only [learn, Function.update_of_ne here] at open_
        exact ⟨session, open_⟩
  | _ => exact ⟨session, open_⟩

theorem client_place (cluster after : Sessions.Cluster S C) (event : Sessions.Event S C)
    (stepped : Sessions.step cluster event = some after) (conn : C) (server : S)
    (session : Option Int)
    (open_ : after.clients conn = some (server, session)) :
    server = place event ∨ ∃ before, cluster.clients conn = some (server, before) := by
  cases event with
  | connect other fresh =>
      simp only [Sessions.step] at stepped
      split at stepped
      · cases stepped
        by_cases here : conn = fresh
        · subst here
          simp only [Function.update_self, Option.some.injEq, Prod.mk.injEq] at open_
          exact Or.inl open_.1.symm
        · simp only [Function.update_of_ne here] at open_
          exact Or.inr ⟨session, open_⟩
      · cases stepped
  | handle job choices =>
      simp only [Sessions.step] at stepped
      split at stepped
      · rename_i behaves
        simp only [Option.bind_eq_some_iff, Option.map_eq_some_iff] at stepped
        obtain ⟨launched, _, ⟨_, shared⟩, _, rfl⟩ := stepped
        exact Or.inr (learn_place cluster.clients shared.replies job behaves conn
          server session open_)
      · cases stepped

omit [DecidableEq C] in
theorem reset_inv (cluster : Cluster S C) (server : S) (inv : Inv cluster)
    (alone : Alone cluster (.stop server)) :
    Inv (resetHandler cluster server) := by
  obtain ⟨⟨positive, entry, session, single, online, heard, known, channel⟩, running⟩ := inv
  have named : ∀ id, id ∈ (resetHandler cluster server).shared.user ↔ id ∈ cluster.shared.user :=
    resetState_member cluster.shared.user
  refine ⟨?_, ?_⟩
  · constructor
    case positive =>
      intro id registered
      exact positive id ((named id).mp registered)
    case entry =>
      intro other id conn mapped
      obtain ⟨away, before⟩ := (reset_mapped cluster server other id conn).mp mapped
      exact (reset_clients cluster server other conn _).mpr ⟨away, entry other id conn before⟩
    case session =>
      intro other conn id registered open_
      obtain ⟨away, before⟩ := (reset_clients cluster server other conn _).mp open_
      exact (reset_mapped cluster server other id conn).mpr
        ⟨away, session other conn id ((named id).mp registered) before⟩
    case single =>
      intro id registered other another conn receiver mapped second
      exact single id ((named id).mp registered) other another conn receiver
        ((reset_mapped cluster server other id conn).mp mapped).2
        ((reset_mapped cluster server another id receiver).mp second).2
    case online =>
      -- nobody is on another server, and this one has an empty map
      intro id row found
      rw [(reset_truthful cluster server).mpr alone id row found]
      simp only [mapped_some]
      constructor
      · rintro ⟨other, _, conn, mapped⟩
        exact ⟨other, conn, mapped⟩
      · rintro ⟨other, conn, mapped⟩
        obtain ⟨away, before⟩ := (reset_mapped cluster server other id conn).mp mapped
        refine ⟨other, ?_, conn, mapped⟩
        simp only [resetHandler, Function.update_of_ne away]
        exact running conn other _ (entry other id conn before)
    case heard =>
      intro id registered other
      have channels := heard id ((named id).mp registered) other
      simp only [reset_mapped, exists_and_left, ← channels]
      simp [resetHandler, and_comm]
    case known =>
      intro other id conn open_
      rw [named]
      exact known other id conn ((reset_clients cluster server other conn _).mp open_).2
    case channel =>
      intro other id heard_
      rw [named]
      exact channel other id (List.mem_filter.mp heard_).1
  · intro conn other held open_
    obtain ⟨away, before⟩ := (reset_clients cluster server other conn held).mp open_
    simp only [resetHandler, Function.update_of_ne away]
    exact running conn other held before

theorem step_inv (cluster after : Cluster S C) (event : Event S C) (inv : Inv cluster)
    (alone : Alone cluster event)
    (stepped : step cluster event = some after) : Inv after := by
  cases event with
  | start server =>
      simp only [step] at stepped
      split at stepped
      · cases stepped
      · cases stepped
        refine ⟨inv.sessions, fun conn other session open_ => ?_⟩
        by_cases here : other = server
        · subst here
          simp
        · simp only [Function.update_of_ne here]
          exact inv.running conn other session open_
  | stop server =>
      simp only [step] at stepped
      split at stepped
      · cases stepped
        exact reset_inv cluster server inv alone
      · cases stepped
  | client event =>
      simp only [step] at stepped
      split at stepped
      · rename_i runs
        obtain ⟨next, moved, rfl⟩ := Option.map_eq_some_iff.mp stepped
        refine ⟨Sessions.step_inv cluster.toCluster next event inv.sessions moved,
          fun conn server session open_ => ?_⟩
        rcases client_place cluster.toCluster next event moved conn server session open_ with rfl |
            ⟨before, held⟩
        · exact runs
        · exact inv.running conn server before held
      · cases stepped

/-- resetState takes every user offline, not the users of its own server. -/
theorem stop_settles (first last : Cluster S C) (trace : List (Event S C))
    (begins : Sessions.Begins first.toCluster)
    (ran : Transition.run step first trace = some last) :
    (Transition.Guarded step Alone first trace → Truthful last) ∧
      ∀ server after, step last (.stop server) = some after →
        (Truthful after ↔ Alone last (.stop server)) := by
  constructor
  · intro guarded
    have start : Inv first := by
      refine ⟨Sessions.begins_inv first.toCluster begins, fun conn server session open_ => ?_⟩
      simp [begins.closed] at open_
    apply inv_truthful
    exact Transition.run_preserves step Alone Inv
      (fun before event after kept alone stepped =>
        step_inv before after event kept alone stepped) first last trace
      guarded start ran
  · intro server after stopped
    simp only [step] at stopped
    split at stopped
    · cases stopped
      exact reset_truthful last server
    · cases stopped

end Model

/-! Two servers that run, one user. -/

def cluster : Cluster Bool Nat where
  toCluster := Sessions.cluster
  running := fun _ => true

def onServer (server : Bool) (conn : Nat) : List (Event Bool Nat) :=
  [.client (.connect server conn), .client (.handle (.login server conn 1 [120]) (idle 8))]

instance (cluster : Cluster Bool Nat) (event : Event Bool Nat) : Decidable (Alone cluster event) :=
  match event with
  | .stop server => inferInstanceAs
      (Decidable (∀ other, other ≠ server → cluster.running other = true →
      ∀ id ∈ cluster.shared.user.keys, id ∉ cluster.shared.userConnMap other))
  | .start _ => isTrue trivial
  | .client _ => isTrue trivial

/-- The server of the user is stopped and started, and the user logs in there again. -/
theorem stop_settles_restart : ∃ last, Transition.run step cluster
      (onServer true 7 ++ [.stop true, .start true] ++ onServer true 8) = some last ∧
    (findUser last.shared 1).state = .online ∧ Truthful last := by
  have reached : (Transition.run step cluster
      (onServer true 7 ++ [.stop true, .start true] ++ onServer true 8)).map
      (fun last => decide ((findUser last.shared 1).state = .online)) = some true := by
    decide +kernel
  obtain ⟨last, ran, state⟩ := Option.map_eq_some_iff.mp reached
  refine ⟨last, ran, of_decide_eq_true state, ?_⟩
  apply (stop_settles cluster last _ Sessions.cluster_begins ran).1
  decide +kernel

/-- User 1 is on one server when the other one is stopped. -/
theorem stop_takes_all : ∃ last after, Transition.run step cluster (onServer true 7) = some last ∧
    step last (.stop false) = some after ∧ after.running true = true ∧
      1 ∈ after.shared.userConnMap true ∧
      (findUser after.shared 1).state = .offline ∧ ¬ Truthful after := by
  have reached : ((Transition.run step cluster (onServer true 7)).bind
      fun last => (step last (.stop false)).map
      fun after => decide (after.running true = true ∧ 1 ∈ after.shared.userConnMap true ∧
        (after.shared.user.lookup 1).map (·.state) = some .offline)) = some true := by
    decide +kernel
  obtain ⟨last, ran, stops⟩ := Option.bind_eq_some_iff.mp reached
  obtain ⟨after, stopped, state⟩ := Option.map_eq_some_iff.mp stops
  obtain ⟨runs, mapped, offline⟩ := of_decide_eq_true state
  obtain ⟨row, found, here⟩ := Option.map_eq_some_iff.mp offline
  refine ⟨last, after, ran, stopped, runs, mapped, by simp [findUser, found, here],
    fun truthful => ?_⟩
  have online := (truthful 1 row found).mpr ⟨true, runs, mapped⟩
  rw [here] at online
  cases online

end MuduoChat.ServerStop
