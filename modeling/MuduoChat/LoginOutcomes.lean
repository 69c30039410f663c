import MuduoChat.Sessions

/-!
Handlers whose database and Redis operations may fail, each on its own. A model class
that cannot connect, or whose statement fails, changes nothing and gives back its
default; the handlers go on with that. login then has its effects one by one, and
UserModel::query gives back User() for a row that is missing and for one it could not
read.
-/

namespace MuduoChat.LoginOutcomes
open Interleaving ChatService
open Sessions (SameView keeps keeps_view idle)

section Model
variable {S C : Type} [DecidableEq S] [DecidableEq C]

/-- What a failed operation gives; the map, the mutex and the connections do not fail. -/
def failed : (op : Op S C) → Option (Res op)
  | .insertUser _ => some none
  | .queryUser _ => some {}
  | .updateState _ _ => some ()
  | .insertMsg _ _ => some ()
  | .removeMsgs _ => some ()
  | .queryMsgs _ => some []
  | .insertFriend _ _ => some ()
  | .queryFriends _ => some []
  | .createGroup _ _ => some none
  | .addGroup _ _ _ => some ()
  | .queryGroups _ => some []
  | .queryMembers _ => some []
  | .queryGroupUsers _ _ => some []
  | .publish _ _ => some ()
  | .subscribe _ _ => some ()
  | .unsubscribe _ _ => some ()
  | _ => none

/-- An operation that succeeds with a choice, or fails. -/
def attempt (choice : Option Int) (op : Op S C) (shared : Shared S C) : Option
    (Res op × Shared S C) :=
  match choice with
  | some chosen => perform chosen op shared
  | none => (failed op).map fun result => (result, shared)

/-- The operation of a handler that fails, by its place. -/
def FailsAt (choices : List (Option Int)) (place : Nat) : Prop := choices[place]? = some none

instance (choices : List (Option Int)) (place : Nat) : Decidable (FailsAt choices place) :=
  inferInstanceAs (Decidable (_ = _))

/-- The errno of the last answer. -/
def errnoOf (replies : List (C × Ack)) : Option Int :=
  match replies.getLast? with
  | some (_, .loggedIn _ _ _ _ _) => some 0
  | some (_, .loginFailed errno _) => some errno
  | some (_, .registered _) => some 0
  | some (_, .regFailed errno) => some errno
  | none => none

omit [DecidableEq S] [DecidableEq C] in
@[simp] theorem errnoOf_append (replies : List (C × Ack)) (conn : C) (ack : Ack) :
    errnoOf (replies ++ [(conn, ack)]) = errnoOf [(conn, ack)] := by
  simp [errnoOf]

omit [DecidableEq S] [DecidableEq C] in
theorem runProg_act {α : Type} (op : Op S C) (next : Res op → Task S C α)
    (choices : List (Option Int))
    (perform : Option Int → (op : Op S C) → Shared S C → Option (Res op × Shared S C))
    (shared : Shared S C)
    (last : α × Shared S C) : runProg perform (.act op next) choices shared = some last ↔
      ∃ choice rest result middle, choices = choice :: rest ∧
        perform choice op shared = some (result, middle) ∧
        runProg perform (next result) rest middle = some last := by
  constructor
  · intro ran
    cases choices with
    | nil => simp [runProg] at ran
    | cons choice rest =>
        simp only [runProg, Option.bind_eq_some_iff] at ran
        obtain ⟨⟨result, middle⟩, performed, tail⟩ := ran
        exact ⟨choice, rest, result, middle, rfl, performed, tail⟩
  · rintro ⟨choice, rest, result, middle, rfl, performed, tail⟩
    simp [runProg, performed, tail]

/-- No failure at all. -/
theorem runProg_attempt {α : Type} (program : Task S C α) (choices : List Int)
    (shared : Shared S C) :
    runProg attempt program (choices.map some) shared = runProg perform program choices shared := by
  induction program generalizing choices shared with
  | done value => cases choices <;> rfl
  | act op next ih =>
      cases choices with
      | nil => rfl
      | cons choice rest =>
          simp only [List.map_cons, runProg, attempt, ih]

/-! What login reads after its effects, and its answer. -/

def reads : Op S C → Bool
  | .queryMsgs _ => true
  | .removeMsgs _ => true
  | .queryFriends _ => true
  | .queryGroups _ => true
  | .queryMembers _ => true
  | _ => false

def reading : Monitor (Op S C) Res Unit where
  allowed _ op := reads op = true
  after _ _ _ := ()

omit [DecidableEq S] [DecidableEq C] in
theorem view_trans (first second third : Shared S C) (before : SameView first second)
    (after : SameView second third) :
    SameView first third :=
  ⟨after.1.trans before.1, after.2.1.trans before.2.1, after.2.2.trans before.2.2⟩

theorem attempt_reads (op : Op S C) (choice : Option Int) (shared after : Shared S C)
    (result : Res op)
    (reading : reads op = true) (done : attempt choice op shared = some (result, after)) :
    SameView shared after ∧ after.replies = shared.replies := by
  cases choice with
  | none =>
      obtain ⟨given, _, same⟩ := Option.map_eq_some_iff.mp done
      obtain ⟨_, rfl⟩ := Prod.mk.inj same
      exact ⟨⟨rfl, rfl, rfl⟩, rfl⟩
  | some chosen =>
      have kept : keeps op = true := by
        cases op <;> simp_all [reads, keeps]
      refine ⟨keeps_view op chosen shared after result kept done, ?_⟩
      cases op <;> grind [attempt, perform, reads]

theorem runs_reads {α : Type} (body : Task S C α) (shared after : Shared S C) (value : α)
    (follows : Follows reading body (fun _ _ => True) ())
    (ran : Runs attempt body shared value after) :
    SameView shared after ∧ after.replies = shared.replies := by
  obtain ⟨_, _, same⟩ := runs_follows attempt reading
    (fun middle _ => SameView shared middle ∧ middle.replies = shared.replies)
    (fun _ op choice middle result next allowed before performed => by
      obtain ⟨same, replies⟩ := attempt_reads op choice middle next result allowed performed
      exact ⟨view_trans _ _ _ before.1 same, replies.trans before.2⟩)
    body _ () shared after value follows ⟨⟨rfl, rfl, rfl⟩, rfl⟩ ran
  exact same

omit [DecidableEq S] [DecidableEq C] in
theorem offline_reads (id : Int) :
    Follows reading (takeOffline id : Task S C (List Text)) (fun _ _ => True) () := by
  simp only [takeOffline, call_bind, follows_act]
  refine ⟨rfl, fun vec => ?_⟩
  split
  · trivial
  · exact ⟨rfl, fun _ => trivial⟩

omit [DecidableEq S] [DecidableEq C] in
theorem members_reads (groups : List Group) :
    Follows reading (withMembers groups : Task S C (List Group)) (fun _ _ => True) () := by
  induction groups with
  | nil => trivial
  | cons group rest ih =>
      simp only [withMembers, call_bind, follows_act, follows_bind]
      exact ⟨rfl, fun users => follows_mono _ _ _ _ (fun _ _ _ => trivial) _ ih⟩

theorem reply_runs (conn : C) (ack : Ack) (shared after : Shared S C)
    (ran : Runs attempt (reply conn ack) shared () after) : SameView shared after ∧
      after.replies = shared.replies ++ [(conn, ack)] := by
  simp only [reply, call, runs_act] at ran
  obtain ⟨choice, _, _, performed, finish⟩ := ran
  obtain ⟨_, rfl⟩ := (runs_done _ _ _ _ _).mp finish
  cases choice with
  | none => cases performed
  | some chosen =>
      simp only [attempt, perform, Option.some.injEq, Prod.mk.injEq, true_and] at performed
      subst performed
      exact ⟨⟨rfl, rfl, rfl⟩, rfl⟩

/-- The end of an accepted login: its answer is errno 0, whatever failed. -/
theorem greeting_runs (conn : C) (id : Int) (user : User) (shared after : Shared S C)
    (ran : Runs attempt (do
      let vec ← takeOffline id
      let userVec ← call (Op.queryFriends id)
      let groups ← queryGroups id
      reply conn (.loggedIn user.id user.name vec userVec groups)) shared () after) :
    SameView shared after ∧ errnoOf after.replies = some 0 := by
  simp only [runs_bind] at ran
  obtain ⟨vec, second, first, friends, third, middle, groups, fourth, grouped, answers⟩ := ran
  have first_ := (runs_reads _ shared second vec (offline_reads id) first).1
  have second_ := (runs_reads (call (Op.queryFriends id)) second third friends
    ⟨rfl, fun _ => trivial⟩ middle).1
  have third_ := (runs_reads (queryGroups id) third fourth groups
    ⟨rfl, fun groups => members_reads groups⟩ grouped).1
  obtain ⟨fourth_, replies⟩ := reply_runs conn _ fourth after answers
  refine ⟨view_trans _ _ _ (view_trans _ _ _ first_ second_) (view_trans _ _ _ third_ fourth_), ?_⟩
  rw [replies, errnoOf_append]
  rfl

/-! login. -/

/-- What UserModel::query gives login. -/
def asked (shared : Shared S C) (choices : List (Option Int)) (id : Int) : User :=
  if FailsAt choices 0 then {} else findUser shared id

/-- The effects of an accepted login, with those that failed left out. -/
structure Entered (server : S) (conn : C) (id : Int) (choices : List (Option Int))
    (shared after : Shared S C) :
    Prop where
  maps : after.userConnMap = Function.update shared.userConnMap server
    (insertNew (shared.userConnMap server) id conn)
  subscribed : ∀ entry, entry ∈ after.subscribed ↔
    entry ∈ shared.subscribed ∨ entry = (server, id) ∧ ¬ FailsAt choices 2
  user : after.user = if FailsAt choices 3 then shared.user else setUserState shared.user id .online
  answer : errnoOf after.replies = some 0

structure Refused (shared after : Shared S C) : Prop where
  view : SameView shared after
  answer : ∃ errno, errno ≠ 0 ∧ errnoOf after.replies = some errno

theorem refused_runs (conn : C) (errno : Int) (errmsg : String) (nonzero : errno ≠ 0)
    (choices : List (Option Int))
    (shared after : Shared S C)
    (ran : runProg attempt (reply conn (.loginFailed errno errmsg)) choices shared = some ((),
      after)) :
    Refused shared after := by
  obtain ⟨same, replies⟩ := reply_runs conn _ shared after ⟨choices, ran⟩
  refine ⟨same, errno, nonzero, ?_⟩
  rw [replies, errnoOf_append]
  rfl

theorem entered_runs (server : S) (conn : C) (id : Int) (user : User) (same : user.id = id)
    (choice : Option Int) (choices : List (Option Int)) (shared after : Shared S C)
    (ran : runProg attempt (do
      call (Op.insertConn server id conn)
      call (Op.subscribe server id)
      updateState user.id .online
      let vec ← takeOffline id
      let userVec ← call (Op.queryFriends id)
      let groups ← queryGroups id
      reply conn (.loggedIn user.id user.name vec userVec groups)) choices shared =
        some ((), after)) :
    Entered server conn id (choice :: choices) shared after := by
  simp only [updateState, call_bind, runProg_act] at ran
  obtain ⟨inserts, _, _, mapped, rfl, inserted, subscribes, _, _, joined, rfl, heard, updates,
      rest, _, stored, rfl,
    written, tail⟩ := ran
  obtain ⟨⟨users, maps, channels⟩, answer⟩ := greeting_runs conn id user stored after ⟨rest, tail⟩
  -- the map is in memory: its insertion happens whatever the choice
  have entries : mapped = { shared with
      userConnMap := Function.update shared.userConnMap server
        (insertNew (shared.userConnMap server) id conn) } := by
    cases inserts with
    | none => cases inserted
    | some chosen =>
        simp only [attempt, perform, Option.some.injEq, Prod.mk.injEq, true_and] at inserted
        exact inserted.symm
  subst entries
  -- the subscription and the update each fail without effect or do all of theirs
  have joins : joined.user = shared.user ∧
      joined.userConnMap = Function.update shared.userConnMap server
      (insertNew (shared.userConnMap server) id conn) ∧
      ∀ entry, entry ∈ joined.subscribed ↔ entry ∈ shared.subscribed ∨ entry = (server, id) ∧
        subscribes ≠ none := by
    cases subscribes with
    | none =>
        cases heard
        exact ⟨rfl, rfl, fun entry => by simp⟩
    | some chosen =>
        have joins := subscribe_spec chosen server id _ _ _ heard
        simpa using joins
  have stores : stored.userConnMap = joined.userConnMap ∧ stored.subscribed = joined.subscribed ∧
      stored.user = if updates = none then joined.user
        else setUserState joined.user id .online := by
    cases updates with
    | none =>
        cases written
        exact ⟨rfl, rfl, rfl⟩
    | some chosen =>
        simp only [attempt, perform, Option.some.injEq, Prod.mk.injEq, true_and] at written
        subst written
        exact ⟨rfl, rfl, by rw [same]; rfl⟩
  refine ⟨?_, fun entry => ?_, ?_, answer⟩
  · rw [maps, stores.1, joins.2.1]
  · rw [channels, stores.2.1, joins.2.2]
    simp [FailsAt]
  · rw [users, stores.2.2, joins.1]
    simp [FailsAt]

theorem login_runs (server : S) (conn : C) (id : Int) (pwd : Text) (choices : List (Option Int))
    (shared after : Shared S C) (ran : runProg attempt
      (login server conn id pwd) choices shared = some ((), after)) :
    if accepts id pwd (asked shared choices id) then Entered server conn id choices shared after
    else Refused shared after := by
  simp only [login, queryUser, call_bind, runProg_act] at ran
  obtain ⟨queries, choices, user, middle, rfl, queried, tail⟩ := ran
  have answer : user = asked shared (queries :: choices) id ∧ middle = shared := by
    cases queries with
    | none =>
        cases queried
        exact ⟨rfl, rfl⟩
    | some chosen =>
        simp only [attempt, perform, Option.some.injEq, Prod.mk.injEq] at queried
        obtain ⟨rfl, rfl⟩ := queried
        exact ⟨rfl, rfl⟩
  obtain ⟨rfl, rfl⟩ := answer
  split at tail
  · rename_i known
    split at tail
    · rename_i online
      rw [if_neg fun accepted => accepted.2.2 online]
      exact refused_runs conn 2 _ (by decide) choices middle after tail
    · rename_i offline
      rw [if_pos ⟨known.1, known.2, offline⟩]
      exact entered_runs server conn id _ known.1 queries choices middle after tail
  · rename_i unknown
    rw [if_neg fun accepted => unknown ⟨accepted.1, accepted.2.1⟩]
    exact refused_runs conn 1 _ (by decide) choices middle after tail

end Model

/-! One server, user 1 with the password "x". -/

def tables : Shared Unit Nat := (started oneUser []).shared

def succeeding (count : Nat) : List (Option Int) := List.replicate count (some 0)

section Credentials
variable {S C : Type} [DecidableEq S] [DecidableEq C]

/-! Who can log in. -/

/-- The table has the row that the request names. -/
def Real (shared : Shared S C) (id : Int) (pwd : Text) : Prop :=
  ∃ row, shared.user.lookup id = some row ∧ row.password = pwd ∧ row.state ≠ .online

/-- login answers errno 0, or has an effect on the map, the channels or the table. -/
def Succeeds (shared after : Shared S C) : Prop := errnoOf after.replies = some 0 ∨
    ¬ SameView shared after

theorem succeeds_accepts (server : S) (conn : C) (id : Int) (pwd : Text)
    (choices : List (Option Int))
    (shared after : Shared S C) (ran : runProg attempt
      (login server conn id pwd) choices shared = some ((), after)) :
    Succeeds shared after ↔ accepts id pwd (asked shared choices id) := by
  have runs := login_runs server conn id pwd choices shared after ran
  split at runs
  · rename_i accepted
    exact iff_of_true (Or.inl runs.answer) accepted
  · rename_i refused
    refine iff_of_false ?_ refused
    obtain ⟨same, errno, nonzero, answer⟩ := runs
    rintro (success | changed)
    · rw [answer, Option.some.injEq] at success
      exact nonzero success
    · exact changed same

omit [DecidableEq S] [DecidableEq C] in
theorem default_accepts (id : Int) (pwd : Text) :
    accepts id pwd ({} : User) ↔ id = -1 ∧ pwd = [] := by
  simp only [accepts, ne_eq, reduceCtorEq, not_false_eq_true, and_true]
  exact and_congr eq_comm eq_comm

omit [DecidableEq S] [DecidableEq C] in
theorem row_accepts (shared : Shared S C) (id : Int) (pwd : Text) (row : UserRow)
    (found : shared.user.lookup id = some row) :
    accepts id pwd (findUser shared id) ↔ Real shared id pwd := by
  simp [accepts, findUser, Real, found]

/-- A success is one of a real account, but for User()'s id with the empty password
where no row is read. -/
theorem login_real (server : S) (conn : C) (id : Int) (pwd : Text) (choices : List (Option Int))
    (shared after : Shared S C) (ran : runProg attempt
      (login server conn id pwd) choices shared = some ((), after)) :
    (Succeeds shared after → Real shared id pwd) ↔
      id ≠ -1 ∨ pwd ≠ [] ∨ ∃ row, shared.user.lookup id = some row ∧
        (FailsAt choices 0 → row.password = [] ∧ row.state ≠ .online) := by
  rw [succeeds_accepts server conn id pwd choices shared after ran, asked]
  by_cases fails : FailsAt choices 0
  · rw [if_pos fails, default_accepts]
    simp only [fails, true_imp_iff]
    by_cases nobody : id = -1 ∧ pwd = []
    · obtain ⟨rfl, rfl⟩ := nobody
      simp [Real]
    · simp only [nobody, false_imp_iff, true_iff]
      by_cases other : id = -1
      · exact Or.inr (Or.inl fun empty => nobody ⟨other, empty⟩)
      · exact Or.inl other
  · rw [if_neg fails]
    simp only [fails, false_imp_iff, and_true]
    cases found : shared.user.lookup id with
    | some row => simp [row_accepts shared id pwd row found]
    | none =>
        have default : findUser shared id = {} := by simp [findUser, found]
        rw [default, default_accepts]
        simp only [Real, found, reduceCtorEq, false_and, exists_false, or_false, imp_false,
          not_and_or, ne_eq]

end Credentials

theorem login_real_user : ∃ after, runProg attempt (login () 7 1 [120])
    (succeeding 8) tables = some ((), after) ∧
    Succeeds tables after ∧ Real tables 1 [120] := by
  have reached : (runProg attempt (login () 7 1 [120]) (succeeding 8) tables).map (fun last =>
      decide (errnoOf last.2.replies = some 0)) = some true := by
    decide +kernel
  obtain ⟨⟨_, after⟩, ran, state⟩ := Option.map_eq_some_iff.mp reached
  have success : Succeeds tables after := Or.inl (of_decide_eq_true state)
  exact ⟨after, ran, success, (login_real () 7 1 [120] _ tables after ran).mpr
    (Or.inl (by decide)) success⟩

/-- LOGIN with the id -1 and an empty password, while every operation succeeds and
while none of the database does. -/
theorem login_unreal : ∃ after down, runProg attempt (login () 7 (-1) [])
    (succeeding 8) tables = some ((), after) ∧
    Succeeds tables after ∧
    runProg attempt (login () 7 (-1) []) [none, some 0, some 0, none, none, none, none,
      some 0] tables = some ((), down) ∧
    Succeeds tables down ∧ ¬ Real tables (-1) [] := by
  have reached : (runProg attempt (login () 7 (-1) []) (succeeding 8) tables).map (fun last =>
        decide (errnoOf last.2.replies = some 0)) = some true ∧
      (runProg attempt (login () 7 (-1) []) [none, some 0, some 0, none, none, none, none,
        some 0] tables).map
        (fun last => decide (errnoOf last.2.replies = some 0)) = some true ∧
          tables.user.lookup (-1) = none := by
    decide +kernel
  obtain ⟨up, broken, absent⟩ := reached
  obtain ⟨⟨_, after⟩, ran, state⟩ := Option.map_eq_some_iff.mp up
  obtain ⟨⟨_, down⟩, ranDown, stateDown⟩ := Option.map_eq_some_iff.mp broken
  refine ⟨after, down, ran, Or.inl (of_decide_eq_true state), ranDown,
    Or.inl (of_decide_eq_true stateDown), ?_⟩
  rintro ⟨row, found, _⟩
  rw [absent] at found
  cases found

section Effects
variable {S C : Type} [DecidableEq S] [DecidableEq C]

/-! All or nothing. -/

/-- errno 0 with the user mapped, subscribed and online, or an errno and no effect. The insert
into _userConnMap leaves an entry that is there: a user who is still mapped to another connection
is mapped. -/
def AllOrNothing (server : S) (id : Int) (shared after : Shared S C) : Prop :=
  (errnoOf after.replies = some 0 ∧ id ∈ after.userConnMap server ∧
    (server, id) ∈ after.subscribed ∧
      (findUser after id).state = .online) ∨
    ((∃ errno, errno ≠ 0 ∧ errnoOf after.replies = some errno) ∧ SameView shared after)

omit [DecidableEq S] [DecidableEq C] in
theorem online_row (shared : Shared S C) (id : Int) :
    (findUser shared id).state = .online ↔ ∃ row, shared.user.lookup id = some row ∧
    row.state = .online := by
  cases found : shared.user.lookup id <;> simp [findUser, found]

/-- The effects of an accepted login are all there when the user has a row and neither
the SUBSCRIBE nor the update fails, unless it was not needed. -/
theorem login_all (server : S) (conn : C) (id : Int) (pwd : Text) (choices : List (Option Int))
    (shared after : Shared S C) (ran : runProg attempt
      (login server conn id pwd) choices shared = some ((), after)) :
    AllOrNothing server id shared after ↔ (accepts id pwd (asked shared choices id) →
      ((server, id) ∈ shared.subscribed ∨ ¬ FailsAt choices 2) ∧
        ∃ row, shared.user.lookup id = some row ∧ (FailsAt choices 3 → row.state = .online)) := by
  have runs := login_runs server conn id pwd choices shared after ran
  split at runs
  · rename_i accepted
    obtain ⟨maps, subscribed, user, answer⟩ := runs
    have mapped : id ∈ after.userConnMap server := by
      rw [maps, Function.update_self, insertNew]
      split
      · assumption
      · exact (AList.mem_insert _).mpr (Or.inl rfl)
    have online : (findUser after id).state = .online ↔
        ∃ row, shared.user.lookup id = some row ∧ (FailsAt choices 3 → row.state = .online) := by
      rw [online_row, user]
      by_cases fails : FailsAt choices 3
      · simp [fails]
      · simp only [fails, if_false, setUserState_lookup, false_imp_iff, and_true]
        cases shared.user.lookup id <;> simp
    simp only [accepted, true_imp_iff, AllOrNothing, answer, mapped, subscribed, online, true_and]
    constructor
    · rintro (all | ⟨⟨errno, nonzero, same⟩, _⟩)
      · exact all
      · exact absurd (Option.some.inj same).symm nonzero
    · exact Or.inl
  · rename_i refused
    simp only [refused, false_imp_iff, iff_true]
    exact Or.inr ⟨runs.answer, runs.view⟩

end Effects

theorem login_all_user : ∃ after, runProg attempt (login () 7 1 [120])
    (succeeding 8) tables = some ((), after) ∧
    errnoOf after.replies = some 0 ∧ AllOrNothing () 1 tables after := by
  have reached : (runProg attempt (login () 7 1 [120]) (succeeding 8) tables).map (fun last =>
      decide (errnoOf last.2.replies = some 0)) = some true := by
    decide +kernel
  obtain ⟨⟨_, after⟩, ran, state⟩ := Option.map_eq_some_iff.mp reached
  refine ⟨after, ran, of_decide_eq_true state,
    (login_all () 7 1 [120] _ tables after ran).mpr fun _ => ?_⟩
  exact ⟨Or.inr (by decide), ⟨[97], [120], .offline⟩, by decide +kernel,
    fun fails => absurd fails (by decide)⟩

/-- The update of the state fails: the user is mapped and answered, and still offline. -/
theorem login_half : ∃ after, runProg attempt (login () 7 1 [120])
      [some 0, some 0, some 0, none, some 0, some 0, some 0, some 0] tables = some ((), after) ∧
    errnoOf after.replies = some 0 ∧ 1 ∈ after.userConnMap () ∧
      (findUser after 1).state = .offline ∧
      ¬ AllOrNothing () 1 tables after := by
  have reached : (runProg attempt (login () 7 1 [120])
      [some 0, some 0, some 0, none, some 0, some 0, some 0, some 0] tables).map (fun last =>
        decide (errnoOf last.2.replies = some 0 ∧ 1 ∈ last.2.userConnMap () ∧
          (findUser last.2 1).state = .offline)) =
      some true := by
    decide +kernel
  obtain ⟨⟨_, after⟩, ran, state⟩ := Option.map_eq_some_iff.mp reached
  obtain ⟨answer, mapped, offline⟩ := of_decide_eq_true state
  refine ⟨after, ran, answer, mapped, offline, ?_⟩
  rintro (⟨_, _, _, online⟩ | ⟨⟨errno, nonzero, same⟩, _⟩)
  · rw [offline] at online
    cases online
  · rw [answer, Option.some.injEq] at same
    exact nonzero same.symm

end MuduoChat.LoginOutcomes
