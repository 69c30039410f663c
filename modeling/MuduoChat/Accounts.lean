import MuduoChat.ChatService
import MuduoChat.StatementBuffers

/-!
The accounts, over every interleaving of any handlers of any number of servers: whom a REG reply
and a LOGIN reply are about, and that an account keeps its name and its password. What a handler
has come to know of the table is read off where it stands. The names and passwords are those that
MySQL reads in the statement as they are.
-/

namespace MuduoChat.Accounts
open ChatService Interleaving
open SqlText (ascii)

/-- `granted` has inserted a row, `known` has queried one. -/
inductive Mark where
  | idle
  | granted (id : Int)
  | known (user : User)
  deriving DecidableEq

def Mark.id? : Mark → Option Int
  | .granted id => some id
  | _ => none

section Model
variable {S C : Type}

def Owns (shared : Shared S C) (id : Int) (name pwd : Text) : Prop :=
  ∃ state, shared.user.lookup id = some ⟨name, pwd, state⟩

/-- What a handler may answer where it stands. -/
def takes (job : Job S C) (mark : Mark) : Op S C → Prop
  | .insertUser user => mark = .idle ∧ ∃ server conn, job = .reg server conn user.name user.password
  | .reply conn (.registered id) =>
      mark = .granted id ∧ ∃ server name pwd, job = .reg server conn name pwd
  | .reply conn (.loggedIn id name _ _ _) =>
      ∃ user server pwd, mark = .known user ∧ job = .login server conn id pwd ∧
        user.id = id ∧ user.name = name ∧ user.password = pwd
  | _ => mark.id? = none

def nextMark (mark : Mark) : (op : Op S C) → Res op → Mark
  | .insertUser _, some id => .granted id
  | .queryUser _, user => .known user
  | .reply _ _, _ => .idle
  | _, _ => mark

def monitor (job : Job S C) : Monitor (Op S C) Res Mark where
  allowed := takes job
  after := nextMark

/-- What the handler of a job knows of the table. -/
def Vouches (shared : Shared S C) (job : Job S C) : Mark → Prop
  | .idle => True
  | .granted id => ∀ server conn name pwd, job = .reg server conn name pwd → Owns shared id name pwd
  | .known user => user = {} ∨ Owns shared user.id user.name user.password

/-- What an answer says of the table and of the request it answers. User() has the id -1 and an
empty password. -/
def Due (shared : Shared S C) (jobs : List (Job S C)) : C × Ack → Prop
  | (conn, .registered id) => ∃ server name pwd, .reg server conn name pwd ∈ jobs ∧
      Owns shared id name pwd
  | (conn, .loggedIn id name _ _ _) =>
      ∃ server pwd, .login server conn id pwd ∈ jobs ∧
        (Owns shared id name pwd ∨ id = -1 ∧ name = [] ∧ pwd = [])
  | _ => True

def registered : C × Ack → Option Int
  | (_, .registered id) => some id
  | _ => none

/-- What MySQL reads in the statement of UserModel::insert is the row that `perform` adds. -/
def Inserts (name pwd : Text) : Prop :=
  SqlText.read (SqlStatements.insertUser { name := name, password := pwd }) =
    some ⟨ascii "user", [ascii "name", ascii "password", ascii "state"],
      [SqlStatements.userRow { name := name, password := pwd }]⟩

/-- No statement of the handler overruns its buffer, and a new name and password need no quoting.
A text that is too long for its column is an error of the INSERT. -/
structure Storable (job : Job S C) : Prop where
  fits : StatementBuffers.Every (program job)
  clean : ∀ server conn name pwd, job = .reg server conn name pwd → SqlStatements.Clean name ∧
    SqlStatements.Clean pwd

/-! The handlers. -/

theorem login_follows (server : S) (conn : C) (id : Int) (pwd : Text) :
    Follows (monitor (.login server conn id pwd)) (login server conn id pwd)
      (fun _ _ => True) .idle := by
  simp only [login, queryUser, reply, updateState, call_bind, follows_act]
  refine ⟨rfl, fun user => ?_⟩
  split
  · rename_i right
    split
    · exact ⟨rfl, fun _ => trivial⟩
    · refine ⟨rfl, fun _ => ⟨rfl, fun _ => ⟨rfl, fun _ => ?_⟩⟩⟩
      have offline := takeOffline_keep (monitor (.login server conn id pwd)) (.known user) id
        (fun _ => ⟨rfl, rfl⟩) fun _ => ⟨rfl, rfl⟩
      refine follows_seq _ _ _ _ _ _ offline fun vec => ?_
      simp only [queryGroups, call_bind, act_bind, follows_act]
      refine ⟨rfl, fun friends => ⟨rfl, fun groups => ?_⟩⟩
      refine follows_seq _ _ _ _ _ _ (withMembers_keep _ _ groups fun _ _ => ⟨rfl, rfl⟩) fun all =>
        ⟨?_, fun _ => trivial⟩
      exact ⟨user, server, pwd, rfl, by rw [right.1], rfl, rfl, right.2⟩
  · exact ⟨rfl, fun _ => trivial⟩

theorem passOn_follows (job : Job S C) (id : Int) (text : Text) (mark : Mark)
    (away : mark.id? = none) :
    Follows (monitor job) (passOn id text) (fun _ last => last.id? = none) mark := by
  simp only [passOn, queryUser, call_bind, follows_act]
  refine ⟨away, fun user => ?_⟩
  split <;> exact ⟨rfl, fun _ => rfl⟩

theorem chatAll_follows (job : Job S C) (server : S) (text : Text) (ids : List Int) (mark : Mark)
    (away : mark.id? = none) :
    Follows (monitor job) (chatAll server text ids) (fun _ _ => True) mark := by
  induction ids generalizing mark with
  | nil => trivial
  | cons id rest ih =>
      simp only [chatAll, find, call_bind, follows_act]
      refine ⟨away, fun entry => ?_⟩
      cases entry with
      | some conn => exact ⟨away, fun _ => ih mark away⟩
      | none =>
          simp only [follows_bind]
          exact follows_mono _ _ _ _ (fun _ last still => ih last still) _
            (passOn_follows job id text mark away)

theorem program_follows (job : Job S C) :
    Follows (monitor job) (program job) (fun _ _ => True) .idle := by
  cases job with
  | login server conn id pwd => exact login_follows server conn id pwd
  | reg server conn name pwd =>
      simp only [program, reg, reply, call_bind, follows_act]
      refine ⟨⟨rfl, server, conn, rfl⟩, fun inserted => ?_⟩
      cases inserted with
      | some id => exact ⟨⟨rfl, server, name, pwd, rfl⟩, fun _ => trivial⟩
      | none => exact ⟨rfl, fun _ => trivial⟩
  | loginout server conn userid =>
      simp only [program, loginout, lock, unlock, find, updateState, call_bind, follows_act]
      refine ⟨rfl, fun _ => ⟨rfl, fun entry => ?_⟩⟩
      split <;> simp [monitor, takes, nextMark, Mark.id?]
  | oneChat server conn toid text =>
      simp only [program, oneChat, lock, unlock, find, call_bind, follows_act]
      refine ⟨rfl, fun _ => ⟨rfl, fun entry => ?_⟩⟩
      cases entry with
      | some conn => exact ⟨rfl, fun _ => ⟨rfl, fun _ => trivial⟩⟩
      | none =>
          exact ⟨rfl, fun _ => follows_mono _ _ _ _ (fun _ _ _ => trivial) _
            (passOn_follows _ toid text .idle rfl)⟩
  | addFriend | addGroup => exact ⟨rfl, fun _ => trivial⟩
  | creatGroup server conn userid name desc =>
      simp only [program, creatGroup, call_bind, follows_act]
      refine ⟨rfl, fun created => ?_⟩
      cases created with
      | none => trivial
      | some groupid => exact ⟨rfl, fun _ => trivial⟩
  | groupChat server conn userid groupid text =>
      exact ⟨rfl, fun ids => chatAll_follows _ server text ids .idle rfl⟩
  | clientCloseException server conn =>
      simp only [program, clientCloseException, lock, unlock, updateState, call_bind, follows_act]
      refine ⟨rfl, fun _ => ⟨rfl, fun entry => ?_⟩⟩
      cases entry with
      | some id =>
          refine ⟨rfl, fun _ => ⟨rfl, fun _ => ⟨rfl, fun _ => ?_⟩⟩⟩
          split
          · exact ⟨rfl, fun _ => trivial⟩
          · trivial
      | none =>
          refine ⟨rfl, fun _ => ⟨rfl, fun _ => ?_⟩⟩
          split
          · exact ⟨rfl, fun _ => trivial⟩
          · trivial
  | handlerRedisSubscribeMessage server userid msg =>
      simp only [program, handlerRedisSubscribeMessage, lock, unlock, find, call_bind, follows_act]
      refine ⟨rfl, fun _ => ⟨rfl, fun entry => ?_⟩⟩
      cases entry <;> exact ⟨rfl, fun _ => ⟨rfl, fun _ => trivial⟩⟩

end Model

/-! The invariant. -/

section Invariant
variable {S C : Type} [DecidableEq S] [DecidableEq C]

/-- A handler that keeps to its protocol, and what it knows is so. -/
def Vouched (shared : Shared S C) (mark : Mark) (entry : Job S C × Task S C Unit) : Prop :=
  Follows (monitor entry.1) entry.2 (fun _ _ => True) mark ∧ Vouches shared entry.1 mark

/-- The ids of the rows that were inserted: those that are yet to be answered, and those that
were. -/
def granted (marks : List Mark) (shared : Shared S C) : List Int :=
  marks.filterMap Mark.id? ++ shared.replies.filterMap registered

/-- Different ids of new rows; `old` are the accounts that were there before. -/
def Once (old : AList fun _ : Int => UserRow) (shared : Shared S C) (ids : List Int) : Prop :=
  ids.Nodup ∧ ∀ id ∈ ids, id ∉ old ∧ id ∈ shared.user

structure Sound (old : AList fun _ : Int => UserRow) (pool : Servers S C)
    (marks : List Mark) : Prop where
  vouched : List.Forall₂ (Vouched pool.shared) marks pool.threads
  due : ∀ reply ∈ pool.shared.replies, Due pool.shared (pool.threads.map Prod.fst) reply
  once : Once old pool.shared (granted marks pool.shared)
  kept : ∀ id ∈ old, id ∈ pool.shared.user

omit [DecidableEq S] [DecidableEq C] in
theorem owns_member (shared : Shared S C) (id : Int) (name pwd : Text)
    (owns : Owns shared id name pwd) :
    id ∈ shared.user := by
  obtain ⟨state, found⟩ := owns
  exact AList.lookup_isSome.mp (by rw [found]; rfl)

/-- No operation changes the name or the password of an account. -/
theorem perform_owns (op : Op S C) (choice : Int) (shared after : Shared S C) (result : Res op)
    (performed : perform choice op shared = some (result, after)) (id : Int) (name pwd : Text)
    (owns : Owns shared id name pwd) :
    Owns after id name pwd := by
  have member := owns_member shared id name pwd owns
  obtain ⟨state, found⟩ := owns
  cases op with
  | insertUser user =>
      simp only [perform] at performed
      split at performed
      · cases performed
        exact ⟨state, found⟩
      · split at performed
        · cases performed
        · rename_i absent
          cases performed
          have other : id ≠ choice := fun same => absent (same ▸ member)
          exact ⟨state, by rw [AList.lookup_insert_ne other]; exact found⟩
  | updateState other new =>
      cases performed
      refine ⟨if id = other then new else state, ?_⟩
      simp only [setUserState_lookup, found, Option.map_some]
      split <;> rfl
  | _ =>
      have same : after.user = shared.user := by grind [perform]
      exact ⟨state, same ▸ found⟩

theorem perform_known (op : Op S C) (choice : Int) (shared after : Shared S C) (result : Res op)
    (performed : perform choice op shared = some (result, after)) (id : Int)
    (member : id ∈ shared.user) :
    id ∈ after.user := by
  obtain ⟨⟨name, pwd, state⟩, found⟩ := Option.isSome_iff_exists.mp (AList.lookup_isSome.mpr member)
  exact owns_member after id name pwd
    (perform_owns op choice shared after result performed id name pwd ⟨state, found⟩)

theorem perform_replies (op : Op S C) (choice : Int) (shared after : Shared S C) (result : Res op)
    (performed : perform choice op shared = some (result, after))
    (silent : ∀ conn ack, op ≠ .reply conn ack) :
    after.replies = shared.replies := by
  cases op with
  | reply conn ack => exact absurd rfl (silent conn ack)
  | _ => grind [perform]

omit [DecidableEq S] [DecidableEq C] in
theorem vouches_mono (shared after : Shared S C)
    (owns : ∀ id name pwd, Owns shared id name pwd → Owns after id name pwd)
    (job : Job S C) (mark : Mark) (vouches : Vouches shared job mark) : Vouches after job mark := by
  cases mark with
  | idle => trivial
  | granted id =>
      exact fun server conn name pwd same => owns _ _ _ (vouches server conn name pwd same)
  | known user => exact vouches.imp_right (owns _ _ _)

omit [DecidableEq S] [DecidableEq C] in
theorem due_mono (shared after : Shared S C)
    (owns : ∀ id name pwd, Owns shared id name pwd → Owns after id name pwd)
    (jobs more : List (Job S C)) (inside : ∀ job ∈ jobs, job ∈ more) (reply : C × Ack)
    (due : Due shared jobs reply) :
    Due after more reply := by
  obtain ⟨conn, ack⟩ := reply
  cases ack with
  | registered id =>
      obtain ⟨server, name, pwd, asked, owned⟩ := due
      exact ⟨server, name, pwd, inside _ asked, owns _ _ _ owned⟩
  | loggedIn id name offlinemsg friends groups =>
      obtain ⟨server, pwd, asked, owned⟩ := due
      exact ⟨server, pwd, inside _ asked, owned.imp_left (owns _ _ _)⟩
  | loginFailed | regFailed => trivial

omit [DecidableEq S] [DecidableEq C] in
theorem vouched_mono (shared after : Shared S C)
    (owns : ∀ id name pwd, Owns shared id name pwd → Owns after id name pwd)
    (marks : List Mark) (threads : List (Job S C × Task S C Unit))
    (vouched : List.Forall₂ (Vouched shared) marks threads) :
    List.Forall₂ (Vouched after) marks threads :=
  vouched.imp fun mark entry held => ⟨held.1, vouches_mono shared after owns entry.1 mark held.2⟩

omit [DecidableEq S] [DecidableEq C] in
theorem granted_middle (left right : List Mark) (mark : Mark) (shared : Shared S C) :
    (granted (left ++ mark :: right) shared).Perm
    (mark.id?.toList ++ granted (left ++ right) shared) := by
  simp only [granted, List.filterMap_append, List.filterMap_cons]
  cases mark.id? with
  | none => simp
  | some id =>
      simp only [Option.toList_some, List.append_assoc, List.cons_append, List.nil_append]
      exact List.perm_middle

omit [DecidableEq S] [DecidableEq C] in
theorem once_perm (old : AList fun _ : Int => UserRow) (shared : Shared S C) (ids others : List Int)
    (same : ids.Perm others)
    (once : Once old shared ids) : Once old shared others :=
  ⟨same.nodup_iff.mp once.1, fun id member => once.2 id (same.mem_iff.mpr member)⟩

omit [DecidableEq S] [DecidableEq C] in
theorem once_mono (old : AList fun _ : Int => UserRow) (shared after : Shared S C) (ids : List Int)
    (member : ∀ id ∈ shared.user, id ∈ after.user) (once : Once old shared ids) :
    Once old after ids :=
  ⟨once.1, fun id inside => ⟨(once.2 id inside).1, member id (once.2 id inside).2⟩⟩

section Operations
omit [DecidableEq S] [DecidableEq C]
variable (old : AList fun _ : Int => UserRow) (jobs : List (Job S C)) (job : Job S C)
    (asked : job ∈ jobs)
  (shared after : Shared S C) (left right : List Mark) (mark : Mark)
  (due : ∀ reply ∈ shared.replies, Due shared jobs reply)
  (once : Once old shared (granted (left ++ mark :: right) shared))
include due once

/-- Nothing is answered, and no id is given. -/
theorem silent_sound (next : Mark) (still : next.id? = mark.id?)
    (replies : after.replies = shared.replies)
    (owns : ∀ id name pwd, Owns shared id name pwd → Owns after id name pwd)
    (member : ∀ id ∈ shared.user, id ∈ after.user) :
    (∀ reply ∈ after.replies, Due after jobs reply) ∧
    Once old after (granted (left ++ next :: right) after) := by
  refine ⟨fun reply inside => ?_, ?_⟩
  · rw [replies] at inside
    exact due_mono shared after owns jobs jobs (fun _ there => there) reply (due reply inside)
  · have same : granted (left ++ next :: right) after = granted (left ++ mark :: right) shared := by
      simp [granted, List.filterMap_cons, still, replies]
    rw [same]
    exact once_mono old shared after _ member once

include asked

theorem reply_sound (conn : C) (ack : Ack) (allowed : takes job mark (.reply conn ack))
    (vouches : Vouches shared job mark) :
    (∀ reply ∈ shared.replies ++ [(conn, ack)], Due shared jobs reply) ∧
      Once old shared (granted (left ++ .idle :: right)
        { shared with replies := shared.replies ++ [(conn, ack)] }) := by
  have none_ (away : mark.id? = none) (other : registered (conn, ack) = none) :
      Once old shared (granted (left ++ .idle :: right)
        { shared with replies := shared.replies ++ [(conn, ack)] }) := by
    have same : granted (left ++ .idle :: right)
        { shared with replies := shared.replies ++ [(conn, ack)] } =
        granted (left ++ mark :: right) shared := by
      have idle : Mark.idle.id? = none := rfl
      simp [granted, List.filterMap_append, away, other, idle]
    exact same ▸ once
  have new (here : Due shared jobs (conn, ack)) :
      ∀ reply ∈ shared.replies ++ [(conn, ack)], Due shared jobs reply := by
    intro reply inside
    rcases List.mem_append.mp inside with before | last
    · exact due reply before
    · rw [List.mem_singleton.mp last]
      exact here
  cases ack with
  | registered id =>
      obtain ⟨rfl, server, name, pwd, rfl⟩ := allowed
      refine ⟨new ⟨server, name, pwd, asked, vouches server conn name pwd rfl⟩,
        once_perm old shared _ _ ?_ once⟩
      -- the id goes from the mark to the answers
      have split : granted (left ++ .idle :: right)
          { shared with replies := shared.replies ++ [(conn, .registered id)] } =
          left.filterMap Mark.id? ++
            ((right.filterMap Mark.id? ++ shared.replies.filterMap registered) ++ [id]) := by
        have idle : Mark.idle.id? = none := rfl
        have last : registered (conn, .registered id) = some id := rfl
        simp [granted, idle, last]
      have before : granted (left ++ .granted id :: right) shared =
          left.filterMap Mark.id? ++ id ::
            (right.filterMap Mark.id? ++ shared.replies.filterMap registered) := by
        have here : (Mark.granted id).id? = some id := rfl
        simp [granted, here]
      rw [split, before]
      exact (List.perm_append_singleton id _).symm.append_left _
  | loggedIn id name offlinemsg friends groups =>
      obtain ⟨user, server, pwd, rfl, rfl, rfl, rfl, rfl⟩ := allowed
      refine ⟨new ⟨server, user.password, asked, ?_⟩, none_ rfl rfl⟩
      -- User() has id -1 and no password, so a failed query meets this request too
      rcases vouches with rfl | owned
      · exact .inr ⟨rfl, rfl, rfl⟩
      · exact .inl owned
  | loginFailed errno errmsg => exact ⟨new trivial, none_ allowed rfl⟩
  | regFailed errno => exact ⟨new trivial, none_ allowed rfl⟩

end Operations

/-- One operation of one handler. -/
theorem operation_sound (old : AList fun _ : Int => UserRow) (jobs : List (Job S C)) (job : Job S C)
    (asked : job ∈ jobs)
    (shared after : Shared S C) (left right : List Mark) (mark : Mark) (op : Op S C) (choice : Int)
    (result : Res op)
    (allowed : takes job mark op) (vouches : Vouches shared job mark)
    (due : ∀ reply ∈ shared.replies, Due shared jobs reply)
    (once : Once old shared (granted (left ++ mark :: right) shared))
    (kept : ∀ id ∈ old, id ∈ shared.user)
    (performed : perform choice op shared = some (result, after)) :
    Vouches after job (nextMark mark op result) ∧ (∀ reply ∈ after.replies, Due after jobs reply) ∧
      Once old after (granted (left ++ nextMark mark op result :: right) after) := by
  have owns := perform_owns op choice shared after result performed
  have member := perform_known op choice shared after result performed
  have silent (next : Mark) (still : next.id? = mark.id?)
      (replies : after.replies = shared.replies) :=
    silent_sound old jobs shared after left right mark due once next still replies owns member
  -- only a reply answers, and only an insert makes a row; the other operations leave the answers
  -- alone
  cases op with
  | reply conn ack =>
      cases performed
      obtain ⟨answered, given⟩ :=
        reply_sound old jobs job asked shared left right mark due once conn ack allowed vouches
      exact ⟨trivial, fun reply inside => due_mono shared _ owns jobs jobs
        (fun _ there => there) reply
        (answered reply inside),
        once_mono old shared _ _ member given⟩
  | queryUser id =>
      cases performed
      refine ⟨?_, silent (.known (findUser shared id)) (show none = mark.id? from allowed.symm) rfl⟩
      unfold findUser
      cases found : shared.user.lookup id with
      | none => exact .inl rfl
      | some row => exact .inr ⟨row.state, found⟩
  | insertUser user =>
      obtain ⟨rfl, server, conn, rfl⟩ := allowed
      simp only [perform] at performed
      split at performed
      · cases performed
        exact ⟨trivial, silent .idle rfl rfl⟩
      · split at performed
        · cases performed
        · rename_i absent
          cases performed
          refine ⟨fun server' conn' name pwd same => ?_, ?_, ?_⟩
          · cases same
            exact ⟨user.state, AList.lookup_insert _⟩
          · exact (silent .idle rfl rfl).1
          · -- the new id is no old one, and none that was given
            have before := (silent .idle rfl rfl).2
            refine once_perm old _ _ _ (granted_middle left right (.granted choice) _).symm ?_
            have others := once_perm old _ _ _ (granted_middle left right .idle _) before
            refine ⟨List.nodup_cons.mpr ⟨fun inside => ?_, others.1⟩, ?_⟩
            -- the key was free, and every id given before is a row
            · exact absent ((once_perm old _ _ _
                (granted_middle left right .idle shared) once).2 choice inside).2
            · intro id inside
              rcases List.mem_cons.mp inside with rfl | rest
              · exact ⟨fun there => absent (kept id there), (AList.mem_insert _).mpr (.inl rfl)⟩
              · exact others.2 id rest
  | _ =>
      have replies := perform_replies _ choice shared after result performed (by simp)
      exact ⟨vouches_mono shared after owns job mark vouches, silent mark rfl replies⟩

theorem step_sound (old : AList fun _ : Int => UserRow) (before after : Servers S C)
    (action : Action (Job S C) Int)
    (sound : ∃ marks, Sound old before marks) (stepped : servers.step before action = some after) :
    ∃ marks, Sound old after marks := by
  obtain ⟨marks, vouched, due, once, kept⟩ := sound
  cases action with
  | spawn job =>
      simp only [System.step, Option.map_eq_some_iff] at stepped
      obtain ⟨shared, launched, rfl⟩ := stepped
      obtain ⟨relay, rfl⟩ := launch_frame job before.shared shared launched
      have granted_ : granted (marks ++ [.idle]) { before.shared with relay := relay } =
        granted marks before.shared := by
        have idle : Mark.idle.id? = none := rfl
        simp [granted, idle]
      refine ⟨marks ++ [.idle], ?_, fun reply inside => ?_, ?_, kept⟩
      · exact List.rel_append (vouched_mono _ _ (fun _ _ _ owned => owned) _ _ vouched)
          (.cons ⟨program_follows job, trivial⟩ .nil)
      · exact due_mono before.shared _ (fun _ _ _ owned => owned) _ _
          (fun _ there => by simp [there]) reply
          (due reply inside)
      · rw [granted_]
        exact once
  | step thread choice =>
      obtain ⟨front, behind, job, op, next, result, threads, _, performed, placed⟩ :=
        step_shape servers before after thread choice stepped
      have owns := perform_owns op choice before.shared after.shared result performed
      have member := perform_known op choice before.shared after.shared result performed
      rw [threads] at vouched due
      obtain ⟨left, mark, right, rfl, one, ⟨follows, vouches⟩, two⟩ :=
        forall₂_middle _ marks _ _ _ vouched
      have asked : job ∈ (front ++ (job, Prog.act op next) :: behind).map Prod.fst := by simp
      obtain ⟨knows, answered, given⟩ :=
        operation_sound old _ job asked before.shared after.shared left right mark op choice
        result follows.1 vouches due once kept performed
      refine ⟨left ++ nextMark mark op result :: right, ?_, ?_, given,
        fun id there => member id (kept id there)⟩
      · rw [placed]
        exact List.rel_append (vouched_mono _ _ owns _ _ one)
          (.cons ⟨follows.2 result, knows⟩ (vouched_mono _ _ owns _ _ two))
      · rw [placed]
        simpa using answered

theorem step_owns (before after : Servers S C) (action : Action (Job S C) Int) (id : Int)
    (name pwd : Text)
    (owns : Owns before.shared id name pwd) (stepped : servers.step before action = some after) :
    Owns after.shared id name pwd := by
  cases action with
  | spawn job =>
      simp only [System.step, Option.map_eq_some_iff] at stepped
      obtain ⟨shared, launched, rfl⟩ := stepped
      obtain ⟨relay, rfl⟩ := launch_frame job before.shared shared launched
      exact owns
  | step thread choice =>
      obtain ⟨_, _, _, op, _, result, _, _, performed, _⟩ :=
        step_shape servers before after thread choice stepped
      exact perform_owns op choice before.shared after.shared result performed id name pwd owns

/-- Over every interleaving of requests whose texts go into their statements as they are: a REG is
answered with the id of a row that has the name and the password of the request, a row that was
not there before and that no other REG is answered with; a LOGIN is answered with errno 0 only if
its password is the one of the account with that id, or the id is -1 and the password empty; and
an account keeps its name and its password. -/
theorem accounts (first pool : Servers S C) (idle : first.threads = [])
    (silent : first.shared.replies = [])
    (trace : List (Action (Job S C) Int)) (storable : ∀ job, .spawn job ∈ trace → Storable job)
    (ran : Transition.run servers.step first trace = some pool) :
    (∀ server conn name pwd, .spawn (.reg server conn name pwd) ∈ trace → Inserts name pwd) ∧
      (∀ reply ∈ pool.shared.replies, Due pool.shared (pool.threads.map Prod.fst) reply) ∧
      (pool.shared.replies.filterMap registered).Nodup ∧
      (∀ id ∈ pool.shared.replies.filterMap registered, id ∉ first.shared.user) ∧
      ∀ earlier later middle id name pwd, trace = earlier ++ later →
        Transition.run servers.step first earlier = some middle → Owns middle.shared id name pwd →
          Owns pool.shared id name pwd := by
  have begun : ∃ marks, Sound first.shared.user first marks := by
    refine ⟨[], ?_, by simp [silent], ⟨by simp [granted, silent], by simp [granted, silent]⟩,
      fun _ there => there⟩
    rw [idle]
    exact .nil
  obtain ⟨marks, sound⟩ := Transition.run_always servers.step
    (fun pool => ∃ marks, Sound first.shared.user pool marks)
    (fun before action after kept stepped =>
      step_sound first.shared.user before after action kept stepped)
    first pool trace begun ran
  obtain ⟨distinct, new⟩ := sound.once
  have inserts (server : S) (conn : C) (name pwd : Text)
      (asked : .spawn (.reg server conn name pwd) ∈ trace) :
      Inserts name pwd :=
    (SqlStatements.insertUser_reads _).mpr ((storable _ asked).clean server conn name pwd rfl)
  refine ⟨inserts, sound.due, (List.nodup_append.mp distinct).2.1,
    fun id inside => (new id (List.mem_append_right _ inside)).1, ?_⟩
  intro earlier later middle id name pwd split reached owns
  subst split
  rw [Transition.run_append, reached, Option.bind_some] at ran
  exact Transition.run_always servers.step (fun pool => Owns pool.shared id name pwd)
    (fun before action after kept stepped => step_owns before after action id name pwd kept stepped)
    middle pool later owns ran

end Invariant

/-- Two registrations at once; the second server then gets the login of the account that the first
one made. -/
def twoNew : List (Action (Job Bool Nat) Int) :=
  [.spawn (.reg true 7 [98] [121]), .spawn (.reg false 8 [99] [122]), .step 0 2, .step 1 3,
    .step 1 0, .step 0 0,
    .spawn (.login false 8 2 [121])] ++ steps 2 8

theorem twoNew_storable : ∀ job, .spawn job ∈ twoNew → Storable job := by
  intro job asked
  have either : job = .reg true 7 [98] [121] ∨ job = .reg false 8 [99] [122] ∨
      job = .login false 8 2 [121] := by
    simpa [twoNew, steps] using asked
  rcases either with rfl | rfl | rfl
  · refine ⟨(StatementBuffers.reg_every 7 [98] [121]).mpr (by decide), fun _ _ _ _ same => ?_⟩
    cases same
    decide
  · refine ⟨(StatementBuffers.reg_every 8 [99] [122]).mpr (by decide), fun _ _ _ _ same => ?_⟩
    cases same
    decide
  · exact ⟨StatementBuffers.login_every false 8 2 [121], fun _ _ _ _ same => by cases same⟩

theorem accounts_two :
    ∃ pool, Transition.run servers.step (started oneUser [] : Servers Bool Nat) twoNew = some pool ∧
      pool.shared.replies.filterMap registered = [3, 2] ∧ pool.shared.replies.length = 3 ∧
      ∀ reply ∈ pool.shared.replies, Due pool.shared (pool.threads.map Prod.fst) reply := by
  have reached : (Transition.run servers.step
      (started oneUser [] : Servers Bool Nat) twoNew).map (fun pool => decide
      (pool.shared.replies.filterMap registered = [3, 2] ∧ pool.shared.replies.length = 3)) =
        some true := by
    decide +kernel
  obtain ⟨pool, ran, state⟩ := Option.map_eq_some_iff.mp reached
  obtain ⟨ids, answers⟩ := of_decide_eq_true state
  exact ⟨pool, ran, ids, answers,
    (accounts (started oneUser []) pool rfl rfl twoNew twoNew_storable ran).2.1⟩

end MuduoChat.Accounts
