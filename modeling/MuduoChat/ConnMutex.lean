import MuduoChat.ChatService

/-!
Who owns _connMutex when _userConnMap is read or changed. `unique_lock<mutex> lock(m)`
locks m; `unique_lock<mutex>(m)`, as login and groupChat have it, declares an empty lock
with the name of the mutex. The notes of the observer say which thread has locked the
mutex of each server.
-/

namespace MuduoChat.ConnMutex
open Interleaving ChatService

section Model
variable {S C : Type} [DecidableEq S] [DecidableEq C]

/-- The thread inside the critical section of a server. -/
abbrev Owners (S : Type) := S → Option Nat

abbrev State (S C : Type) := Watched (Shared S C) (Job S C) (Op S C) Res (Owners S)

def note (thread : Nat) (op : Op S C) (owners : Owners S) : Owners S :=
  match op with
  | .lock server => Function.update owners server (some thread)
  | .unlock server => Function.update owners server none
  | _ => owners

def step (state : State S C) (action : Action (Job S C) Int) : Option (State S C) :=
    servers.watch note state action

/-- The server whose map an operation reads or changes. -/
def touches : Op S C → Option S
  | .find server _ _ => some server
  | .findConn server _ => some server
  | .insertConn server _ _ => some server
  | .eraseConn server _ => some server
  | _ => none

def home : Job S C → S
  | .login server _ _ _ => server
  | .reg server _ _ _ => server
  | .loginout server _ _ => server
  | .oneChat server _ _ _ => server
  | .addFriend server _ _ _ => server
  | .creatGroup server _ _ _ _ => server
  | .addGroup server _ _ _ => server
  | .groupChat server _ _ _ _ => server
  | .clientCloseException server _ => server
  | .handlerRedisSubscribeMessage server _ _ => server

/-- The two handlers that only declare their lock. -/
def bare : Job S C → Bool
  | .login _ _ _ _ => true
  | .groupChat _ _ _ _ _ => true
  | _ => false

/-- The entry a text is sent through is the one in the map. -/
def Fresh (shared : Shared S C) (job : Job S C) : Op S C → Prop
  | .forward id conn _ => (shared.userConnMap (home job)).lookup id = some conn
  | _ => True

/-- A step on the map is taken by the owner of the mutex, and a send goes through an
entry that is there. -/
def Guards (state : State S C) : Action (Job S C) Int → Prop
  | .spawn _ => True
  | .step thread _ => ∀ job op, state.pool.aboutTo thread = some (job, op) →
      (∀ server, touches op = some server → state.notes server = some thread) ∧
        Fresh state.pool.shared job op

/-- login does not come to its insert, nor groupChat to a look-up. -/
def Avoids (state : State S C) : Action (Job S C) Int → Prop
  | .spawn _ => True
  | .step thread _ => ∀ entry ∈ state.pool.aboutTo thread, bare entry.1 = true →
      touches entry.2 = none

instance (state : State S C) (action : Action (Job S C) Int) : Decidable (Avoids state action) :=
  match action with
  | .spawn _ => isTrue trivial
  | .step thread _ => inferInstanceAs
      (Decidable (∀ entry ∈ state.pool.aboutTo thread, bare entry.1 = true →
        touches entry.2 = none))

/-- Any tables and any maps, all mutexes free. -/
structure Begins (state : State S C) : Prop where
  idle : state.pool.threads = []
  free : ∀ server, state.pool.shared.connMutex server = false
  nobody : ∀ server, state.notes server = none

end Model

section Protocols
variable {S C : Type}

/-! The handlers as protocols. -/

/-- `found` has an entry of the map in hand, and `loose` may have one without the mutex. -/
inductive Mark (S C : Type) where
  | outside
  | inside (server : S)
  | found (server : S) (id : Int) (conn : C)
  | loose

def Mark.holds : Mark S C → Option S
  | .inside server => some server
  | .found server _ _ => some server
  | _ => none

def takes (job : Job S C) : Mark S C → Op S C → Prop
  | .outside, .lock server => bare job = false ∧ server = home job
  | .outside, .unlock _ => False
  | .outside, .eraseConn _ _ => False
  | .outside, .forward _ _ _ => False
  | .outside, op => (touches op).isSome → bare job = true
  | .inside server, .unlock other => other = server
  | .inside _, .lock _ => False
  | .inside _, .forward _ _ _ => False
  | .inside server, op => ∀ other, touches op = some other → bare job = false ∧ other = server
  | .found server _ _, .unlock other => other = server
  | .found _ _ _, .lock _ => False
  | .found server id conn, .forward user receiver _ =>
      server = home job ∧ user = id ∧ receiver = conn
  | .found _ _ _, op => touches op = none
  | .loose, .lock _ => False
  | .loose, .unlock _ => False
  | .loose, .eraseConn _ _ => False
  | .loose, _ => bare job = true

/-- A look at the map without the mutex. -/
def Mark.touched : Mark S C → Mark S C
  | .outside => .loose
  | mark => mark

def nextMark (mark : Mark S C) : (op : Op S C) → Res op → Mark S C
  | .lock server, _ => .inside server
  | .unlock _, _ => .outside
  | .find _ id (.passing _), some conn =>
      match mark with
      | .inside server => .found server id conn
      | other => other.touched
  | op, _ => if (touches op).isSome then mark.touched else mark

def monitor (job : Job S C) : Monitor (Op S C) Res (Mark S C) where
  allowed := takes job
  after := nextMark

def final (mark : Mark S C) : Prop := mark.holds = none

theorem untouched {op : Op S C} {claim : Prop} (away : touches op = none) :
    (touches op).isSome → claim := by
  intro looks
  simp [away] at looks

theorem unreached {op : Op S C} {claim : S → Prop} (away : touches op = none) :
    ∀ other, touches op = some other → claim other := by
  intro other touch
  simp [away] at touch

theorem login_follows (server : S) (conn : C) (id : Int) (pwd : Text) :
    Follows (monitor (.login server conn id pwd)) (login server conn id pwd)
      (fun _ => final) .outside := by
  simp only [login, queryUser, reply, updateState, call_bind, follows_act]
  refine ⟨untouched rfl, fun user => ?_⟩
  split
  · split
    · exact ⟨untouched rfl, fun _ => rfl⟩
    · -- the entry goes in without the mutex, and nothing after it asks for the mutex
      refine ⟨fun _ => rfl, fun _ => ⟨rfl, fun _ => ⟨rfl, fun _ => ?_⟩⟩⟩
      rw [follows_bind]
      refine follows_mono _ _ _ _ (fun vec last same => ?_) _ (takeOffline_keep _ _ id
        (fun _ => ⟨rfl, rfl⟩) fun _ => ⟨rfl, rfl⟩)
      subst same
      simp only [queryGroups, call_bind, act_bind, follows_act, follows_bind]
      refine ⟨rfl, fun friends => ⟨rfl, fun groups => ?_⟩⟩
      refine follows_mono _ _ _ _ (fun all last same => ?_) _ (withMembers_keep _ _ groups
        fun _ _ => ⟨rfl, rfl⟩)
      subst same
      exact ⟨rfl, fun _ => rfl⟩
  · exact ⟨untouched rfl, fun _ => rfl⟩

theorem passOn_follows (job : Job S C) (mark : Mark S C) (id : Int) (text : Text)
    (asks : takes job mark (.queryUser id)) (publishes : takes job mark (.publish id text))
    (stores : takes job mark (.insertMsg id (.chat text))) :
    Follows (monitor job) (passOn id text) (fun _ last => last = mark) mark := by
  simp only [passOn, queryUser, call_bind, follows_act]
  refine ⟨asks, fun user => ?_⟩
  split
  · exact ⟨publishes, fun _ => rfl⟩
  · exact ⟨stores, fun _ => rfl⟩

theorem chatAll_follows (server : S) (from_ : C) (userid groupid : Int) (text : Text)
    (ids : List Int) (mark : Mark S C)
    (unlocked : mark = .outside ∨ mark = .loose) :
    Follows (monitor (.groupChat server from_ userid groupid text)) (chatAll server text ids)
      (fun _ => final) mark := by
  induction ids generalizing mark with
  | nil =>
      rcases unlocked with rfl | rfl
      · rfl
      · rfl
  | cons id rest ih =>
      have tail := ih .loose (Or.inr rfl)
      have looks : takes (.groupChat server from_ userid groupid text) mark
          (.find server id (.passing (.chat text))) ∧
          ∀ entry, nextMark mark (.find server id (.passing (.chat text))) entry = .loose := by
        rcases unlocked with rfl | rfl
        · refine ⟨fun _ => rfl, fun entry => ?_⟩
          cases entry <;> rfl
        · refine ⟨rfl, fun entry => ?_⟩
          cases entry <;> rfl
      simp only [chatAll, find, call_bind, follows_act]
      refine ⟨looks.1, fun entry => ?_⟩
      have after : (monitor (.groupChat server from_ userid groupid text)).after mark
          (.find server id (.passing (.chat text))) entry = .loose := looks.2 entry
      rw [after]
      cases entry with
      | some conn => exact ⟨rfl, fun _ => tail⟩
      | none =>
          rw [follows_bind]
          exact follows_mono _ _ _ _ (fun _ _ same => same ▸ tail) _
            (passOn_follows _ .loose id text rfl rfl rfl)

/-- Every handler keeps to its protocol, from a mark without the mutex. -/
theorem program_follows (job : Job S C) :
    Follows (monitor job) (program job) (fun _ => final) .outside := by
  cases job with
  | login server conn id pwd => exact login_follows server conn id pwd
  | reg server conn name pwd =>
      simp only [program, reg, reply, call_bind, follows_act]
      refine ⟨untouched rfl, fun inserted => ?_⟩
      cases inserted <;> exact ⟨untouched rfl, fun _ => rfl⟩
  | loginout server conn userid =>
      simp only [program, loginout, lock, unlock, find, updateState, call_bind, follows_act]
      refine ⟨⟨rfl, rfl⟩, fun _ => ⟨fun _ same => ⟨rfl, Option.some.inj same.symm⟩,
        fun entry => ?_⟩⟩
      cases entry with
      | some conn =>
          exact ⟨fun _ same => ⟨rfl, Option.some.inj same.symm⟩,
            fun _ => ⟨rfl, fun _ => ⟨untouched rfl, fun _ =>
          ⟨untouched rfl, fun _ => rfl⟩⟩⟩⟩
      | none => exact ⟨rfl, fun _ => ⟨untouched rfl, fun _ => ⟨untouched rfl, fun _ => rfl⟩⟩⟩
  | oneChat server conn toid text =>
      simp only [program, oneChat, lock, unlock, find, call_bind, follows_act]
      refine ⟨⟨rfl, rfl⟩, fun _ => ⟨fun _ same => ⟨rfl, Option.some.inj same.symm⟩,
        fun entry => ?_⟩⟩
      cases entry with
      | some conn => exact ⟨⟨rfl, rfl, rfl⟩, fun _ => ⟨rfl, fun _ => rfl⟩⟩
      | none =>
          refine ⟨rfl, fun _ => follows_mono _ _ _ _ (fun _ last same => ?_) _
            (passOn_follows _ .outside toid text (untouched rfl) (untouched rfl) (untouched rfl))⟩
          rw [same]
          rfl
  | addFriend server conn userid friendid => exact ⟨untouched rfl, fun _ => rfl⟩
  | creatGroup server conn userid name desc =>
      simp only [program, creatGroup, call_bind, follows_act]
      refine ⟨untouched rfl, fun created => ?_⟩
      cases created with
      | none => rfl
      | some groupid => exact ⟨untouched rfl, fun _ => rfl⟩
  | addGroup server conn userid groupid => exact ⟨untouched rfl, fun _ => rfl⟩
  | groupChat server conn userid groupid text =>
      exact ⟨untouched rfl, fun ids => chatAll_follows server conn userid groupid text ids .outside
        (Or.inl rfl)⟩
  | clientCloseException server conn =>
      simp only [program, clientCloseException, lock, unlock, updateState, call_bind, follows_act]
      refine ⟨⟨rfl, rfl⟩, fun _ => ⟨fun _ same => ⟨rfl, Option.some.inj same.symm⟩,
        fun entry => ?_⟩⟩
      cases entry with
      | some id =>
          refine ⟨fun _ same => ⟨rfl, Option.some.inj same.symm⟩,
            fun _ => ⟨rfl, fun _ => ⟨untouched rfl, fun _ => ?_⟩⟩⟩
          split
          · exact ⟨untouched rfl, fun _ => rfl⟩
          · rfl
      | none =>
          refine ⟨rfl, fun _ => ⟨untouched rfl, fun _ => ?_⟩⟩
          split
          · exact ⟨untouched rfl, fun _ => rfl⟩
          · rfl
  | handlerRedisSubscribeMessage server userid msg =>
      simp only [program, handlerRedisSubscribeMessage, lock, unlock, find, call_bind, follows_act]
      refine ⟨⟨rfl, rfl⟩, fun _ => ⟨fun _ same => ⟨rfl, Option.some.inj same.symm⟩,
        fun entry => ?_⟩⟩
      cases entry with
      | some conn => exact ⟨⟨rfl, rfl, rfl⟩, fun _ => ⟨rfl, fun _ => rfl⟩⟩
      | none => exact ⟨unreached rfl, fun _ => ⟨rfl, fun _ => rfl⟩⟩

/-! The invariant. -/

@[simp] theorem touched_holds (mark : Mark S C) : mark.touched.holds = mark.holds := by
  cases mark <;> rfl

/-- Only the operations of the mutex change who holds it. -/
theorem nextMark_holds (mark : Mark S C) (op : Op S C) (result : Res op)
    (unlocked : ∀ server, op ≠ .lock server)
    (locked : ∀ server, op ≠ .unlock server) : (nextMark mark op result).holds = mark.holds := by
  cases op with
  | lock server => exact absurd rfl (unlocked server)
  | unlock server => exact absurd rfl (locked server)
  | find server id purpose =>
      cases purpose with
      | erasing => simp [nextMark, touches]
      | passing mail =>
          cases result with
          | none => simp [nextMark, touches]
          | some conn => cases mark <;> simp [nextMark, Mark.holds, Mark.touched]
  | _ => simp [nextMark, touches]

end Protocols

section Invariant
variable {S C : Type} [DecidableEq S] [DecidableEq C]

/-- An entry in hand was in hand before, or comes from this look-up, inside the
critical section. -/
theorem found_source (job : Job S C) (mark : Mark S C) (op : Op S C) (choice : Int)
    (shared after : Shared S C)
    (result : Res op) (server : S) (id : Int) (conn : C) (allowed : takes job mark op)
    (performed : perform choice op shared = some (result, after))
    (found : nextMark mark op result = .found server id conn) :
    mark = .found server id conn ∨ mark = .inside server ∧
      (shared.userConnMap server).lookup id = some conn := by
  have looked : mark.touched = .found server id conn → mark = .found server id conn := by
    intro same
    cases mark with
    | outside => cases same
    | _ => exact same
  cases op with
  | lock other => cases found
  | unlock other => cases found
  | find place user purpose =>
      cases purpose with
      | erasing =>
          simp only [nextMark, touches, Option.isSome_some, if_true] at found
          exact Or.inl (looked found)
      | passing mail =>
          simp only [perform, Option.some.injEq, Prod.mk.injEq] at performed
          cases result with
          | none =>
              simp only [nextMark, touches, Option.isSome_some, if_true] at found
              exact Or.inl (looked found)
          | some receiver =>
              cases mark with
              | inside other =>
                  simp only [nextMark, Mark.found.injEq] at found
                  obtain ⟨rfl, rfl, rfl⟩ := found
                  obtain ⟨_, rfl⟩ := allowed place rfl
                  exact Or.inr ⟨rfl, performed.1⟩
              | outside => cases found
              | found other user receiver_ => exact Or.inl found
              | loose => cases found
  | _ =>
      simp only [nextMark] at found
      split at found
      · exact Or.inl (looked found)
      · exact Or.inl found

omit [DecidableEq S] [DecidableEq C] in
/-- A look at the map without the mutex is one of the two handlers'. -/
theorem loose_source (job : Job S C) (mark : Mark S C) (op : Op S C) (result : Res op)
    (allowed : takes job mark op)
    (tight : mark ≠ .loose) (away : bare job = true → touches op = none) :
    nextMark mark op result ≠ .loose := by
  intro loose
  have outside : mark = .outside ∧ (touches op).isSome := by
    cases op with
    | lock server => cases loose
    | unlock server => cases loose
    | find server id purpose =>
        refine ⟨?_, rfl⟩
        cases purpose with
        | erasing => cases mark <;> simp_all [nextMark, touches, Mark.touched]
        | passing mail => cases result <;> cases mark <;> simp_all [nextMark, touches, Mark.touched]
    | _ => cases mark <;> simp_all [nextMark, touches, Mark.touched]
  obtain ⟨rfl, looks⟩ := outside
  have open_ : bare job = true := by
    cases op with
    | find server id purpose => exact allowed rfl
    | findConn server conn => exact allowed rfl
    | insertConn server id conn => exact allowed rfl
    | eraseConn server id => exact allowed.elim
    | _ => simp [touches] at looks
  simp [away open_] at looks

/-- The notes agree with the marks and with the mutex, and an entry in hand is still
the one in the map. -/
structure Inv (shared : Shared S C) (owners : Owners S) (marks : List (Mark S C)) : Prop where
  owner : ∀ server thread, owners server = some thread ↔
    marks[thread]?.bind Mark.holds = some server
  mutex : ∀ server, shared.connMutex server = (owners server).isSome
  entry : ∀ server id conn, Mark.found server id conn ∈ marks →
    (shared.userConnMap server).lookup id = some conn

omit [DecidableEq S] [DecidableEq C] in
theorem replaced_holds (left right : List (Mark S C)) (old new : Mark S C) (thread : Nat) :
    (left ++ new :: right)[thread]?.bind Mark.holds =
      if thread = left.length then new.holds
      else (left ++ old :: right)[thread]?.bind Mark.holds := by
  by_cases here : thread = left.length
  · simp [here]
  · rw [if_neg here]
    rcases Nat.lt_or_gt_of_ne here with before | behind
    · rw [List.getElem?_append_left before, List.getElem?_append_left before]
    · rw [List.getElem?_append_right (Nat.le_of_lt behind),
        List.getElem?_append_right (Nat.le_of_lt behind)]
      obtain ⟨more, positive⟩ := Nat.exists_eq_succ_of_ne_zero (Nat.sub_ne_zero_of_lt behind)
      rw [positive, List.getElem?_cons_succ, List.getElem?_cons_succ]

omit [DecidableEq S] [DecidableEq C] in
theorem here_holds (left right : List (Mark S C)) (mark : Mark S C) :
    (left ++ mark :: right)[left.length]?.bind Mark.holds = mark.holds := by
  simp

omit [DecidableEq S] [DecidableEq C] in
theorem found_others (left right : List (Mark S C)) (old new : Mark S C) (server : S) (id : Int)
    (conn : C)
    (empty : new ≠ .found server id conn)
    (member : Mark.found server id conn ∈ left ++ new :: right) :
    Mark.found server id conn ∈ left ++ old :: right := by
  rcases List.mem_append.mp member with before | behind
  · exact List.mem_append_left _ before
  · rcases List.mem_cons.mp behind with same | rest
    · exact absurd same.symm empty
    · exact List.mem_append_right _ (List.mem_cons_of_mem _ rest)

omit [DecidableEq S] [DecidableEq C] in
/-- Two marks inside one critical section are the same thread's. -/
theorem holder_alone (shared : Shared S C) (owners : Owners S) (left right : List (Mark S C))
    (mark other : Mark S C)
    (server : S) (inv : Inv shared owners (left ++ mark :: right))
    (holds : mark.holds = some server)
    (member : other ∈ left ++ right) : other.holds ≠ some server := by
  intro second
  have own : owners server = some left.length := by
    rw [inv.owner, here_holds]
    exact holds
  have place : ∃ thread, thread ≠ left.length ∧ (left ++ mark :: right)[thread]? = some other := by
    rcases List.mem_append.mp member with before | behind
    · obtain ⟨thread, bound, rfl⟩ := List.mem_iff_getElem.mp before
      exact ⟨thread, Nat.ne_of_lt bound, by simp [List.getElem?_append_left bound]⟩
    · obtain ⟨thread, bound, rfl⟩ := List.mem_iff_getElem.mp behind
      refine ⟨left.length + 1 + thread, by omega, ?_⟩
      rw [List.getElem?_append_right (by omega)]
      have shift : left.length + 1 + thread - left.length = thread + 1 := by omega
      simp [shift]
  obtain ⟨thread, apart, there⟩ := place
  have twice : owners server = some thread := by
    rw [inv.owner, there]
    exact second
  rw [own, Option.some.injEq] at twice
  exact apart twice.symm

/-- What an operation leaves of the maps and of the mutexes. -/
theorem perform_frame (op : Op S C) (choice : Int) (shared after : Shared S C) (result : Res op)
    (unlocked : ∀ server, op ≠ .lock server) (locked : ∀ server, op ≠ .unlock server)
    (performed : perform choice op shared = some (result, after)) :
    after.connMutex = shared.connMutex ∧
      ∀ server id conn, (shared.userConnMap server).lookup id = some conn →
      op ≠ .eraseConn server id → (after.userConnMap server).lookup id = some conn := by
  cases op with
  | lock server => exact absurd rfl (unlocked server)
  | unlock server => exact absurd rfl (locked server)
  | insertConn place user receiver =>
      simp only [perform, Option.some.injEq, Prod.mk.injEq, true_and] at performed
      subst performed
      refine ⟨rfl, fun server id conn there _ => ?_⟩
      by_cases here : server = place
      · subst here
        simp only [Function.update_self]
        by_cases mine : id = user
        · -- an insertion keeps the entry that is there
          subst mine
          have present : id ∈ shared.userConnMap server := AList.lookup_isSome.mp (by simp [there])
          rw [insertNew, if_pos present]
          exact there
        · rw [insertNew_other _ _ _ _ mine]
          exact there
      · simp only [Function.update_of_ne here]
        exact there
  | eraseConn place user =>
      simp only [perform, Option.some.injEq, Prod.mk.injEq, true_and] at performed
      subst performed
      refine ⟨rfl, fun server id conn there apart => ?_⟩
      by_cases here : server = place
      · subst here
        have away : id ≠ user := by
          rintro rfl
          exact apart rfl
        simp only [Function.update_self, AList.lookup_erase_ne away]
        exact there
      · simp only [Function.update_of_ne here]
        exact there
  | _ =>
      have same : after.connMutex = shared.connMutex ∧ after.userConnMap = shared.userConnMap := by
        grind [perform]
      exact ⟨same.1, fun server id conn there _ => by rw [same.2]; exact there⟩

theorem lock_inv (shared after : Shared S C) (owners : Owners S) (left right : List (Mark S C))
    (mark : Mark S C)
    (server : S) (choice : Int) (outside : mark.holds = none)
    (inv : Inv shared owners (left ++ mark :: right))
    (performed : perform choice (Op.lock server) shared = some ((), after)) :
    Inv after (Function.update owners server (some left.length))
      (left ++ .inside server :: right) := by
  simp only [perform] at performed
  split at performed
  · cases performed
  · rename_i free
    simp only [Option.some.injEq, Prod.mk.injEq, true_and] at performed
    subst performed
    have nobody : owners server = none := by
      have closed := inv.mutex server
      cases held : owners server with
      | none => rfl
      | some thread => simp [free, held] at closed
    refine ⟨fun other thread => ?_, fun other => ?_, fun other id conn member => ?_⟩
    · rw [replaced_holds left right mark (.inside server) thread]
      have before := inv.owner other thread
      by_cases here : other = server
      · subst here
        rw [nobody] at before
        simp only [Function.update_self, Option.some.injEq]
        split
        · rename_i mine
          simp [mine, Mark.holds]
        · rename_i apart
          rw [← before]
          simp [Ne.symm apart]
      · rw [Function.update_of_ne here, before]
        split
        · rename_i mine
          rw [mine, here_holds, outside]
          simp [Mark.holds, Ne.symm here]
        · exact Iff.rfl
    · by_cases here : other = server
      · subst here
        simp
      · simp [here, inv.mutex other]
    · exact inv.entry other id conn (found_others left right mark (.inside server) other id conn
        (by simp) member)

theorem unlock_inv (shared after : Shared S C) (owners : Owners S) (left right : List (Mark S C))
    (mark : Mark S C)
    (server : S) (choice : Int) (inside : mark.holds = some server)
    (inv : Inv shared owners (left ++ mark :: right))
    (performed : perform choice (Op.unlock server) shared = some ((), after)) :
    Inv after (Function.update owners server none) (left ++ .outside :: right) := by
  simp only [perform, Option.some.injEq, Prod.mk.injEq, true_and] at performed
  subst performed
  have own : owners server = some left.length := by
    rw [inv.owner, here_holds]
    exact inside
  refine ⟨fun other thread => ?_, fun other => ?_, fun other id conn member => ?_⟩
  · rw [replaced_holds left right mark .outside thread]
    have before := inv.owner other thread
    by_cases here : other = server
    · subst here
      rw [own] at before
      simp only [Function.update_self, reduceCtorEq, false_iff]
      split
      · simp [Mark.holds]
      · rename_i apart
        rw [← before]
        simp [Ne.symm apart]
    · rw [Function.update_of_ne here, before]
      split
      · rename_i mine
        rw [mine, here_holds, inside]
        simp [Mark.holds, Ne.symm here]
      · exact Iff.rfl
  · by_cases here : other = server
    · subst here
      simp
    · simp [here, inv.mutex other]
  · exact inv.entry other id conn (found_others left right mark .outside other id conn
      (by simp) member)

/-- An operation on anything but the mutex. -/
theorem open_inv (job : Job S C) (shared after : Shared S C) (owners : Owners S)
    (left right : List (Mark S C))
    (mark : Mark S C) (op : Op S C) (choice : Int) (result : Res op)
    (unlocked : ∀ server, op ≠ .lock server)
    (locked : ∀ server, op ≠ .unlock server) (allowed : takes job mark op)
    (inv : Inv shared owners (left ++ mark :: right))
    (performed : perform choice op shared = some (result, after)) :
    Inv after owners (left ++ nextMark mark op result :: right) := by
  obtain ⟨mutexes, entries⟩ := perform_frame op choice shared after result unlocked locked performed
  refine ⟨fun server thread => ?_, fun server => ?_, fun server id conn member => ?_⟩
  · rw [inv.owner, replaced_holds left right mark (nextMark mark op result) thread,
      nextMark_holds mark op result unlocked locked]
    split
    · rename_i mine
      rw [mine, here_holds]
    · exact Iff.rfl
  · rw [mutexes]
    exact inv.mutex server
  · by_cases mine : nextMark mark op result = .found server id conn
    · have there : (shared.userConnMap server).lookup id = some conn := by
        rcases found_source job mark op choice shared after result server id conn allowed performed mine with rfl | now
        · exact inv.entry server id conn (by simp)
        · exact now.2
      apply entries server id conn there
      -- an erasing thread has no entry in hand
      rintro rfl
      cases mark with
      | outside => exact allowed
      | inside other => simp [nextMark, touches, Mark.touched] at mine
      | found other user receiver => simp [takes, touches] at allowed
      | loose => exact allowed
    · have member_ := found_others left right mark _ server id conn mine member
      apply entries server id conn (inv.entry server id conn member_)
      rintro rfl
      -- the eraser is inside the critical section of this server, so nobody else is
      have holds : mark.holds = some server := by
        cases mark with
        | outside => exact allowed.elim
        | inside other =>
            obtain ⟨_, rfl⟩ := allowed server rfl
            rfl
        | found other user receiver => simp [takes, touches] at allowed
        | loose => exact allowed.elim
      have other : Mark.found server id conn ∈ left ++ right := by
        rcases List.mem_append.mp member with before | behind
        · exact List.mem_append_left _ before
        · rcases List.mem_cons.mp behind with same | rest
          · exact absurd same.symm mine
          · exact List.mem_append_right _ rest
      exact holder_alone shared owners left right mark _ server inv holds other rfl

theorem operation_inv (job : Job S C) (shared after : Shared S C) (owners : Owners S)
    (left right : List (Mark S C))
    (mark : Mark S C) (op : Op S C) (choice : Int) (result : Res op) (allowed : takes job mark op)
    (inv : Inv shared owners (left ++ mark :: right))
    (performed : perform choice op shared = some (result, after)) :
    Inv after (note left.length op owners) (left ++ nextMark mark op result :: right) := by
  cases op with
  | lock server =>
      apply lock_inv shared after owners left right mark server choice
      · cases mark with
        | outside => rfl
        | inside other => exact allowed.elim
        | found other id conn => exact allowed.elim
        | loose => rfl
      · exact inv
      · exact performed
  | unlock server =>
      apply unlock_inv shared after owners left right mark server choice
      · cases mark with
        | outside => exact allowed.elim
        | inside other => exact congrArg some allowed.symm
        | found other id conn => exact congrArg some allowed.symm
        | loose => exact allowed.elim
      · exact inv
      · exact performed
  | _ =>
      exact open_inv job shared after owners left right mark _ choice result (by simp)
        (by simp) allowed inv performed

omit [DecidableEq C] in
theorem spawn_inv (job : Job S C) (shared after : Shared S C) (owners : Owners S)
    (marks : List (Mark S C))
    (inv : Inv shared owners marks) (launched : launch job shared = some after) :
    Inv after owners (marks ++ [.outside]) := by
  obtain ⟨relay, rfl⟩ := launch_frame job shared after launched
  refine ⟨fun server thread => ?_, inv.mutex, fun server id conn member => ?_⟩
  · rw [inv.owner]
    rcases Nat.lt_trichotomy thread marks.length with inside | rfl | beyond
    · rw [List.getElem?_append_left inside]
    · simp [Mark.holds]
    · rw [List.getElem?_eq_none (Nat.le_of_lt beyond), List.getElem?_eq_none (by simp; omega)]
  · rcases List.mem_append.mp member with before | new
    · exact inv.entry server id conn before
    · cases List.mem_singleton.mp new

/-- Where the handlers stand, and nobody has an entry in hand without the mutex. -/
def Kept (tight : Bool) (shared : Shared S C) (owners : Owners S)
    (marks : List (Mark S C)) : Prop :=
  Inv shared owners marks ∧ (tight = true → Mark.loose ∉ marks)

/-- One step; where the two handlers stay away from the map, nobody becomes loose. -/
theorem step_kept (tight : Bool) (state after : State S C) (action : Action (Job S C) Int)
    (kept : Noted monitor final (Kept tight) state) (avoids : tight = true → Avoids state action)
    (stepped : step state action = some after) : Noted monitor final (Kept tight) after := by
  apply watch_noted servers note monitor final (Kept tight)
    (fun state action => tight = true → Avoids state action)
  · rintro watched marks job shared ⟨inv, strict⟩ launched
    refine ⟨.outside, program_follows job, spawn_inv job _ shared _ marks inv launched,
      fun here member => ?_⟩
    rcases List.mem_append.mp member with before | new
    · exact strict here before
    · cases List.mem_singleton.mp new
  · rintro watched left right mark job op choice result last about guarded allowed
      ⟨inv, strict⟩ performed
    refine ⟨operation_inv job _ last _ left right mark op choice result allowed inv performed,
      fun here member => ?_⟩
    have before := strict here
    rcases List.mem_append.mp member with inLeft | behind
    · exact before (List.mem_append_left _ inLeft)
    · rcases List.mem_cons.mp behind with same | inRight
      · have away : bare job = true → touches op = none := guarded here (job, op) about
        have stays : mark ≠ .loose := by
          rintro rfl
          exact before (by simp)
        exact loose_source job mark op result allowed stays away same.symm
      · exact before (List.mem_append_right _ (List.mem_cons_of_mem _ inRight))
  · exact kept
  · exact avoids
  · exact stepped

omit [DecidableEq S] [DecidableEq C] in
theorem takes_touch (job : Job S C) (mark : Mark S C) (op : Op S C) (server : S)
    (allowed : takes job mark op)
    (touch : touches op = some server) :
    mark.holds = some server ∧ bare job = false ∨ mark.holds = none ∧ bare job = true := by
  have looks : (touches op).isSome := by simp [touch]
  cases mark with
  | outside =>
      right
      cases op with
      | find place id purpose => exact ⟨rfl, allowed rfl⟩
      | findConn place conn => exact ⟨rfl, allowed rfl⟩
      | insertConn place id conn => exact ⟨rfl, allowed rfl⟩
      | eraseConn place id => exact allowed.elim
      | _ => simp [touches] at touch
  | inside other =>
      left
      have mine : bare job = false ∧ server = other := by
        cases op with
        | find place id purpose => exact allowed server touch
        | findConn place conn => exact allowed server touch
        | insertConn place id conn => exact allowed server touch
        | eraseConn place id => exact allowed server touch
        | _ => simp [touches] at touch
      exact ⟨congrArg some mine.2.symm, mine.1⟩
  | found other id conn => cases op <;> simp_all [takes, touches]
  | loose =>
      right
      refine ⟨rfl, ?_⟩
      cases op with
      | find place id purpose => exact allowed
      | findConn place conn => exact allowed
      | insertConn place id conn => exact allowed
      | eraseConn place id => exact allowed.elim
      | _ => simp [touches] at touch

omit [DecidableEq S] [DecidableEq C] in
theorem begins_kept (tight : Bool) (first : State S C) (begins : Begins first) :
    Noted monitor final (Kept tight) first := by
  refine ⟨[], ?_, ⟨fun server thread => ?_, fun server => ?_, by simp⟩, fun _ => by simp⟩
  · rw [begins.idle]
    exact List.Forall₂.nil
  · simp [begins.nobody]
  · simp [begins.nobody, begins.free]

omit [DecidableEq S] [DecidableEq C] in
theorem guards_avoids (state : State S C) (action : Action (Job S C) Int)
    (kept : Noted monitor final (Kept false) state) (guards : Guards state action) :
    Avoids state action := by
  cases action with
  | spawn job => trivial
  | step thread choice =>
      rintro ⟨job, op⟩ about open_
      obtain ⟨marks, tied, inv, _⟩ := kept
      obtain ⟨mark, here, allowed⟩ :=
        tied_about monitor final marks state.pool tied thread job op about
      cases touch : touches op with
      | none => rfl
      | some server =>
          have own := (guards job op about).1 server touch
          rw [inv.owner, here] at own
          rcases takes_touch job mark op server allowed touch with ⟨_, strict⟩ | ⟨nothing, _⟩
          · simp [strict] at open_
          · simp [nothing] at own

omit [DecidableEq S] [DecidableEq C] in
theorem avoids_guards (state : State S C) (action : Action (Job S C) Int)
    (kept : Noted monitor final (Kept true) state) (avoids : Avoids state action) :
    Guards state action := by
  cases action with
  | spawn job => trivial
  | step thread choice =>
      intro job op about
      obtain ⟨marks, tied, inv, strict⟩ := kept
      obtain ⟨mark, here, allowed⟩ :=
        tied_about monitor final marks state.pool tied thread job op about
      have away : bare job = true → touches op = none := avoids (job, op) about
      constructor
      · intro server touch
        rcases takes_touch job mark op server allowed touch with ⟨holds, _⟩ | ⟨_, open_⟩
        · rw [inv.owner, here]
          exact holds
        · simp [away open_] at touch
      · cases op with
        | forward id conn mail =>
            cases mark with
            | outside => exact allowed.elim
            | inside other => exact allowed.elim
            | found other user receiver =>
                obtain ⟨rfl, rfl, rfl⟩ := allowed
                exact inv.entry _ _ _ (List.mem_of_getElem? here)
            | loose => exact absurd (List.mem_of_getElem? here) (strict rfl)
        | _ => trivial

/-- The map is used under the mutex, and every send goes through an entry that is
there, in just the runs without an insert of login and a look-up of groupChat. -/
theorem mutex_guards (first : State S C) (trace : List (Action (Job S C) Int))
    (begins : Begins first) :
    Transition.Guarded step Guards first trace ↔ Transition.Guarded step Avoids first trace := by
  constructor
  · apply Transition.guarded_implies step Guards Avoids (Noted monitor final (Kept false))
    · intro before action after kept _ stepped
      exact step_kept false before after action kept (by simp) stepped
    · exact fun state action kept guards => guards_avoids state action kept guards
    · exact begins_kept false first begins
  · apply Transition.guarded_implies step Avoids Guards (Noted monitor final (Kept true))
    · intro before action after kept avoids stepped
      exact step_kept true before after action kept (fun _ => avoids) stepped
    · exact fun state action kept avoids => avoids_guards state action kept avoids
    · exact begins_kept true first begins

end Invariant

/-! One server; user 1 is logged in, and a member of group 5. -/

def logged : State Unit Nat where
  pool :=
    { shared := { (started oneUser []).shared with
        userConnMap := fun _ => AList.insert 1 7 ∅
        groupuser := [(5, 1, .normal)] }
      threads := [] }
  notes := fun _ => none

theorem logged_begins : Begins logged := ⟨rfl, fun _ => rfl, fun _ => rfl⟩

/-- A text and a LOGINOUT of its receiver. -/
def overlapping : List (Action (Job Unit Nat) Int) :=
  [.spawn (.oneChat () 8 1 [5]), .spawn (.loginout () 7 1), .step 0 0, .step 0 0, .step 1 0,
    .step 0 0] ++ steps 0 1 ++
    steps 1 6

theorem mutex_guards_overlapping : Transition.Guarded step Guards logged overlapping := by
  apply (mutex_guards logged overlapping logged_begins).mpr
  decide +kernel

/-- A group chat finds the entry, a LOGINOUT erases it, and the group chat sends. -/
def erased : List (Action (Job Unit Nat) Int) :=
  [.spawn (.groupChat () 8 2 5 [5]), .spawn (.loginout () 7 1)] ++ steps 0 2 ++ steps 1 6

/-- The entry a thread is about to send through. -/
def sending (state : State Unit Nat) (thread : Nat) : Option (Int × Nat) :=
  (state.pool.aboutTo thread).bind fun entry =>
    match entry.2 with
    | .forward id conn _ => some (id, conn)
    | _ => none

theorem mutex_unguarded : ∃ last, Transition.run step logged erased = some last ∧
    sending last 0 = some (1, 7) ∧
    (last.pool.shared.userConnMap ()).lookup 1 = none ∧
      ¬ Transition.Guarded step Guards logged (erased ++ [.step 0 0]) := by
  have reached : (Transition.run step logged erased).map (fun last => decide
      (sending last 0 = some (1, 7) ∧ (last.pool.shared.userConnMap ()).lookup 1 = none)) =
        some true := by
    decide +kernel
  obtain ⟨last, ran, state⟩ := Option.map_eq_some_iff.mp reached
  obtain ⟨sends, gone⟩ := of_decide_eq_true state
  refine ⟨last, ran, sends, gone, fun guarded => ?_⟩
  have guards := (Transition.guarded_append step Guards logged last erased _ guarded ran).2.1
  obtain ⟨⟨job, op⟩, about, entry⟩ := Option.bind_eq_some_iff.mp sends
  have fresh := (guards job op about).2
  cases op with
  | forward id conn mail =>
      simp only [Option.some.injEq, Prod.mk.injEq] at entry
      obtain ⟨rfl, rfl⟩ := entry
      -- there is one server
      have there : (last.pool.shared.userConnMap ()).lookup 1 = some 7 := fresh
      rw [gone] at there
      cases there
  | _ => cases entry

end MuduoChat.ConnMutex
