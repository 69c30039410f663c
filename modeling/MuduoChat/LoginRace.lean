import Mathlib.Data.Fintype.Defs
import MuduoChat.ChatService

/-!
Logins of one account that overlap, on any servers. Each asks the database for the
account and stores 'online' three steps later, so a second login that asks in
between is accepted too; and what a map still has of the account, an accepted login
leaves there. In every run in which no login is accepted while another one has not
yet stored 'online', or while the account is mapped to another connection, at most
one is accepted, and the account is mapped to its connection.
-/

namespace MuduoChat.LoginRace
open Interleaving ChatService

variable {S C : Type}

/-- A login of the account that was accepted and has not yet stored 'online'. -/
def underWay (id : Int) : Job S C × Task S C Unit → Bool
  | (.login _ _ user _, program) =>
      match program.head with
      | some (.insertConn _ _ _) => user = id
      | some (.subscribe _ _) => user = id
      | some (.updateState _ _) => user = id
      | _ => false
  | _ => false

/-- What the servers map the account to is at most this connection. -/
def FreeFor (id : Int) (shared : Shared S C) (server : S) (conn : C) : Prop :=
  ∀ other, ∀ receiver ∈ (shared.userConnMap other).lookup id, other = server ∧ receiver = conn

instance [Fintype S] [DecidableEq S] [DecidableEq C] (id : Int) (shared : Shared S C) (server : S)
    (conn : C) :
    Decidable (FreeFor id shared server conn) := inferInstanceAs (Decidable (∀ _, ∀ _ ∈ _, _ ∧ _))

/-- Only logins run, and one that would be accepted does not ask for the account
while another one is under way or the account is mapped to another connection. -/
def OneAtATime (id : Int) (pool : Servers S C) : Action (Job S C) Int → Prop
  | .spawn (.login _ _ _ _) => True
  | .spawn _ => False
  | .step thread _ =>
      match pool.aboutTo thread with
      | some (.login server conn user pwd, .queryUser _) =>
          user = id → accepts id pwd (findUser pool.shared id) →
          (∀ entry ∈ pool.others thread, underWay id entry = false) ∧
            FreeFor id pool.shared server conn
      | _ => True

instance [Fintype S] [DecidableEq S] [DecidableEq C] (id : Int) (pool : Servers S C)
    (action : Action (Job S C) Int) :
    Decidable (OneAtATime id pool action) := by
  unfold OneAtATime
  split
  · infer_instance
  · infer_instance
  · split <;> infer_instance

/-! Where a login stands. -/

inductive Stage where
  | asking
  | checked
  | mapped
  | subscribed
  | online
  | refused
  | done
  deriving DecidableEq

structure Mark (S C : Type) where
  server : S
  conn : C
  id : Int
  stage : Stage

def takes (server : S) (conn : C) (id : Int) : Stage → Op S C → Prop
  | .asking, .queryUser user => user = id
  | .checked, .insertConn at_ user receiver => at_ = server ∧ user = id ∧ receiver = conn
  | .mapped, .subscribe _ _ => True
  | .subscribed, .updateState user state => user = id ∧ state = .online
  | .online, .queryMsgs _ => True
  | .online, .removeMsgs _ => True
  | .online, .queryFriends _ => True
  | .online, .queryGroups _ => True
  | .online, .queryMembers _ => True
  | .online, .reply receiver (.loggedIn user _ _ _ _) => receiver = conn ∧ user = id
  | .refused, .reply _ (.loginFailed _ _) => True
  | _, _ => False

def nextStage (id : Int) (pwd : Text) (stage : Stage) : (op : Op S C) → Res op → Stage
  | .queryUser _, user => if accepts id pwd user then .checked else .refused
  | .insertConn .., _ => .mapped
  | .subscribe .., _ => .subscribed
  | .updateState .., _ => .online
  | .reply .., _ => .done
  | _, _ => stage

def monitor : Job S C → Monitor (Op S C) Res (Mark S C)
  | .login server conn id pwd =>
      { allowed := fun mark op => mark.server = server ∧ mark.conn = conn ∧ mark.id = id ∧
          takes server conn id mark.stage op
        after := fun mark op result =>
          { mark with stage := nextStage id pwd mark.stage op result } }
  | _ => { allowed := fun _ _ => False, after := fun mark _ _ => mark }

def final (mark : Mark S C) : Prop := mark.stage = .done

theorem login_follows (server : S) (conn : C) (id : Int) (pwd : Text) :
    Tied monitor final ⟨server, conn, id, .asking⟩
      (.login server conn id pwd, program (.login server conn id pwd)) := by
  simp only [Tied, program, login, queryUser, reply, updateState, call_bind, follows_act]
  refine ⟨⟨rfl, rfl, rfl, rfl⟩, fun user => ?_⟩
  split
  · rename_i known
    split
    · rename_i online
      have refused : ¬ accepts id pwd user := fun accepted => accepted.2.2 online
      simp [monitor, nextStage, refused, takes, final]
    · rename_i offline
      have accepted : accepts id pwd user := ⟨known.1, known.2, offline⟩
      have moved : (monitor (.login server conn id pwd)).after ⟨server, conn, id, .asking⟩
          (.queryUser id) user =
          ⟨server, conn, id, .checked⟩ := by
        simp [monitor, nextStage, accepted]
      rw [moved]
      refine ⟨⟨rfl, rfl, rfl, rfl, rfl, rfl⟩, fun _ => ⟨⟨rfl, rfl, rfl, trivial⟩, fun _ =>
        ⟨⟨rfl, rfl, rfl, known.1, rfl⟩, fun _ => ?_⟩⟩⟩
      rw [follows_bind]
      refine follows_mono _ _ _ _ (fun vec last same => ?_) _ (takeOffline_keep _ _ id
        (fun _ => ⟨⟨rfl, rfl, rfl, trivial⟩, rfl⟩) fun _ => ⟨⟨rfl, rfl, rfl, trivial⟩, rfl⟩)
      subst same
      simp only [queryGroups, call_bind, act_bind, follows_act, follows_bind]
      refine ⟨⟨rfl, rfl, rfl, trivial⟩, fun friends => ⟨⟨rfl, rfl, rfl, trivial⟩, fun groups => ?_⟩⟩
      refine follows_mono _ _ _ _ (fun all last same => ?_) _ (withMembers_keep _ _ groups
        fun _ _ => ⟨⟨rfl, rfl, rfl, trivial⟩, rfl⟩)
      subst same
      exact ⟨⟨rfl, rfl, rfl, rfl, known.1⟩, fun _ => rfl⟩
  · rename_i unknown
    have refused : ¬ accepts id pwd user := fun accepted => unknown ⟨accepted.1, accepted.2.1⟩
    simp [monitor, nextStage, refused, takes, final]

/-! The invariant. -/

/-- A login of the account that was accepted and has not yet answered. -/
def claims (id : Int) (mark : Mark S C) : Bool :=
  mark.id = id ∧ (mark.stage = .checked ∨ mark.stage = .mapped ∨ mark.stage = .subscribed ∨
    mark.stage = .online)

/-- One that has put its connection into the map. -/
def entered (id : Int) (mark : Mark S C) : Bool :=
  mark.id = id ∧ (mark.stage = .mapped ∨ mark.stage = .subscribed ∨ mark.stage = .online)

/-- One that has not yet stored 'online'. -/
def early (id : Int) (mark : Mark S C) : Bool :=
  mark.id = id ∧ (mark.stage = .checked ∨ mark.stage = .mapped ∨ mark.stage = .subscribed)

def succeeded (id : Int) (entry : C × Ack) : Bool :=
  match entry.2 with
  | .loggedIn user _ _ _ _ => user = id
  | _ => false

/-- An entry the insert finds there is that of the connection itself. -/
theorem insertNew_free (entries : AList fun _ : Int => C) (id : Int) (conn : C)
    (free : ∀ receiver ∈ entries.lookup id, receiver = conn) :
    (insertNew entries id conn).lookup id = some conn := by
  cases held : entries.lookup id with
  | none => exact insertNew_absent entries id conn held
  | some receiver =>
      have there : id ∈ entries := AList.lookup_isSome.mp (by simp [held])
      rw [insertNew, if_pos there, held, free receiver held]

section Invariant
variable [DecidableEq S]

/-- The account is mapped on this server, to this connection, and on no other. -/
def Owns (id : Int) (shared : Shared S C) (server : S) (conn : C) : Prop :=
  ∀ other, (shared.userConnMap other).lookup id = if other = server then some conn else none

structure Inv (id : Int) (shared : Shared S C) (marks : List (Mark S C)) : Prop where
  known : ∃ row, shared.user.lookup id = some row
  single : marks.countP (claims id) + shared.replies.countP (succeeded id) ≤ 1
  waiting : (findUser shared id).state ≠ .online →
    shared.replies.countP (succeeded id) = 0 ∧ ∀ mark ∈ marks, claims id mark = true →
      early id mark = true
  free : ∀ mark ∈ marks, early id mark = true → entered id mark = false →
    FreeFor id shared mark.server mark.conn
  mapped : ∀ mark ∈ marks, entered id mark = true → Owns id shared mark.server mark.conn
  replied : ∀ entry ∈ shared.replies, succeeded id entry = true →
    ∃ server, Owns id shared server entry.1

omit [DecidableEq S] in
theorem entered_claims (id : Int) (mark : Mark S C) (here : entered id mark = true) :
    claims id mark = true := by
  simp only [entered, claims, decide_eq_true_eq] at here ⊢
  exact ⟨here.1, Or.inr here.2⟩

omit [DecidableEq S] in
theorem early_claims (id : Int) (mark : Mark S C) (here : early id mark = true) :
    claims id mark = true := by
  simp only [early, claims, decide_eq_true_eq] at here ⊢
  exact ⟨here.1, by rcases here.2 with stage | stage | stage <;> simp [stage]⟩

section Operations
variable (id : Int) (shared : Shared S C) (left right : List (Mark S C)) (mark : Mark S C)
  (inv : Inv id shared (left ++ mark :: right))
include inv

/-- A step that changes neither what is recorded of the account nor the login's
part in it. -/
theorem inv_frame (other : Shared S C) (next : Mark S C)
    (user : other.user.lookup id = shared.user.lookup id)
    (maps : ∀ server, (other.userConnMap server).lookup id = (shared.userConnMap server).lookup id)
    (replies : ∀ entry, succeeded id entry = true →
      (entry ∈ other.replies ↔ entry ∈ shared.replies))
    (count : other.replies.countP (succeeded id) = shared.replies.countP (succeeded id))
    (same : claims id next = claims id mark ∧ entered id next = entered id mark ∧
      early id next = early id mark)
    (owner : next.server = mark.server ∧ next.conn = mark.conn) :
    Inv id other (left ++ next :: right) := by
  obtain ⟨known, single, waiting, free, mapped, replied⟩ := inv
  have owns : ∀ server conn, Owns id other server conn ↔ Owns id shared server conn := by
    intro server conn
    simp only [Owns, maps]
  have frees : ∀ server conn, FreeFor id other server conn ↔ FreeFor id shared server conn := by
    intro server conn
    simp only [FreeFor, maps]
  have state : (findUser other id).state = (findUser shared id).state := by
    simp only [findUser, user]
  refine ⟨by rw [user]; exact known, ?_, ?_, ?_, ?_, ?_⟩
  · rw [count]
    simp only [List.countP_append, List.countP_cons, same.1] at single ⊢
    exact single
  · rw [state, count]
    intro offline
    obtain ⟨none_, all⟩ := waiting offline
    refine ⟨none_, (forall_replace
      (fun mark => claims id mark = true → early id mark = true) left right next).mpr ?_⟩
    have old := (forall_replace (fun mark => claims id mark = true →
      early id mark = true) left right mark).mp all
    rw [same.1, same.2.2]
    exact old
  · simp only [frees]
    refine (forall_replace (fun mark => early id mark = true → entered id mark = false →
      FreeFor id shared mark.server mark.conn) left right next).mpr ?_
    have old := (forall_replace (fun mark => early id mark = true → entered id mark = false →
      FreeFor id shared mark.server mark.conn) left right mark).mp free
    rw [same.2.1, same.2.2, owner.1, owner.2]
    exact old
  · simp only [owns]
    refine (forall_replace (fun mark => entered id mark = true →
      Owns id shared mark.server mark.conn) left right
      next).mpr ?_
    have old := (forall_replace (fun mark => entered id mark = true →
      Owns id shared mark.server mark.conn) left
      right mark).mp mapped
    rw [same.2.1, owner.1, owner.2]
    exact old
  · intro entry member success
    simp only [owns]
    exact replied entry ((replies entry success).mp member) success

/-- While one login claims the account, no other does and none has succeeded. -/
theorem alone (here : claims id mark = true) :
    (∀ other ∈ left ++ right, claims id other = false) ∧
    shared.replies.countP (succeeded id) = 0 := by
  have single := inv.single
  refine ⟨countP_alone (claims id) left right mark here (by omega), ?_⟩
  simp only [List.countP_append, List.countP_cons, here, if_true] at single
  omega

/-- A claim moves on: no other login is touched. -/
theorem claim_moves (other : Shared S C) (next : Mark S C) (here : claims id mark = true)
    (stays : claims id next = true) (known : ∃ row, other.user.lookup id = some row)
    (replies : other.replies = shared.replies)
    (offline : (findUser other id).state ≠ .online → early id next = true)
    (inMap : entered id next = true) (owns : Owns id other next.server next.conn) :
    Inv id other (left ++ next :: right) := by
  obtain ⟨unclaimed, unsuccessful⟩ := alone id shared left right mark inv here
  have unentered : ∀ other ∈ left ++ right, entered id other = false := by
    intro other member
    by_contra inside
    have claiming := entered_claims id other (by simpa using inside)
    simp [unclaimed other member] at claiming
  have unmoved : ∀ other ∈ left ++ right, early id other = false := by
    intro other member
    by_contra inside
    have claiming := early_claims id other (by simpa using inside)
    simp [unclaimed other member] at claiming
  refine ⟨known, ?_, fun down => ⟨by rw [replies]; exact unsuccessful, ?_⟩, ?_, ?_, ?_⟩
  · have single := inv.single
    rw [replies]
    simp only [List.countP_append, List.countP_cons, here, stays] at single ⊢
    exact single
  · refine (forall_replace (fun mark => claims id mark = true →
      early id mark = true) left right next).mpr
      ⟨fun _ => offline down, fun other member claiming => ?_⟩
    rw [unclaimed other member] at claiming
    simp at claiming
  · refine (forall_replace (fun mark => early id mark = true → entered id mark = false →
      FreeFor id other mark.server mark.conn) left right next).mpr
        ⟨by simp [inMap], fun mark member soon => ?_⟩
    rw [unmoved mark member] at soon
    simp at soon
  · refine (forall_replace (fun mark => entered id mark = true →
      Owns id other mark.server mark.conn) left right
      next).mpr ⟨fun _ => owns, fun mark member inside => ?_⟩
    rw [unentered mark member] at inside
    simp at inside
  · rw [replies]
    intro entry member success
    have none_ := List.countP_eq_zero.mp unsuccessful entry member
    exact absurd success none_

/-- The account is offline and nobody else is under way: this login may be accepted. -/
theorem ask_inv (server : S) (conn : C) (pwd : Text) (here : mark = ⟨server, conn, id, .asking⟩)
    (unclaimed : accepts id pwd (findUser shared id) →
      (∀ other ∈ left ++ right, early id other = false) ∧ FreeFor id shared server conn) :
    Inv id shared (left ++ ⟨server, conn, id, if accepts id pwd (findUser shared id) then
      .checked else .refused⟩ ::
      right) := by
  have frame := inv_frame id shared left right mark inv shared
  by_cases accepted : accepts id pwd (findUser shared id)
  · simp only [accepted, if_true]
    obtain ⟨known, single, waiting, free, mapped, replied⟩ := inv
    obtain ⟨none_, all⟩ := waiting accepted.2.2
    obtain ⟨unmoved, mine⟩ := unclaimed accepted
    -- every claim before 'online' is stored is an early one, and there is no early one
    have nobody : ∀ other ∈ left ++ right, claims id other = false := by
      intro other member
      by_contra claiming
      have soon := ((forall_replace (fun mark => claims id mark = true →
        early id mark = true) left right mark).mp
        all).2 other member (by simpa using claiming)
      rw [unmoved other member] at soon
      simp at soon
    have unentered : ∀ other ∈ left ++ right, entered id other = false := by
      intro other member
      by_contra inside
      have claiming := entered_claims id other (by simpa using inside)
      simp [nobody other member] at claiming
    refine ⟨known, ?_, fun _ => ⟨none_, ?_⟩, ?_, ?_, replied⟩
    · have zero_left : left.countP (claims id) = 0 :=
        List.countP_eq_zero.mpr fun other member =>
          by simp [nobody other (List.mem_append_left _ member)]
      have zero_right : right.countP (claims id) = 0 :=
        List.countP_eq_zero.mpr fun other member =>
          by simp [nobody other (List.mem_append_right _ member)]
      rw [List.countP_append, List.countP_cons, zero_left, zero_right, none_]
      split <;> omega
    · refine (forall_replace (fun mark => claims id mark = true →
        early id mark = true) left right _).mpr
        ⟨by simp [early], fun other member claiming => ?_⟩
      rw [nobody other member] at claiming
      simp at claiming
    · refine (forall_replace (fun mark => early id mark = true → entered id mark = false →
        FreeFor id shared mark.server mark.conn) left right _).mpr
          ⟨fun _ _ => mine, fun other member soon => ?_⟩
      rw [unmoved other member] at soon
      simp at soon
    · refine (forall_replace (fun mark => entered id mark = true →
        Owns id shared mark.server mark.conn) left right
        _).mpr ⟨by simp [entered], fun other member inside => ?_⟩
      rw [unentered other member] at inside
      simp at inside
  · simp only [accepted, if_false]
    refine frame _ rfl (fun _ => rfl) (fun _ _ => Iff.rfl) rfl ?_ ?_
    · rw [here]
      simp [claims, entered, early]
    · rw [here]
      exact ⟨rfl, rfl⟩

theorem insert_inv (server : S) (conn : C) (here : mark = ⟨server, conn, id, .checked⟩) :
    let entries := insertNew (shared.userConnMap server) id conn
    Inv id { shared with userConnMap := Function.update shared.userConnMap server entries }
      (left ++ ⟨server, conn, id, .mapped⟩ :: right) := by
  have claiming : claims id mark = true := by simp [here, claims]
  have free := inv.free mark (by simp) (by simp [here, early]) (by simp [here, entered])
  rw [here] at free
  refine claim_moves id shared left right mark inv _ _ claiming (by simp [claims]) inv.known rfl
    (fun _ => by simp [early]) (by simp [entered]) fun other => ?_
  by_cases same : other = server
  · subst same
    simpa using insertNew_free (shared.userConnMap other) id conn fun receiver mapped =>
      (free other receiver mapped).2
  · have unmapped : (shared.userConnMap other).lookup id = none :=
      Option.eq_none_iff_forall_not_mem.mpr fun receiver mapped =>
        same (free other receiver mapped).1
    simp [same, unmapped]

theorem subscribe_inv (server : S) (conn : C) (other : Shared S C)
    (here : mark = ⟨server, conn, id, .mapped⟩)
    (same : other.user = shared.user ∧ other.userConnMap = shared.userConnMap ∧
      other.replies = shared.replies) :
    Inv id other (left ++ ⟨server, conn, id, .subscribed⟩ :: right) := by
  obtain ⟨user, maps, replies⟩ := same
  refine inv_frame id shared left right mark inv other _ (by rw [user]) (fun _ => by rw [maps])
    (fun _ _ => by rw [replies]) (by rw [replies]) ?_ ?_
  · simp [here, claims, entered, early]
  · simp [here]

theorem online_inv (server : S) (conn : C) (here : mark = ⟨server, conn, id, .subscribed⟩) :
    Inv id { shared with user := setUserState shared.user id .online }
      (left ++ ⟨server, conn, id, .online⟩ :: right) := by
  obtain ⟨row, known⟩ := inv.known
  have owns := inv.mapped mark (by simp) (by simp [here, entered])
  rw [here] at owns
  refine claim_moves id shared left right mark inv _ ⟨server, conn, id, .online⟩
    (by simp [here, claims]) (by simp [claims])
    ?_ rfl (fun offline => ?_) (by simp [entered]) owns
  · rw [setUserState_lookup, known]
    exact ⟨_, rfl⟩
  · simp [findUser, setUserState_lookup, known] at offline

/-- The answer takes the place of the claim. -/
theorem success_inv (server : S) (conn : C) (ack : Ack) (here : mark = ⟨server, conn, id, .online⟩)
    (success : succeeded id (conn, ack) = true) :
    Inv id { shared with replies := shared.replies ++ [(conn, ack)] }
      (left ++ ⟨server, conn, id, .done⟩ :: right) := by
  have claiming : claims id mark = true := by simp [here, claims]
  obtain ⟨unclaimed, unsuccessful⟩ := alone id shared left right mark inv claiming
  obtain ⟨known, single, waiting, free, mapped, replied⟩ := inv
  have owns := mapped mark (by simp) (by simp [here, entered])
  rw [here] at owns
  have one : (shared.replies ++ [(conn, ack)]).countP (succeeded id) = 1 := by
    simp [List.countP_append, unsuccessful, success]
  have done : claims id (⟨server, conn, id, .done⟩ : Mark S C) = false := by simp [claims]
  refine ⟨known, ?_, fun offline => ?_, ?_, ?_, ?_⟩
  · simp only [one, List.countP_append, List.countP_cons, done, claiming, if_true] at single ⊢
    simp only [Bool.false_eq_true, if_false]
    omega
  · -- an accepted login that has stored 'online' is not early
    have soon := (waiting offline).2 mark (by simp) claiming
    simp [here, early] at soon
  · refine (forall_replace (fun mark => early id mark = true → entered id mark = false →
      FreeFor id shared mark.server mark.conn) left right _).mpr
        ⟨by simp [early], fun other member soon => ?_⟩
    have claims_ := early_claims id other soon
    simp [unclaimed other member] at claims_
  · refine (forall_replace (fun mark => entered id mark = true →
      Owns id shared mark.server mark.conn) left right
      _).mpr ⟨by simp [entered], fun other member inside => ?_⟩
    have claims_ := entered_claims id other inside
    simp [unclaimed other member] at claims_
  · intro entry member _
    rcases List.mem_append.mp member with before | new
    · exact replied entry before ‹_›
    · rw [List.mem_singleton.mp new]
      exact ⟨server, owns⟩

/-- The other operations of an accepted login, and an answer that is no success. -/
theorem idle_inv (other : Shared S C) (next : Mark S C)
    (same : other.user.lookup id = shared.user.lookup id ∧
      ∀ server, (other.userConnMap server).lookup id = (shared.userConnMap server).lookup id)
    (replies : other.replies = shared.replies ∨ ∃ entry, succeeded id entry = false ∧
      other.replies = shared.replies ++ [entry])
    (part : next = mark ∨ (claims id mark = false ∧ claims id next = false ∧
      next.server = mark.server ∧
      next.conn = mark.conn)) : Inv id other (left ++ next :: right) := by
  have quiet : ∀ mark : Mark S C, claims id mark = false → entered id mark = false ∧
      early id mark = false := by
    intro mark none_
    constructor
    · by_contra inside
      simp [entered_claims id mark (by simpa using inside)] at none_
    · by_contra soon
      simp [early_claims id mark (by simpa using soon)] at none_
  refine inv_frame id shared left right mark inv other next same.1 same.2 ?_ ?_ ?_ ?_
  · intro entry success
    rcases replies with equal | ⟨new, failed, more⟩
    · rw [equal]
    · rw [more, List.mem_append, List.mem_singleton]
      refine ⟨fun member => member.elim (fun before => before) ?_, Or.inl⟩
      rintro rfl
      simp [failed] at success
  · rcases replies with equal | ⟨new, failed, more⟩
    · rw [equal]
    · simp [more, List.countP_append, failed]
  · rcases part with rfl | ⟨before, behind, _⟩
    · exact ⟨rfl, rfl, rfl⟩
    · exact ⟨by rw [before, behind], by rw [(quiet mark before).1, (quiet next behind).1],
        by rw [(quiet mark before).2, (quiet next behind).2]⟩
  · rcases part with rfl | ⟨_, _, owner⟩
    · exact ⟨rfl, rfl⟩
    · exact owner

end Operations

/-- Only an operation on the account itself changes what is recorded of it. -/
theorem record_frame [DecidableEq C] (id user : Int) (shared other : Shared S C) (server : S)
    (conn : C) (stage : Stage)
    (op : Op S C) (choice : Int) (result : Res op) (taken : takes server conn user stage op)
    (away : user ≠ id)
    (performed : perform choice op shared = some (result, other)) :
    (other.user.lookup id = shared.user.lookup id ∧
      ∀ server, (other.userConnMap server).lookup id = (shared.userConnMap server).lookup id) ∧
    (other.replies = shared.replies ∨ ∃ entry, succeeded id entry = false ∧
      other.replies = shared.replies ++ [entry]) := by
  cases op with
  | insertConn at_ account receiver =>
      simp only [perform, Option.some.injEq, Prod.mk.injEq, true_and] at performed
      subst performed
      have mine : account = user := by cases stage <;> simp_all [takes]
      refine ⟨⟨rfl, fun server => ?_⟩, Or.inl rfl⟩
      by_cases here : server = at_
      · subst here
        simp only [Function.update_self]
        exact insertNew_other _ account id receiver (by rw [mine]; exact Ne.symm away)
      · simp [here]
  | updateState account state =>
      simp only [perform, Option.some.injEq, Prod.mk.injEq, true_and] at performed
      subst performed
      have mine : account = user := by cases stage <;> simp_all [takes]
      refine ⟨⟨?_, fun _ => rfl⟩, Or.inl rfl⟩
      rw [setUserState_lookup]
      simp [mine, Ne.symm away]
  | reply receiver ack =>
      simp only [perform, Option.some.injEq, Prod.mk.injEq, true_and] at performed
      subst performed
      refine ⟨⟨rfl, fun _ => rfl⟩, Or.inr ⟨(receiver, ack), ?_, rfl⟩⟩
      cases ack <;> cases stage <;> simp_all [takes, succeeded]
  | _ =>
      have same : other.user = shared.user ∧ other.userConnMap = shared.userConnMap ∧
          other.replies = shared.replies := by
        cases stage <;> simp only [takes] at taken <;> grind [perform]
      exact ⟨⟨by rw [same.1], fun _ => by rw [same.2.1]⟩, Or.inl same.2.2⟩

theorem operation_inv [DecidableEq C] (id : Int) (shared other : Shared S C)
    (left right : List (Mark S C))
    (server : S) (conn : C) (user : Int) (pwd : Text) (stage : Stage) (op : Op S C) (choice : Int)
    (result : Res op)
    (inv : Inv id shared (left ++ ⟨server, conn, user, stage⟩ :: right))
    (taken : takes server conn user stage op)
    (unclaimed : op = .queryUser id → user = id → accepts id pwd (findUser shared id) →
      (∀ other ∈ left ++ right, early id other = false) ∧ FreeFor id shared server conn)
    (performed : perform choice op shared = some (result, other)) :
    Inv id other (left ++ ⟨server, conn, user, nextStage user pwd stage op result⟩ :: right) := by
  by_cases mine : user = id
  · subst mine
    have idle := idle_inv user shared left right _ inv other
    cases op with
    | queryUser account =>
        simp only [perform, Option.some.injEq, Prod.mk.injEq] at performed
        obtain ⟨rfl, rfl⟩ := performed
        have asks : stage = .asking ∧ account = user := by cases stage <;> simp_all [takes]
        obtain ⟨rfl, rfl⟩ := asks
        exact ask_inv account shared left right _ inv server conn pwd rfl (unclaimed rfl rfl)
    | insertConn at_ account receiver =>
        simp only [perform, Option.some.injEq, Prod.mk.injEq, true_and] at performed
        subst performed
        have enters : stage = .checked ∧ at_ = server ∧ account = user ∧ receiver = conn := by
          cases stage <;> simp_all [takes]
        obtain ⟨rfl, rfl, rfl, rfl⟩ := enters
        exact insert_inv account shared left right _ inv at_ receiver rfl
    | subscribe at_ channel =>
        have subscribes : stage = .mapped := by cases stage <;> simp_all [takes]
        subst subscribes
        exact subscribe_inv user shared left right _ inv server conn other rfl (by grind [perform])
    | updateState account state =>
        simp only [perform, Option.some.injEq, Prod.mk.injEq, true_and] at performed
        subst performed
        have stores : stage = .subscribed ∧ account = user ∧ state = .online := by
          cases stage <;> simp_all [takes]
        obtain ⟨rfl, rfl, rfl⟩ := stores
        exact online_inv account shared left right _ inv server conn rfl
    | reply receiver ack =>
        simp only [perform, Option.some.injEq, Prod.mk.injEq, true_and] at performed
        subst performed
        cases ack with
        | loggedIn account name vec friends groups =>
            have answers : stage = .online ∧ receiver = conn ∧ account = user := by
              cases stage <;> simp_all [takes]
            obtain ⟨rfl, rfl, rfl⟩ := answers
            exact success_inv account shared left right _ inv server receiver _ rfl
              (by simp [succeeded])
        | loginFailed errno errmsg =>
            have answers : stage = .refused := by cases stage <;> simp_all [takes]
            subst answers
            exact idle _ ⟨rfl, fun _ => rfl⟩ (Or.inr ⟨_, rfl, rfl⟩)
              (Or.inr ⟨by simp [claims], by simp [claims, nextStage], rfl, rfl⟩)
        | _ => cases stage <;> simp [takes] at taken
    -- the remaining operations leave the record, the entries and the replies as they are
    | _ =>
        have same : other.user = shared.user ∧ other.userConnMap = shared.userConnMap ∧
            other.replies = shared.replies := by
          cases stage <;> simp only [takes] at taken <;> grind [perform]
        exact idle _ ⟨by rw [same.1], fun _ => by rw [same.2.1]⟩ (Or.inl same.2.2) (Or.inl rfl)
  · obtain ⟨records, replies⟩ :=
      record_frame id user shared other server conn stage op choice result taken mine performed
    exact idle_inv id shared left right _ inv other _ records replies
      (Or.inr ⟨by simp [claims, mine], by simp [claims, mine], rfl, rfl⟩)

/-! Whole runs. -/

omit [DecidableEq S] in
theorem early_acts (server : S) (conn : C) (id : Int) (stage : Stage) (op : Op S C)
    (stages : stage = .checked ∨ stage = .mapped ∨ stage = .subscribed)
    (taken : takes server conn id stage op) :
    (∃ at_ user receiver, op = .insertConn at_ user receiver) ∨
    (∃ at_ channel, op = .subscribe at_ channel) ∨
      ∃ user state, op = .updateState user state := by
  rcases stages with rfl | rfl | rfl <;> cases op <;> simp [takes] at taken ⊢

omit [DecidableEq S] in
/-- A login that has not yet stored 'online' is about to take one of its three steps. -/
theorem nobody_early (marks : List (Mark S C)) (entries : List (Job S C × Task S C Unit))
    (tied : List.Forall₂ (Tied monitor final) marks entries) (id : Int)
    (quiet : ∀ entry ∈ entries, underWay id entry = false) :
    ∀ mark ∈ marks, early id mark = false := by
  intro mark member
  by_contra soon
  simp only [early, Bool.not_eq_false, decide_eq_true_eq] at soon
  obtain ⟨mine, stages⟩ := soon
  obtain ⟨⟨job, program⟩, inside, follows⟩ :=
    tied_thread monitor final marks entries tied mark member
  have unfinished : mark.stage ≠ .done := by
    rcases stages with stage | stage | stage <;> simp [stage]
  obtain ⟨op, next, taken⟩ := follows_head (monitor job) program (fun _ => final) mark
    (fun _ finished => unfinished finished) follows
  have silent := quiet _ inside
  cases job with
  | login server conn user pwd =>
      obtain ⟨_, _, same, takes_⟩ := taken
      have account : user = id := by rw [← same, mine]
      rcases early_acts server conn user mark.stage op stages takes_ with ⟨_, _, _, rfl⟩ |
        ⟨_, _, rfl⟩ | ⟨_, _, rfl⟩ <;>
        simp [underWay, next, account] at silent
  | _ => exact taken

theorem run_inv [DecidableEq C] (id : Int) (pool last : Servers S C)
    (trace : List (Action (Job S C) Int))
    (alone : Transition.Guarded servers.step (OneAtATime id) pool trace)
    (held : Held monitor final (Inv id) pool)
    (ran : Transition.run servers.step pool trace = some last) :
    Held monitor final (Inv id) last := by
  refine run_held servers monitor final (Inv id)
    (OneAtATime id) ?_ ?_ pool last trace alone held ran
  · intro pool marks job shared _ guarded inv launched
    cases job with
    | login server conn user pwd =>
        refine ⟨⟨server, conn, user, .asking⟩, login_follows server conn user pwd, ?_⟩
        cases launched
        obtain ⟨known, single, waiting, free, mapped, replied⟩ := inv
        have new : claims id (⟨server, conn, user, .asking⟩ : Mark S C) = false ∧
            entered id (⟨server, conn, user, .asking⟩ : Mark S C) = false := by
              simp [claims, entered]
        refine ⟨known, ?_, fun offline => ⟨(waiting offline).1, ?_⟩, ?_, ?_, replied⟩
        · simpa [List.countP_append, new.1] using single
        · exact forall_append_one (fun mark => claims id mark = true → early id mark = true) marks _
            (by simp [new.1]) (waiting offline).2
        · exact forall_append_one (fun mark => early id mark = true → entered id mark = false →
            FreeFor id pool.shared mark.server mark.conn) marks _ (by simp [early]) free
        · exact forall_append_one (fun mark => entered id mark = true →
            Owns id pool.shared mark.server mark.conn)
            marks _ (by simp [new.2]) mapped
    | _ => exact False.elim guarded
  · intro shared left right before behind mark job op next choice result after tiedLeft tiedRight
      allowed guarded inv performed
    cases job with
    | login server conn user pwd =>
        obtain ⟨at_, receiver, account, stage⟩ := mark
        obtain ⟨rfl, rfl, rfl, taken⟩ := allowed
        refine operation_inv id shared after left right at_ receiver account pwd stage op choice
          result inv taken ?_
          performed
        rintro rfl mine accepted
        simp only [OneAtATime, aboutTo_split] at guarded
        obtain ⟨quiet, free⟩ := guarded mine accepted
        rw [others_split] at quiet
        exact ⟨nobody_early (left ++ right) (before ++ behind)
          (List.rel_append tiedLeft tiedRight) id quiet, free⟩
    | _ => exact False.elim allowed

/-- A registered account that is offline, before any login. -/
structure Offline (id : Int) (pool : Servers S C) : Prop where
  known : ∃ row, pool.shared.user.lookup id = some row ∧ row.state ≠ .online
  unanswered : pool.shared.replies = []
  nobody : pool.threads = []

/-- At most one login of the account is answered with errno 0, and the account is
mapped to its connection, on one server. -/
def OneSession (id : Int) (pool : Servers S C) : Prop :=
  pool.shared.replies.countP (succeeded id) ≤ 1 ∧
    ∀ entry ∈ pool.shared.replies, succeeded id entry = true →
      ∃ server, Owns id pool.shared server entry.1

/-- In every run of logins on any servers in which none that is accepted asks for the
account while another one has not yet stored 'online', or while the account is
mapped to another connection. -/
theorem one_session [DecidableEq C] (id : Int) (pool last : Servers S C)
    (trace : List (Action (Job S C) Int))
    (offline : Offline id pool) (alone : Transition.Guarded servers.step (OneAtATime id) pool trace)
    (ran : Transition.run servers.step pool trace = some last) : OneSession id last := by
  obtain ⟨⟨row, known, _⟩, unanswered, nobody⟩ := offline
  have begun : Held monitor final (Inv id) pool := by
    refine ⟨[], by rw [nobody]; exact List.Forall₂.nil, ⟨row, known⟩, ?_, ?_, ?_, ?_, ?_⟩ <;>
      simp [unanswered]
  obtain ⟨marks, _, inv⟩ := run_inv id pool last trace alone begun ran
  have single := inv.single
  exact ⟨by omega, inv.replied⟩

end Invariant

/-- Two servers and one user, who is offline. -/
def cluster : Servers Bool Nat := started oneUser []

theorem cluster_offline : Offline 1 cluster :=
  ⟨⟨⟨[97], [120], .offline⟩, rfl, by decide⟩, rfl, rfl⟩

def successes (pool : Servers Bool Nat) : Nat := pool.shared.replies.countP (succeeded 1)

/-- The second login asks when the first one has stored 'online'. -/
def oneAfterTheOther : List (Action (Job Bool Nat) Int) :=
  .spawn (.login true 7 1 [120]) :: steps 0 4 ++ .spawn (.login false 8 1 [120]) :: steps 1 2 ++
    steps 0 4

theorem one_session_refused :
    ∃ last, Transition.run servers.step cluster oneAfterTheOther = some last ∧ Quiet last ∧
      successes last = 1 ∧
      OneSession 1 last := by
  have reached : (Transition.run servers.step cluster oneAfterTheOther).map (fun pool =>
      decide (Quiet pool ∧ successes pool = 1)) = some true := by decide +kernel
  obtain ⟨last, ran, state⟩ := Option.map_eq_some_iff.mp reached
  obtain ⟨quiet, one⟩ := of_decide_eq_true state
  exact ⟨last, ran, quiet, one, one_session 1 cluster last oneAfterTheOther cluster_offline
    (by decide +kernel) ran⟩

/-- Both ask before either stores 'online'. -/
def bothAsk : List (Action (Job Bool Nat) Int) :=
  .spawn (.login true 7 1 [120]) :: steps 0 1 ++ .spawn (.login false 8 1 [120]) :: steps 1 8 ++
    steps 0 7

/-- A server still has the account's last connection in its map: a LOGINOUT with the
account's id, or the reset of a server that stopped, has stored 'offline' elsewhere. -/
def stillMapped : Servers Bool Nat where
  shared := { cluster.shared with userConnMap := fun server =>
                                    if server then (∅ : AList _).insert 1 7 else ∅ }
  threads := []

theorem two_sessions :
    (∃ last, Transition.run servers.step cluster bothAsk = some last ∧ Quiet last ∧
      successes last = 2 ∧
      ¬ OneSession 1 last) ∧
    ∃ last, Transition.run servers.step stillMapped (.spawn (.login true 9 1 [120]) :: steps 0 8) =
      some last ∧
      Offline 1 stillMapped ∧ Quiet last ∧ successes last = 1 ∧ ¬ OneSession 1 last := by
  constructor
  · have reached : (Transition.run servers.step cluster bothAsk).map (fun pool =>
        decide (Quiet pool ∧ successes pool = 2)) = some true := by decide +kernel
    obtain ⟨last, ran, state⟩ := Option.map_eq_some_iff.mp reached
    obtain ⟨quiet, two⟩ := of_decide_eq_true state
    refine ⟨last, ran, quiet, two, fun one => ?_⟩
    have most : successes last ≤ 1 := one.1
    omega
  · have reached : (Transition.run servers.step stillMapped
      (.spawn (.login true 9 1 [120]) :: steps 0 8)).map
        (fun pool => decide (Quiet pool ∧
          pool.shared.replies.map (fun entry => (entry.1, succeeded 1 entry)) =
          [(9, true)] ∧ (pool.shared.userConnMap true).lookup 1 = some 7)) = some true := by
            decide +kernel
    obtain ⟨last, ran, state⟩ := Option.map_eq_some_iff.mp reached
    obtain ⟨quiet, replies, other⟩ := of_decide_eq_true state
    obtain ⟨⟨conn, ack⟩, single, told⟩ := List.map_eq_singleton_iff.mp replies
    obtain ⟨rfl, success⟩ := Prod.mk.inj told
    refine ⟨last, ran, ⟨⟨⟨[97], [120], .offline⟩, rfl, by decide⟩, rfl, rfl⟩, quiet, ?_,
      fun one => ?_⟩
    · simp [successes, single, success]
    · obtain ⟨server, owns⟩ := one.2 _ (by rw [single]; exact List.mem_singleton_self _) success
      have mapped := owns true
      rw [other] at mapped
      split at mapped <;> simp at mapped

end MuduoChat.LoginRace
