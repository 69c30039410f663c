import MuduoChat.ChatService

/-!
Where each text is, in every run of any number of servers. A text of a chat
request is with the handler that looks the receiver up, or was sent, stored or
published once; a published text is in Redis, with a Redis thread, or was sent or
stored once for every server it reached. It is sent on the connection that the
look-up found.
-/

namespace MuduoChat.MailFlow
open Interleaving ChatService

variable {S C : Type}

/-- What a thread has in its hands: a text it carries to a user, has seen online
or found; the offline messages of a login, before and after their deletion. -/
inductive Stage (S C : Type) where
  | idle
  | carrying (id : Int) (mail : Mail S)
  | relaying (id : Int) (text : Text)
  | found (id : Int) (conn : C) (mail : Mail S)
  | listing (id : Int) (vec : List Text)
  | holding (id : Int) (vec : List Text)
  deriving DecidableEq

/-- A thread that has read state 'online' or offline messages acts on it at once. -/
def settled : Stage S C → Bool
  | .relaying _ _ => false
  | .listing _ _ => false
  | _ => true

def landed (id : Int) (mail : Mail S) : Option C → Stage S C
  | none => .carrying id mail
  | some conn => .found id conn mail

def asked (user : User) : Stage S C → Stage S C
  | .carrying id (.chat text) =>
      if user.state = .online then .relaying id text else .carrying id (.chat text)
  | stage => stage

def queried (id : Int) (vec : List Text) : Stage S C := if vec = [] then .idle else .listing id vec

def taken (id : Int) (vec : List Text) : Stage S C := if vec = [] then .idle else .holding id vec

def removed : Stage S C → Stage S C
  | .listing id vec => .holding id vec
  | stage => stage

/-- The handlers of chat requests. -/
def isChat : Job S C → Bool
  | .oneChat .. => true
  | .groupChat .. => true
  | _ => false

def allowed (job : Job S C) (stage : Stage S C) : Op S C → Prop
  | .find _ _ (.passing (.chat _)) => stage = .idle
  | .find _ id (.passing (.relayed server text)) => stage = .carrying id (.relayed server text)
  | .queryUser id => stage = .idle ∨ ∃ text, stage = .carrying id (.chat text) ∧ isChat job = true
  | .forward id conn mail => stage = .found id conn mail
  | .publish id text => stage = .relaying id text
  | .insertMsg id mail => stage = .carrying id mail
  | .queryMsgs _ => stage = .idle
  | .removeMsgs id => ∃ vec, stage = .listing id vec
  | .reply _ (.loggedIn id _ vec _ _) => stage = taken id vec
  | _ => settled stage = true

def after (stage : Stage S C) : (op : Op S C) → Res op → Stage S C
  | .find _ id (.passing mail), entry => landed id mail entry
  | .queryUser _, user => asked user stage
  | .forward .., _ => .idle
  | .publish .., _ => .idle
  | .insertMsg .., _ => .idle
  | .queryMsgs id, vec => queried id vec
  | .removeMsgs _, _ => removed stage
  | .reply _ (.loggedIn ..), _ => .idle
  | _, _ => stage

def monitor (job : Job S C) : Monitor (Op S C) Res (Stage S C) where
  allowed := allowed job
  after := after

def start : Job S C → Stage S C
  | .handlerRedisSubscribeMessage server userid msg => .carrying userid (.relayed server msg)
  | _ => .idle

def final (stage : Stage S C) : Prop := stage = .idle

@[simp] theorem monitor_allowed (job : Job S C) (stage : Stage S C) (op : Op S C) :
    (monitor job).allowed stage op ↔ allowed job stage op := Iff.rfl

@[simp] theorem monitor_after (job : Job S C) (stage : Stage S C) (op : Op S C) (result : Res op) :
    (monitor job).after stage op result = after stage op result := rfl

theorem relaying_next (job : Job S C) (op : Op S C) (id : Int) (text : Text)
    (follows : allowed job (.relaying id text) op) : op = .publish id text := by
  cases op with
  | find server user purpose =>
      cases purpose with
      | erasing => simp [allowed, settled] at follows
      | passing mail => cases mail <;> simp [allowed] at follows
  | reply conn ack =>
      cases ack <;> simp [allowed, settled, taken] at follows; split at follows <;> simp at follows
  | publish user said => simp_all [allowed]
  | _ => simp [allowed, settled] at follows

theorem listing_next (job : Job S C) (op : Op S C) (id : Int) (vec : List Text)
    (follows : allowed job (.listing id vec) op) : op = .removeMsgs id := by
  cases op with
  | find server user purpose =>
      cases purpose with
      | erasing => simp [allowed, settled] at follows
      | passing mail => cases mail <;> simp [allowed] at follows
  | reply conn ack =>
      cases ack <;> simp [allowed, settled, taken] at follows; split at follows <;> simp at follows
  | removeMsgs user => simp_all [allowed]
  | _ => simp [allowed, settled] at follows

/-- The thread behind a mark that is not idle has a next operation. -/
theorem busy_head (marks : List (Stage S C)) (entries : List (Job S C × Task S C Unit))
    (tied : List.Forall₂ (Tied monitor final) marks entries) (mark : Stage S C)
    (member : mark ∈ marks)
    (busy : mark ≠ .idle) :
    ∃ entry ∈ entries, ∃ op, entry.2.head = some op ∧ allowed entry.1 mark op := by
  obtain ⟨entry, inside, follows⟩ := tied_thread monitor final marks entries tied mark member
  obtain ⟨op, next, taken⟩ := follows_head (monitor entry.1) entry.2 (fun _ => final) mark
    (fun _ finished => busy finished) follows
  exact ⟨entry, inside, op, next, taken⟩

/-- Only a read of the state leads to a publish. -/
theorem after_relaying (stage : Stage S C) (op : Op S C) (result : Res op) (id : Int) (text : Text)
    (unasked : ∀ user, op ≠ .queryUser user) (here : after stage op result = .relaying id text) :
    stage = .relaying id text := by
  cases op with
  | find server user purpose =>
      cases purpose with
      | erasing => exact here
      | passing mail => cases result <;> simp [after, landed] at here
  | queryUser user => exact absurd rfl (unasked user)
  | queryMsgs user =>
      simp only [after, queried] at here
      split at here <;> simp at here
  | removeMsgs user => cases stage <;> simp_all [after, removed]
  | reply conn ack =>
      cases ack with
      | loggedIn => simp [after] at here
      | _ => exact here
  | forward => simp [after] at here
  | publish => simp [after] at here
  | insertMsg => simp [after] at here
  | _ => exact here

/-! Every handler keeps to the protocol. -/

theorem takeOffline_follows (job : Job S C) (id : Int) :
    Follows (monitor job) (takeOffline id) (fun vec last => last = taken id vec) .idle := by
  simp only [takeOffline, call_bind, follows_act]
  refine ⟨rfl, fun vec => ?_⟩
  split
  · rename_i empty
    subst empty
    rfl
  · rename_i some_
    simp only [follows_act, monitor_allowed, monitor_after, allowed, after, queried, some_,
      if_false]
    exact ⟨⟨vec, rfl⟩, fun _ => by simp [taken, some_, removed]⟩

theorem login_follows (job : Job S C) (server : S) (conn : C) (id : Int) (pwd : Text) :
    Follows (monitor job) (login server conn id pwd) (fun _ => final) .idle := by
  simp only [login, queryUser, reply, updateState, call_bind, follows_act]
  refine ⟨Or.inl rfl, fun user => ?_⟩
  split
  · rename_i known
    split
    · exact ⟨rfl, fun _ => rfl⟩
    · refine ⟨rfl, fun _ => ⟨rfl, fun _ => ⟨rfl, fun _ => ?_⟩⟩⟩
      rw [follows_bind]
      refine follows_mono _ _ _ _ (fun vec last same => ?_) _ (takeOffline_follows job id)
      subst same
      have rests : settled (taken id vec : Stage S C) = true := by
        unfold taken
        split <;> rfl
      simp only [queryGroups, call_bind, act_bind, follows_act, follows_bind]
      refine ⟨rests, fun friends => ⟨rests, fun groups => ?_⟩⟩
      refine follows_mono _ _ _ _ (fun all last same => ?_) _
        (withMembers_keep _ _ groups fun _ _ => ⟨rests, rfl⟩)
      subst same
      exact ⟨by rw [known.1]; rfl, fun _ => rfl⟩
  · exact ⟨rfl, fun _ => rfl⟩

theorem passOn_follows (job : Job S C) (id : Int) (text : Text) (chat : isChat job = true) :
    Follows (monitor job) (passOn id text) (fun _ => final) (.carrying id (.chat text)) := by
  simp only [passOn, queryUser, call_bind, follows_act]
  refine ⟨Or.inr ⟨text, rfl, chat⟩, fun user => ?_⟩
  simp only [monitor_after, after, asked]
  split <;> exact ⟨rfl, fun _ => rfl⟩

theorem chatAll_follows (job : Job S C) (server : S) (text : Text) (ids : List Int)
    (chat : isChat job = true) :
    Follows (monitor job) (chatAll server text ids) (fun _ => final) .idle := by
  induction ids with
  | nil => rfl
  | cons id rest ih =>
      simp only [chatAll, find, call_bind, follows_act]
      refine ⟨rfl, fun entry => ?_⟩
      cases entry with
      | some conn => exact ⟨rfl, fun _ => ih⟩
      | none =>
          rw [follows_bind]
          refine follows_mono _ _ _ _ (fun _ last done => ?_) _ (passOn_follows job id text chat)
          rw [done]
          exact ih

theorem program_follows (job : Job S C) : Tied monitor final (start job) (job, program job) := by
  unfold Tied program start
  cases job with
  | login server conn id pwd => exact login_follows _ server conn id pwd
  | reg server conn name pwd =>
      simp only [reg, call_bind, follows_act]
      refine ⟨rfl, fun inserted => ?_⟩
      cases inserted <;> exact ⟨rfl, fun _ => rfl⟩
  | loginout server conn userid =>
      simp only [loginout, lock, unlock, find, updateState, call_bind, follows_act]
      refine ⟨rfl, fun _ => ⟨rfl, fun entry => ?_⟩⟩
      cases entry with
      | none => exact ⟨rfl, fun _ => ⟨rfl, fun _ => ⟨rfl, fun _ => rfl⟩⟩⟩
      | some conn => exact ⟨rfl, fun _ => ⟨rfl, fun _ => ⟨rfl, fun _ => ⟨rfl, fun _ => rfl⟩⟩⟩⟩
  | oneChat server conn toid text =>
      simp only [oneChat, lock, find, call_bind, follows_act]
      refine ⟨rfl, fun _ => ⟨rfl, fun entry => ?_⟩⟩
      cases entry with
      | some conn => exact ⟨rfl, fun _ => ⟨rfl, fun _ => rfl⟩⟩
      | none => exact ⟨rfl, fun _ => passOn_follows _ toid text rfl⟩
  | addFriend server conn userid friendid => exact ⟨rfl, fun _ => rfl⟩
  | creatGroup server conn userid name desc =>
      simp only [creatGroup, call_bind, follows_act]
      refine ⟨rfl, fun created => ?_⟩
      cases created with
      | none => rfl
      | some groupid => exact ⟨rfl, fun _ => rfl⟩
  | addGroup server conn userid groupid => exact ⟨rfl, fun _ => rfl⟩
  | groupChat server conn userid groupid text =>
      simp only [groupChat, call_bind, follows_act]
      exact ⟨rfl, fun ids => chatAll_follows _ server text ids rfl⟩
  | clientCloseException server conn =>
      simp only [clientCloseException, lock, unlock, updateState, call_bind, follows_act]
      refine ⟨rfl, fun _ => ⟨rfl, fun entry => ?_⟩⟩
      cases entry with
      | none => exact ⟨rfl, fun _ => ⟨rfl, fun _ => rfl⟩⟩
      | some id =>
          refine ⟨rfl, fun _ => ⟨rfl, fun _ => ⟨rfl, fun _ => ?_⟩⟩⟩
          split
          · exact ⟨rfl, fun _ => rfl⟩
          · rfl
  | handlerRedisSubscribeMessage server userid msg =>
      simp only [handlerRedisSubscribeMessage, lock, unlock, find, call_bind, follows_act]
      refine ⟨rfl, fun _ => ⟨rfl, fun entry => ?_⟩⟩
      cases entry <;> exact ⟨rfl, fun _ => ⟨rfl, fun _ => rfl⟩⟩

/-! Counting texts. -/

section Counts
variable [DecidableEq S] [DecidableEq C]

def sentTo (sent : List (Int × C × Mail S)) (id : Int) (mail : Mail S) : Nat :=
  sent.countP fun entry => entry.1 = id ∧ entry.2.2 = mail

def publishedFor (published : List (Int × Text × List S)) (id : Int) (text : Text) : Nat :=
  published.countP fun entry => entry.1 = id ∧ entry.2.1 = text

/-- How often a text published for the user reached the server. -/
def reaching (published : List (Int × Text × List S)) (server : S) (id : Int) (text : Text) : Nat :=
  (published.flatMap fun entry => if entry.1 = id ∧ entry.2.1 = text then
    entry.2.2 else []).count server

def carries (id : Int) (mail : Mail S) : Stage S C → Bool
  | .carrying other held => other = id ∧ held = mail
  | .relaying other text => other = id ∧ .chat text = mail
  | .found other _ held => other = id ∧ held = mail
  | _ => false

def holds (id : Int) (conn : C) (mail : Mail S) (stage : Stage S C) : Bool :=
    stage = .found id conn mail

structure Inv (shared : Shared S C) (marks : List (Stage S C)) : Prop where
  chats : ∀ id text, shared.routed.count (id, text) = sentTo shared.sent id (.chat text) +
    shared.stored.count (id, .chat text) + publishedFor shared.published id text +
    marks.countP (carries id (.chat text))
  relays : ∀ server id text, reaching shared.published server id text =
    shared.relay.count (server, id, text) + sentTo shared.sent id (.relayed server text) +
    shared.stored.count (id, .relayed server text) + marks.countP
      (carries id (.relayed server text))
  looks : ∀ id conn mail, shared.looked.count (id, some conn, mail) =
    shared.sent.count (id, conn, mail) + marks.countP (holds id conn mail)

omit [DecidableEq C] in
@[simp] theorem sentTo_append (sent : List (Int × C × Mail S)) (entry : Int × C × Mail S)
  (id : Int) (mail : Mail S) :
    sentTo (sent ++ [entry]) id mail = sentTo sent id mail +
      if entry.1 = id ∧ entry.2.2 = mail then 1 else 0 := by
  simp [sentTo, List.countP_append, List.countP_cons]

omit [DecidableEq S] in
@[simp] theorem publishedFor_append (published : List (Int × Text × List S))
  (entry : Int × Text × List S)
    (id : Int) (text : Text) : publishedFor (published ++ [entry]) id text =
      publishedFor published id text + if entry.1 = id ∧ entry.2.1 = text then 1 else 0 := by
  simp [publishedFor, List.countP_append, List.countP_cons]

@[simp] theorem reaching_append (published : List (Int × Text × List S))
  (entry : Int × Text × List S) (server : S)
    (id : Int) (text : Text) : reaching (published ++ [entry]) server id text =
      reaching published server id text +
        if entry.1 = id ∧ entry.2.1 = text then entry.2.2.count server else 0 := by
  simp only [reaching, List.flatMap_append, List.count_append, List.flatMap_cons, List.flatMap_nil,
    List.append_nil]
  split <;> simp

theorem count_append_one {α : Type} [BEq α] (entries : List α) (entry other : α) :
    (entries ++ [entry]).count other = entries.count other + if entry == other then 1 else 0 := by
  simp [List.count_append, List.count_cons]

theorem count_reports (reached : List S) (server : S) (id other : Int) (text said : Text) :
    (reached.map fun server => (server, id, text)).count (server, other, said) =
      if id = other ∧ text = said then reached.count server else 0 := by
  induction reached with
  | nil => simp
  | cons first rest ih =>
      rw [List.map_cons, List.count_cons, List.count_cons, ih]
      by_cases same : id = other ∧ text = said
      · obtain ⟨rfl, rfl⟩ := same
        simp
      · simp only [same, if_false, beq_iff_eq, Prod.mk.injEq, and_false, Nat.add_zero]

theorem countP_split {α : Type} (property : α → Bool) (left right : List α) (mark : α) :
    (left ++ mark :: right).countP property =
      left.countP property + right.countP property + if property mark then 1 else 0 := by
  simp only [List.countP_append, List.countP_cons]
  omega

section Operations
variable (shared : Shared S C) (left right : List (Stage S C))

/-- A step that touches no record, and a stage that still carries what it did. -/
theorem inv_keep (other : Shared S C) (stage next : Stage S C)
    (inv : Inv shared (left ++ stage :: right))
    (records : other.routed = shared.routed ∧ other.looked = shared.looked ∧
      other.sent = shared.sent ∧
      other.stored = shared.stored ∧ other.published = shared.published ∧
        other.relay = shared.relay)
    (carried : ∀ id mail, carries id mail next = carries id mail stage)
    (held : ∀ id conn mail, holds id conn mail next = holds id conn mail stage) :
    Inv other (left ++ next :: right) := by
  obtain ⟨routed, looked, sent, stored, published, relay⟩ := records
  obtain ⟨chats, relays, looks⟩ := inv
  simp only [countP_split] at chats relays looks
  constructor
  · intro id text
    rw [routed, sent, stored, published, countP_split, carried]
    exact chats id text
  · intro server id text
    rw [relay, sent, stored, published, countP_split, carried]
    exact relays server id text
  · intro id conn mail
    rw [looked, sent, countP_split, held]
    exact looks id conn mail

theorem find_chat_inv (id : Int) (text : Text) (entry : Option C)
    (inv : Inv shared (left ++ .idle :: right)) :
    Inv { shared with routed := shared.routed ++ [(id, text)],
                      looked := shared.looked ++ [(id, entry, .chat text)] }
      (left ++ landed id (.chat text) entry :: right) := by
  obtain ⟨chats, relays, looks⟩ := inv
  simp only [countP_split] at chats relays looks
  constructor
  · intro other said
    have before := chats other said
    cases entry <;> simp only [countP_split, count_append_one, landed] <;>
      simp [carries] at before ⊢ <;> omega
  · intro server other said
    have before := relays server other said
    cases entry <;> simp only [countP_split, landed] <;> simp [carries] at before ⊢ <;> omega
  · intro other conn mail
    have before := looks other conn mail
    cases entry <;> simp only [countP_split, count_append_one, landed] <;>
      simp [holds] at before ⊢ <;> omega

theorem find_relayed_inv (id : Int) (server : S) (text : Text) (entry : Option C)
    (inv : Inv shared (left ++ .carrying id (.relayed server text) :: right)) :
    Inv { shared with looked := shared.looked ++ [(id, entry, .relayed server text)] }
      (left ++ landed id (.relayed server text) entry :: right) := by
  obtain ⟨chats, relays, looks⟩ := inv
  simp only [countP_split] at chats relays looks
  constructor
  · intro other said
    have before := chats other said
    cases entry <;> simp only [countP_split, landed] <;> simp [carries] at before ⊢ <;> omega
  · intro where_ other said
    have before := relays where_ other said
    cases entry <;> simp only [countP_split, landed] <;> simp [carries] at before ⊢ <;> omega
  · intro other conn mail
    have before := looks other conn mail
    cases entry <;> simp only [countP_split, count_append_one, landed] <;>
      simp [holds] at before ⊢ <;> omega

theorem forward_inv (id : Int) (conn : C) (mail : Mail S)
    (inv : Inv shared (left ++ .found id conn mail :: right)) :
    Inv { shared with sent := shared.sent ++ [(id, conn, mail)] } (left ++ .idle :: right) := by
  obtain ⟨chats, relays, looks⟩ := inv
  simp only [countP_split] at chats relays looks
  constructor
  · intro other said
    have before := chats other said
    simp only [countP_split]
    simp [carries] at before ⊢
    omega
  · intro server other said
    have before := relays server other said
    simp only [countP_split]
    simp [carries] at before ⊢
    omega
  · intro other receiver passed
    have before := looks other receiver passed
    simp only [countP_split, count_append_one]
    simp [holds] at before ⊢
    omega

theorem publish_inv (id : Int) (text : Text)
    (inv : Inv shared (left ++ .relaying id text :: right)) :
    Inv { shared with
        relay := shared.relay ++ (subscribers shared.subscribed id).map (fun server => (server, id,
          text)),
        published := shared.published ++ [(id, text, subscribers shared.subscribed id)] }
      (left ++ .idle :: right) := by
  obtain ⟨chats, relays, looks⟩ := inv
  simp only [countP_split] at chats relays looks
  constructor
  · intro other said
    have before := chats other said
    simp only [countP_split]
    simp [carries] at before ⊢
    omega
  · intro server other said
    have before := relays server other said
    rw [countP_split, List.count_append, count_reports]
    simp [carries] at before ⊢
    omega
  · intro other conn mail
    have before := looks other conn mail
    simp only [countP_split]
    simp [holds] at before ⊢
    omega

theorem insert_inv (id : Int) (mail : Mail S) (rows : List (Int × Text))
    (inv : Inv shared (left ++ .carrying id mail :: right)) :
    Inv { shared with offlinemessage := rows, stored := shared.stored ++ [(id, mail)] }
      (left ++ .idle :: right) := by
  obtain ⟨chats, relays, looks⟩ := inv
  simp only [countP_split] at chats relays looks
  constructor
  · intro other said
    have before := chats other said
    simp only [countP_split, count_append_one]
    simp [carries] at before ⊢
    omega
  · intro server other said
    have before := relays server other said
    simp only [countP_split, count_append_one]
    simp [carries] at before ⊢
    omega
  · intro other conn passed
    have before := looks other conn passed
    simp only [countP_split]
    simp [holds] at before ⊢
    omega

theorem operation_inv (job : Job S C) (stage : Stage S C) (op : Op S C) (choice : Int)
    (result : Res op)
    (other : Shared S C) (follows : allowed job stage op)
    (inv : Inv shared (left ++ stage :: right))
    (performed : perform choice op shared = some (result, other)) :
    Inv other (left ++ (monitor job).after stage op result :: right) := by
  rw [monitor_after]
  have keep := fun next => inv_keep shared left right other stage next inv
  cases op with
  | find server id purpose =>
      simp only [perform, Option.some.injEq, Prod.mk.injEq] at performed
      obtain ⟨rfl, rfl⟩ := performed
      cases purpose with
      -- a search on behalf of an erasure carries no message
      | erasing =>
          exact keep stage ⟨by simp [route], by simp [look], rfl, rfl, rfl, rfl⟩ (fun _ _ => rfl)
            fun _ _ _ => rfl
      | passing mail =>
          cases mail with
          | chat text =>
              simp only [allowed] at follows
              subst follows
              exact find_chat_inv shared left right id text _ inv
          | relayed server text =>
              simp only [allowed] at follows
              subst follows
              simpa [route, look, after]
                using find_relayed_inv shared left right id server text _ inv
  | queryUser id =>
      simp only [perform, Option.some.injEq, Prod.mk.injEq] at performed
      obtain ⟨rfl, rfl⟩ := performed
      rcases follows with rfl | ⟨text, rfl, _⟩
      · exact inv
      · refine keep _ ⟨rfl, rfl, rfl, rfl, rfl, rfl⟩ ?_ ?_
        · intro id mail
          simp only [after, asked]
          split <;> simp [carries]
        · intro id conn mail
          simp only [after, asked]
          split <;> simp [holds]
  | forward id conn mail =>
      simp only [perform, Option.some.injEq, Prod.mk.injEq, true_and] at performed
      simp only [allowed] at follows
      subst performed follows
      exact forward_inv shared left right id conn mail inv
  | publish id text =>
      simp only [perform, Option.some.injEq, Prod.mk.injEq, true_and] at performed
      simp only [allowed] at follows
      subst performed follows
      exact publish_inv shared left right id text inv
  | insertMsg id mail =>
      simp only [perform, Option.some.injEq, Prod.mk.injEq, true_and] at performed
      simp only [allowed] at follows
      subst performed follows
      exact insert_inv shared left right id mail _ inv
  | queryMsgs id =>
      simp only [perform, Option.some.injEq, Prod.mk.injEq] at performed
      simp only [allowed] at follows
      obtain ⟨rfl, rfl⟩ := performed
      subst follows
      refine keep _ ⟨rfl, rfl, rfl, rfl, rfl, rfl⟩ ?_ ?_
      · intro id mail
        simp only [after, queried]
        split <;> rfl
      · intro id conn mail
        simp only [after, queried]
        split <;> simp [holds]
  | removeMsgs id =>
      simp only [perform, Option.some.injEq, Prod.mk.injEq, true_and] at performed
      obtain ⟨vec, rfl⟩ := follows
      subst performed
      exact keep _ ⟨rfl, rfl, rfl, rfl, rfl, rfl⟩ (fun _ _ => rfl) fun _ _ _ =>
        by simp [holds, after, removed]
  | reply conn ack =>
      simp only [perform, Option.some.injEq, Prod.mk.injEq, true_and] at performed
      subst performed
      cases ack with
      | loggedIn id name vec friends groups =>
          simp only [allowed] at follows
          subst follows
          refine keep _ ⟨rfl, rfl, rfl, rfl, rfl, rfl⟩ ?_ ?_
          · intro id mail
            simp only [after, taken]
            split <;> rfl
          · intro id conn mail
            simp only [after, taken]
            split <;> simp [holds]
      | _ => exact keep stage ⟨rfl, rfl, rfl, rfl, rfl, rfl⟩ (fun _ _ => rfl) fun _ _ _ => rfl
  | _ =>
      refine keep stage ?_ (fun _ _ => rfl) fun _ _ _ => rfl
      grind [perform]

end Operations

theorem spawn_inv (shared other : Shared S C) (marks : List (Stage S C)) (job : Job S C)
    (inv : Inv shared marks)
    (launched : launch job shared = some other) : Inv other (marks ++ [start job]) := by
  have empty : ∀ new : Stage S C, (∀ id mail, carries id mail new = false) →
      (∀ id conn mail, holds id conn mail new = false) →
      Inv shared (marks ++ [new]) := by
    intro new free loose
    obtain ⟨chats, relays, looks⟩ := inv
    constructor <;> simpa [free, loose]
  cases job with
  | handlerRedisSubscribeMessage server userid msg =>
      simp only [launch] at launched
      split at launched
      · rename_i waiting
        cases launched
        obtain ⟨chats, relays, looks⟩ := inv
        constructor
        · intro id text
          simpa [start, carries] using chats id text
        · intro at_ id text
          have before := relays at_ id text
          have positive := List.count_pos_iff.mpr waiting
          have taken : carries id (.relayed at_ text)
              (start (.handlerRedisSubscribeMessage server userid msg) : Stage S C) =
              decide ((server, userid, msg) = (at_, id, text)) := by
            simp only [start, carries, Mail.relayed.injEq, Prod.mk.injEq, decide_eq_decide]
            exact and_left_comm
          rw [List.countP_append, List.countP_cons, List.countP_nil, taken, List.count_erase]
          by_cases same : (server, userid, msg) = (at_, id, text)
          · rw [same] at positive
            simp only [same, decide_true, if_true, beq_self_eq_true]
            omega
          · simp only [same, decide_false, Bool.false_eq_true, if_false, beq_iff_eq]
            omega
        · intro id conn mail
          simpa [start, holds] using looks id conn mail
      · cases launched
  | _ =>
      simp only [launch, Option.some.injEq] at launched
      subst launched
      exact empty .idle (fun _ _ => rfl) fun _ _ _ => rfl

/-! Whole runs. -/

/-- Servers at rest, before the records begin. -/
structure Fresh (pool : Servers S C) : Prop where
  nobody : pool.threads = []
  relay : pool.shared.relay = []
  routed : pool.shared.routed = []
  looked : pool.shared.looked = []
  sent : pool.shared.sent = []
  stored : pool.shared.stored = []
  published : pool.shared.published = []
  replies : pool.shared.replies = []
  once : pool.shared.subscribed.Nodup

theorem fresh_inv (pool : Servers S C) (fresh : Fresh pool) : Inv pool.shared [] := by
  obtain ⟨_, relay, routed, looked, sent, stored, published, _, _⟩ := fresh
  constructor <;>
    simp [relay, routed, looked, sent, stored, published, sentTo, publishedFor, reaching]

omit [DecidableEq S] [DecidableEq C] in
theorem started_fresh (user : AList fun _ : Int => UserRow) (offlinemessage : List (Int × Text)) :
    Fresh (started user offlinemessage : Servers S C) :=
  ⟨rfl, rfl, rfl, rfl, rfl, rfl, rfl, rfl, List.nodup_nil⟩

/-- No handler runs and Redis has nothing to report. -/
def Quiescent (pool : Servers S C) : Prop := Quiet pool ∧ pool.shared.relay = []

omit [DecidableEq C] in
instance (pool : Servers S C) : Decidable (Quiescent pool) := inferInstanceAs (Decidable (_ ∧ _))

/-- At rest nobody has a text in hand. -/
theorem rest_empty (pool : Servers S C) (marks : List (Stage S C))
    (tied : List.Forall₂ (Tied monitor final) marks pool.threads) (quiet : Quiet pool) :
    (∀ id mail, marks.countP (carries id mail) = 0) ∧
    ∀ id conn mail, marks.countP (holds id conn mail) = 0 := by
  have idle := quiet_final monitor final marks pool tied quiet
  constructor
  · intro id mail
    rw [List.countP_eq_zero]
    intro mark member
    rw [idle mark member]
    simp [carries]
  · intro id conn mail
    rw [List.countP_eq_zero]
    intro mark member
    rw [idle mark member]
    simp [holds]

end Counts
end MuduoChat.MailFlow
