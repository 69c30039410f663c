import MuduoChat.MailFlow

/-!
Messages published to another server of the cluster. Login maps, subscribes and
then stores 'online'; loginout and clientCloseException erase, unsubscribe and then
store 'offline'. A chat handler that reads 'online' between the last two publishes
to nobody, and so does one that has read it before them and publishes after. In
every run in which no chat handler reads 'online' for a user without a subscribed
server, and no last subscriber leaves while a handler is about to publish to it,
every published message reaches a server, and each server it reaches sends or
stores it once.
-/

namespace MuduoChat.ClusterRelay
open Interleaving ChatService MailFlow

variable {S C : Type} [DecidableEq S] [DecidableEq C]

def publishes (id : Int) : Op S C → Bool
  | .publish channel _ => channel = id
  | _ => false

def withoutEntry (subscribed : List (S × Int)) (server : S) (id : Int) : List (S × Int) :=
  subscribed.filter fun entry => entry ≠ (server, id)

def Attentive (pool : Servers S C) : Action (Job S C) Int → Prop
  | .spawn _ => True
  | .step thread _ =>
      match pool.aboutTo thread with
      | some (job, .queryUser id) => isChat job = true → (findUser pool.shared id).state = .online →
          subscribers pool.shared.subscribed id ≠ []
      | some (_, .unsubscribe server id) =>
          subscribers (withoutEntry pool.shared.subscribed server id) id = [] →
          ∀ entry ∈ pool.others thread, entry.2.head.any (publishes id) = false
      | _ => True

omit [DecidableEq C] in
instance (pool : Servers S C) (action : Action (Job S C) Int) :
    Decidable (Attentive pool action) := by
  induction action using Interleaving.Action.casesOn with
  | spawn job => exact isTrue trivial
  | step thread choice =>
      dsimp only [Attentive]
      generalize pool.aboutTo thread = next
      induction next using nextCases with
      | finished => exact isTrue trivial
      | about job op =>
          induction op using Op.casesOn <;> (dsimp only; infer_instance)

/-- Whoever has read 'online' will be heard, and whoever has published was. -/
structure Attended (shared : Shared S C) (marks : List (Stage S C)) : Prop where
  inHand : ∀ mark ∈ marks, ∀ id text, mark = .relaying id text →
    subscribers shared.subscribed id ≠ []
  reached : ∀ entry ∈ shared.published, entry.2.2 ≠ []

omit [DecidableEq S] [DecidableEq C] in
theorem subscribers_cons (subscribed : List (S × Int)) (entry : S × Int) (id : Int) :
    subscribers (subscribed ++ [entry]) id = subscribers subscribed id ++
      if entry.2 = id then [entry.1] else [] := by
  unfold subscribers
  rw [List.filter_append, List.map_append]
  split <;> rename_i same <;> simp [same]

omit [DecidableEq C] in
/-- Leaving one channel is not noticed on the others. -/
theorem subscribers_without (subscribed : List (S × Int)) (server : S) (id other : Int)
    (different : other ≠ id) :
    subscribers (withoutEntry subscribed server id) other = subscribers subscribed other := by
  unfold subscribers withoutEntry
  rw [List.filter_filter]
  congr 1
  refine List.filter_congr fun entry _ => ?_
  by_cases here : entry.2 = other
  · have away : entry ≠ (server, id) := fun same => different (by rw [← here, same])
    simp [here, away]
  · simp [here]

section Operations
variable (shared : Shared S C) (left right : List (Stage S C)) (stage : Stage S C)
  (attended : Attended shared (left ++ stage :: right))
include attended

omit [DecidableEq S] [DecidableEq C] in
theorem attended_keep (other : Shared S C) (next : Stage S C)
    (others : ∀ mark ∈ left ++ right, ∀ id text, mark = .relaying id text →
      subscribers other.subscribed id ≠ [])
    (own : ∀ id text, next = .relaying id text → subscribers other.subscribed id ≠ [])
    (published : ∀ entry ∈ other.published, entry ∈ shared.published ∨ entry.2.2 ≠ []) :
    Attended other (left ++ next :: right) := by
  constructor
  · exact (forall_replace (fun mark => ∀ id text, mark = .relaying id text →
      subscribers other.subscribed id ≠ []) left right next).mpr ⟨own, others⟩
  · intro entry member
    rcases published entry member with before | new
    · exact attended.reached entry before
    · exact new

omit [DecidableEq S] [DecidableEq C] in
theorem heard_split : (∀ id text, stage = .relaying id text →
    subscribers shared.subscribed id ≠ []) ∧
    ∀ mark ∈ left ++ right, ∀ id text, mark = .relaying id text →
      subscribers shared.subscribed id ≠ [] :=
  (forall_replace (fun mark => ∀ id text, mark = .relaying id text →
    subscribers shared.subscribed id ≠ [])
    left right stage).mp attended.inHand

theorem operation_attended (job : Job S C) (op : Op S C) (choice : Int) (result : Res op)
    (other : Shared S C)
    (follows : allowed job stage op)
    (reads : ∀ id, op = .queryUser id → isChat job = true → (findUser shared id).state = .online →
      subscribers shared.subscribed id ≠ [])
    (leaves : ∀ server id, op = .unsubscribe server id →
      subscribers (withoutEntry shared.subscribed server id) id = [] →
      ∀ mark ∈ left ++ right, ∀ text, mark ≠ .relaying id text)
    (performed : perform choice op shared = some (result, other)) :
    Attended other (left ++ (monitor job).after stage op result :: right) := by
  obtain ⟨own, others⟩ := heard_split shared left right stage attended
  have keep := attended_keep shared left right stage attended other
  rw [monitor_after]
  cases op with
  | queryUser id =>
      simp only [perform, Option.some.injEq, Prod.mk.injEq] at performed
      obtain ⟨rfl, rfl⟩ := performed
      refine keep _ others ?_ fun _ => Or.inl
      -- an 'online' row sends the message to a channel, which then has a subscriber
      rcases follows with rfl | ⟨text, rfl, chat⟩
      · simp [after, asked]
      · intro user said here
        simp only [after, asked] at here
        split at here
        · rename_i online
          simp only [Stage.relaying.injEq] at here
          rw [← here.1]
          exact reads id rfl chat online
        · simp at here
  | publish id text =>
      simp only [perform, Option.some.injEq, Prod.mk.injEq, true_and] at performed
      subst performed
      simp only [allowed] at follows
      refine keep _ others (by simp [after]) fun entry member => ?_
      rcases List.mem_append.mp member with before | new
      · exact Or.inl before
      · rw [List.mem_singleton.mp new]
        exact Or.inr (own id text follows)
  | unsubscribe server id =>
      simp only [perform, Option.some.injEq, Prod.mk.injEq, true_and] at performed
      subst performed
      have rests : settled stage = true := follows
      refine keep _ ?_ ?_ fun _ => Or.inl
      -- only the channel that is left can lose its last subscriber
      · intro mark member user text here
        by_cases same : user = id
        · subst same
          exact fun left_ => leaves server user rfl left_ mark member text here
        · have before := others mark member user text here
          rwa [← subscribers_without shared.subscribed server id user same] at before
      · rintro user text rfl
        simp [settled] at rests
  | subscribe server id =>
      simp only [perform] at performed
      have rests : settled stage = true := follows
      split at performed
      · simp only [Option.some.injEq, Prod.mk.injEq, true_and] at performed
        subst performed
        exact keep _ others own fun _ => Or.inl
      · simp only [Option.some.injEq, Prod.mk.injEq, true_and] at performed
        subst performed
        have more : ∀ user, subscribers shared.subscribed user ≠ [] →
            subscribers (shared.subscribed ++ [(server, id)]) user ≠ [] := by
          intro user some_
          simp [subscribers_cons, some_]
        exact keep _ (fun mark member user text here => more user
          (others mark member user text here))
          (fun user text here => more user (own user text here)) fun _ => Or.inl
  | _ =>
      have same : other.subscribed = shared.subscribed ∧ other.published = shared.published := by
        grind [perform]
      rw [← same.1] at own others
      exact keep _ others (fun id text here => own id text
        (after_relaying stage _ result id text (by simp) here))
        fun entry member => Or.inl (same.2 ▸ member)

end Operations

omit [DecidableEq S] [DecidableEq C] in
/-- No handler about to publish to the user among these threads. -/
theorem nobody_relaying (marks : List (Stage S C)) (entries : List (Job S C × Task S C Unit))
    (tied : List.Forall₂ (Tied monitor final) marks entries) (id : Int)
    (quiet : ∀ entry ∈ entries, entry.2.head.any (publishes id) = false) :
    ∀ mark ∈ marks, ∀ text, mark ≠ .relaying id text := by
  rintro mark member text rfl
  obtain ⟨entry, inside, op, next, follows⟩ := busy_head marks entries tied _ member (by simp)
  have publish := relaying_next entry.1 op id text follows
  have silent := quiet entry inside
  simp [next, publish, publishes] at silent

theorem run_attended (pool last : Servers S C) (trace : List (Action (Job S C) Int))
    (attentive : Transition.Guarded servers.step Attentive pool trace)
    (held : Held monitor final (fun shared marks => Inv shared marks ∧ Attended shared marks) pool)
    (ran : Transition.run servers.step pool trace = some last) :
    Held monitor final (fun shared marks => Inv shared marks ∧ Attended shared marks) last := by
  refine run_held servers monitor final _ Attentive ?_ ?_ pool last trace attentive held ran
  · rintro pool marks job shared _ _ ⟨inv, attended⟩ launched
    refine ⟨start job, program_follows job, spawn_inv pool.shared shared marks job inv launched, ?_⟩
    obtain ⟨relay, rfl⟩ := launch_frame job pool.shared shared launched
    refine ⟨forall_append_one _ marks _ (fun id text here => ?_) attended.inHand, attended.reached⟩
    cases job <;> simp [start] at here
  · rintro shared left right before behind mark job op next choice result after tiedLeft tiedRight allowed guarded
      ⟨inv, attended⟩ performed
    simp only [Attentive, aboutTo_split] at guarded
    refine ⟨operation_inv shared left right job mark op choice result after allowed inv performed,
      operation_attended shared left right mark attended job op choice result after allowed ?_ ?_ performed⟩
    · rintro id rfl
      exact guarded
    · rintro server id rfl alone
      have quiet := guarded alone
      rw [others_split] at quiet
      exact nobody_relaying (left ++ right) (before ++ behind)
        (List.rel_append tiedLeft tiedRight) id quiet

/-- Every published message has reached a server; at rest each server it reached
has sent it on the connection it found or has stored it, once. -/
def Relayed (pool : Servers S C) : Prop :=
  (∀ entry ∈ pool.shared.published, entry.2.2 ≠ []) ∧
    (Quiescent pool → ∀ server id text, reaching pool.shared.published server id text =
        sentTo pool.shared.sent id (.relayed server text) + pool.shared.stored.count
          (id, .relayed server text) ∧
      ∀ conn, pool.shared.sent.count (id, conn, .relayed server text) =
        pool.shared.looked.count (id, some conn, .relayed server text))

/-- In every run of any number of servers in which no chat handler reads 'online'
for a user that no server is subscribed to, and no last subscriber leaves while a
handler is about to publish to it, no message of the relay is lost. -/
theorem published_relayed (pool last : Servers S C) (trace : List (Action (Job S C) Int))
    (fresh : Fresh pool)
    (attentive : Transition.Guarded servers.step Attentive pool trace)
    (ran : Transition.run servers.step pool trace = some last) : Relayed last := by
  have begun : Held monitor final
      (fun shared marks => Inv shared marks ∧ Attended shared marks) pool :=
    ⟨[], by rw [fresh.nobody]; exact List.Forall₂.nil, fresh_inv pool fresh, by simp,
      by simp [fresh.published]⟩
  obtain ⟨marks, tied, inv, attended⟩ := run_attended pool last trace attentive begun ran
  refine ⟨attended.reached, ?_⟩
  rintro ⟨quiet, reported⟩ server id text
  obtain ⟨carried, held⟩ := rest_empty last marks tied quiet
  constructor
  · have all := inv.relays server id text
    simpa [reported, carried] using all
  · intro conn
    have all := inv.looks id conn (.relayed server text)
    simpa [held] using all.symm

/-- Two servers, connections numbered. -/
def cluster : Servers Bool Nat := started oneUser []

/-- User 1 logs in on one server; a text reaches it through the other one. -/
def loggedIn : List (Action (Job Bool Nat) Int) := .spawn (.login true 7 1 [120]) :: steps 0 8

def relayedText : List (Action (Job Bool Nat) Int) :=
  loggedIn ++ .spawn (.oneChat false 3 1 [5]) :: steps 1 5 ++
    .spawn (.handlerRedisSubscribeMessage true 1 [5]) :: steps 2 4

theorem published_relayed_sent :
    ∃ last, Transition.run servers.step cluster relayedText = some last ∧ Quiescent last ∧
      last.shared.published = [(1, [5], [true])] ∧ last.shared.sent = [(1, 7, .relayed true [5])] ∧
        Relayed last := by
  have reached : (Transition.run servers.step cluster relayedText).map (fun pool => decide
      (Quiescent pool ∧ pool.shared.published = [(1, [5], [true])] ∧
        pool.shared.sent = [(1, 7, .relayed true [5])])) = some true := by decide +kernel
  obtain ⟨last, ran, state⟩ := Option.map_eq_some_iff.mp reached
  obtain ⟨quiescent, published, sent⟩ := of_decide_eq_true state
  exact ⟨last, ran, quiescent, published, sent,
    published_relayed cluster last relayedText (started_fresh _ _)
    (by decide +kernel) ran⟩

/-- The text comes while loginout has unsubscribed and not yet stored 'offline'. -/
def loggingOut : List (Action (Job Bool Nat) Int) :=
  loggedIn ++ .spawn (.loginout true 7 1) :: steps 1 5 ++ .spawn
    (.oneChat false 3 1 [5]) :: steps 2 5 ++ steps 1 1

theorem published_to_nobody :
    ∃ last, Transition.run servers.step cluster loggingOut = some last ∧ Quiescent last ∧
      last.shared.published = [(1, [5], [])] ∧ last.shared.sent = [] ∧ last.shared.stored = [] ∧
        ¬ Relayed last := by
  have reached : (Transition.run servers.step cluster loggingOut).map (fun pool => decide
      (Quiescent pool ∧ pool.shared.published = [(1, [5], [])] ∧ pool.shared.sent = [] ∧
        pool.shared.stored = [])) = some true := by decide +kernel
  obtain ⟨last, ran, state⟩ := Option.map_eq_some_iff.mp reached
  obtain ⟨quiescent, published, sent, stored⟩ := of_decide_eq_true state
  refine ⟨last, ran, quiescent, published, sent, stored, fun relayed => ?_⟩
  exact relayed.1 (1, [5], []) (by simp [published]) rfl

end MuduoChat.ClusterRelay
