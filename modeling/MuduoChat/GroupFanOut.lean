import MuduoChat.GroupCreators
import MuduoChat.MailFlow

/-!
GROUP_CHAT after any CREATE_GROUP and ADD_GROUP, while every operation succeeds. `joined`
records who has created or joined which group. groupuser has no unique key and addGroup
inserts without a look, so the table has a row for each entry of `joined`, and
groupChat routes the text once for each row.
-/

namespace MuduoChat.GroupFanOut
open Interleaving ChatService
open LoginOutcomes (attempt FailsAt runProg_attempt)
open GroupCreators (Request Effect handler handler_effect made made_nothing made_group)
open MailFlow (sentTo publishedFor)

structure History (S C : Type) where
  shared : Shared S C
  joined : List (Int × Int)

section Model
variable {S C : Type} [DecidableEq S] [DecidableEq C]

/-- The group and the user, for a request that makes the user a member. -/
def joins (shared after : Shared S C) : Request → List (Int × Int)
  | .creatGroup userid name desc => made shared after (.creatGroup userid name desc)
  | .addGroup userid groupid => [(groupid, userid)]

def step (history : History S C) (event : Request × List Int) : Option (History S C) :=
  (runProg perform (handler event.1) event.2 history.shared).map fun result =>
    { shared := result.2, joined := history.joined ++ joins history.shared result.2 event.1 }

/-- How often a text for the user was sent, published or stored. -/
def routedTo (shared : Shared S C) (user : Int) (text : Text) : Nat :=
  sentTo shared.sent user (.chat text) + publishedFor shared.published user text +
    shared.stored.count (user, .chat text)

/-- The members of the group other than s get the text once, and nothing else is routed. -/
def ExactlyOnce (history : History S C) (s groupid : Int) (text : Text)
    (after : Shared S C) : Prop :=
  ∀ user said, routedTo after user said = routedTo history.shared user said +
    if said = text ∧ user ≠ s ∧ (groupid, user) ∈ history.joined then 1 else 0

/-- Nobody but s has joined the group again. -/
def JoinedOnce (history : History S C) (s groupid : Int) : Prop :=
  ∀ user, user ≠ s → history.joined.count (groupid, user) ≤ 1

/-- groupuser has the rows that `joined` says, one for one. -/
def Rows (history : History S C) : Prop :=
  history.shared.groupuser.map (fun row => (row.1, row.2.1)) = history.joined

/-! The table over a whole history. -/

theorem step_rows (before after : History S C) (event : Request × List Int) (rows : Rows before)
    (stepped : step before event = some after) : Rows after := by
  obtain ⟨request, choices⟩ := event
  obtain ⟨⟨_, shared⟩, ran, rfl⟩ := Option.map_eq_some_iff.mp stepped
  have effect : Effect before.shared shared request (choices.map some) := by
    apply handler_effect
    rw [runProg_attempt]
    exact ran
  have succeeds : ∀ place, ¬ FailsAt (choices.map some) place := by
    intro place
    simp [FailsAt]
  unfold Rows at rows ⊢
  cases effect with
  | nothing _ _ groups users _ lost =>
      cases request with
      | creatGroup userid name desc =>
          simp only [joins, made_nothing _ _ _ groups, List.append_nil, users]
          exact rows
      | addGroup userid groupid => exact absurd (lost userid groupid rfl) (succeeds 0)
  | group userid groupid name desc _ fresh groups users =>
      rw [users, if_neg (succeeds 1), List.map_append, rows]
      simp only [joins, made_group _ _ userid groupid name desc fresh groups]
      rfl
  | member userid groupid _ groups users =>
      rw [users, List.map_append, rows]
      rfl

theorem run_rows (first last : History S C) (trace : List (Request × List Int)) (rows : Rows first)
    (ran : Transition.run step first trace = some last) : Rows last :=
  Transition.run_always step Rows
    (fun before event after kept stepped =>
      step_rows before after event kept stepped) first last trace rows ran

/-! One message to the users that the query gives. -/

/-- Sent to the connection, published or stored: one of the three. -/
theorem passOn_routes (id : Int) (text : Text) (shared after : Shared S C)
    (ran : Runs perform (passOn id text) shared () after) (user : Int) (said : Text) :
    routedTo after user said = routedTo shared user said + if said = text ∧ user = id then 1
      else 0 := by
  simp only [passOn, queryUser, call_bind, runs_act, perform, Option.some.injEq,
    Prod.mk.injEq] at ran
  obtain ⟨_, found, middle, ⟨rfl, rfl⟩, tail⟩ := ran
  split at tail
  · simp only [call, runs_act, perform, Option.some.injEq, Prod.mk.injEq, runs_done] at tail
    obtain ⟨_, _, _, ⟨_, rfl⟩, _, rfl⟩ := tail
    simp only [routedTo, MailFlow.publishedFor_append, eq_comm, and_comm]
    omega
  · simp only [call, runs_act, perform, Option.some.injEq, Prod.mk.injEq, runs_done] at tail
    obtain ⟨_, _, _, ⟨_, rfl⟩, _, rfl⟩ := tail
    simp only [routedTo, MailFlow.count_append_one, beq_iff_eq, Prod.mk.injEq, Mail.chat.injEq]
    simp only [eq_comm, and_comm]
    omega

theorem chatAll_routes (server : S) (text : Text) (ids : List Int) (shared after : Shared S C)
    (ran : Runs perform (chatAll server text ids) shared () after) (user : Int) (said : Text) :
    routedTo after user said = routedTo shared user said + if said = text then ids.count user
      else 0 := by
  induction ids generalizing shared with
  | nil =>
      obtain ⟨_, rfl⟩ := (runs_done perform () () shared after).mp ran
      simp
  | cons id rest ih =>
      simp only [chatAll, find, call_bind, runs_act] at ran
      obtain ⟨_, entry, looked, performed, tail⟩ := ran
      have same : routedTo looked user said = routedTo shared user said := by
        simp only [perform, Option.some.injEq, Prod.mk.injEq] at performed
        obtain ⟨_, rfl⟩ := performed
        rfl
      have one : ∃ next, Runs perform (chatAll server text rest) next () after ∧
          routedTo next user said = routedTo looked user said + if said = text ∧ user = id then 1
            else 0 := by
        cases entry with
        | some conn =>
            simp only [runs_act] at tail
            obtain ⟨_, _, next, forwarded, rest⟩ := tail
            simp only [perform, Option.some.injEq, Prod.mk.injEq] at forwarded
            obtain ⟨_, rfl⟩ := forwarded
            refine ⟨_, rest, ?_⟩
            simp only [routedTo, MailFlow.sentTo_append, Mail.chat.injEq]
            simp only [eq_comm, and_comm]
            omega
        | none =>
            obtain ⟨_, next, passed, rest⟩ := (runs_bind perform _ _ looked after ()).mp tail
            exact ⟨next, rest, passOn_routes id text looked next passed user said⟩
      obtain ⟨next, others, here⟩ := one
      rw [ih next others, here, same, List.count_cons]
      simp only [beq_iff_eq]
      by_cases told : said = text
      · by_cases this : user = id
        · simp only [told, this, and_self, if_true]
          omega
        · have away : id ≠ user := fun same => this same.symm
          simp [told, this, away]
      · simp [told]

omit [DecidableEq S] [DecidableEq C] in
/-- The query gives a user as often as the user has joined, and the sender never. -/
theorem count_users (history : History S C) (rows : Rows history) (s groupid user : Int) :
    ((history.shared.groupuser.filter fun row => row.1 = groupid ∧
      row.2.1 ≠ s).map (·.2.1)).count user =
      if user ≠ s then history.joined.count (groupid, user) else 0 := by
  rw [← rows, List.count_eq_countP, List.count_eq_countP, List.countP_map, List.countP_map,
    List.countP_filter]
  split
  · rename_i other
    apply List.countP_congr
    rintro ⟨group, userid, role⟩ _
    simp only [Function.comp, Bool.and_eq_true, beq_iff_eq, decide_eq_true_eq, Prod.mk.injEq]
    constructor
    · rintro ⟨rfl, rfl, _⟩
      exact ⟨rfl, rfl⟩
    · rintro ⟨rfl, rfl⟩
      exact ⟨rfl, rfl, other⟩
  · rename_i same
    rw [List.countP_eq_zero]
    rintro ⟨group, userid, role⟩ _
    simp only [Function.comp, Bool.and_eq_true, beq_iff_eq, decide_eq_true_eq]
    rintro ⟨rfl, _, other⟩
    exact same other

theorem groupChat_routes (history : History S C) (rows : Rows history) (server : S)
    (s groupid : Int) (text : Text)
    (after : Shared S C) (ran : Runs perform (groupChat server s groupid text) history.shared
      () after)
    (user : Int) (said : Text) : routedTo after user said = routedTo history.shared user said +
      if said = text ∧ user ≠ s then history.joined.count (groupid, user) else 0 := by
  simp only [groupChat, call_bind, runs_act] at ran
  obtain ⟨_, ids, middle, queried, tail⟩ := ran
  simp only [perform, Option.some.injEq, Prod.mk.injEq] at queried
  obtain ⟨rfl, rfl⟩ := queried
  rw [chatAll_routes server text _ history.shared after tail user said, count_users history rows]
  by_cases told : said = text <;> simp [told]

end Model

/-! Of two users, user 1 has created group 5 and user 2 has joined it. -/

section Sample

def empty : History Unit Nat :=
  { shared := (started (AList.insert 2 ⟨[98], [121], .offline⟩ oneUser) []).shared, joined := [] }

def requests : List (Request × List Int) :=
    [(.creatGroup 1 [103] [100], [5, 0]), (.addGroup 2 5, [0])]

end Sample

section Model
variable {S C : Type} [DecidableEq S] [DecidableEq C]

theorem fan_out (first last : History S C) (trace : List (Request × List Int)) (rows : Rows first)
    (ran : Transition.run step first trace = some last) (server : S) (s groupid : Int) (text : Text)
    (after : Shared S C) (chat : Runs perform (groupChat server s groupid text) last.shared
      () after) :
    ExactlyOnce last s groupid text after ↔ JoinedOnce last s groupid := by
  have routes := groupChat_routes last
    (run_rows first last trace rows ran) server s groupid text after chat
  constructor
  · intro once user other
    have counted := once user text
    rw [routes user text] at counted
    simp only [other, ne_eq, not_false_iff, and_self, true_and, if_true] at counted
    split at counted <;> omega
  · intro once user said
    rw [routes user said]
    by_cases told : said = text ∧ user ≠ s
    · have few := once user told.2
      by_cases member : (groupid, user) ∈ last.joined
      · have some_ := List.count_pos_iff.mpr member
        simp only [told, member, and_self, ne_eq, not_false_iff, if_true]
        omega
      · simp [told, member, List.count_eq_zero_of_not_mem member]
    · rw [if_neg told, if_neg fun routed => told ⟨routed.1, routed.2.1⟩]

end Model

theorem fan_out_two : ∃ last after, Transition.run step empty requests = some last ∧
    Runs perform (groupChat () 1 5 [109]) last.shared () after ∧ routedTo after 2 [109] = 1 ∧
      ExactlyOnce last 1 5 [109] after := by
  have reached : (Transition.run step empty requests).bind (fun last =>
      (runProg perform (groupChat () 1 5 [109]) [0, 0, 0, 0] last.shared).map fun result =>
        decide (routedTo result.2 2 [109] = 1 ∧ last.joined = [(5, 1), (5, 2)])) = some true := by
    decide +kernel
  obtain ⟨last, ran, chatted⟩ := Option.bind_eq_some_iff.mp reached
  obtain ⟨⟨_, after⟩, chat, state⟩ := Option.map_eq_some_iff.mp chatted
  obtain ⟨routed, joined⟩ := of_decide_eq_true state
  have once : JoinedOnce last 1 5 := by
    intro user _
    rw [joined]
    exact List.nodup_iff_count_le_one.mp (by decide) _
  exact ⟨last, after, ran, ⟨_, chat⟩, routed,
    (fan_out empty last requests rfl ran () 1 5 [109] after ⟨_, chat⟩).mpr once⟩

/-- User 2 joins twice and gets the text twice. -/
theorem fan_out_again : ∃ last after, Transition.run step empty
    (requests ++ [(.addGroup 2 5, [0])]) = some last ∧
    Runs perform (groupChat () 1 5 [109]) last.shared () after ∧ routedTo last.shared 2 [109] = 0 ∧
      routedTo after 2 [109] = 2 ∧ ¬ ExactlyOnce last 1 5 [109] after := by
  have reached : (Transition.run step empty (requests ++ [(.addGroup 2 5, [0])])).bind (fun last =>
      (runProg perform (groupChat () 1 5 [109]) [0, 0, 0, 0, 0, 0, 0] last.shared).map fun result =>
        decide (routedTo last.shared 2 [109] = 0 ∧ routedTo result.2 2 [109] = 2)) = some true := by
    decide +kernel
  obtain ⟨last, ran, chatted⟩ := Option.bind_eq_some_iff.mp reached
  obtain ⟨⟨_, after⟩, chat, state⟩ := Option.map_eq_some_iff.mp chatted
  obtain ⟨before, twice⟩ := of_decide_eq_true state
  refine ⟨last, after, ran, ⟨_, chat⟩, before, twice, fun once => ?_⟩
  have counted := once 2 [109]
  rw [before, twice] at counted
  split at counted <;> omega

end MuduoChat.GroupFanOut
