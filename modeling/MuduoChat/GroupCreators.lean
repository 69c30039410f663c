import MuduoChat.LoginOutcomes

/-!
CREATE_GROUP and ADD_GROUP one after the other, while connections and statements may
fail. creatGroup writes the row of the group and the row of its creator over two
connections and does not look at the second result. `created` records which rows of
allgroup the server has made, and for whom.
-/

namespace MuduoChat.GroupCreators
open Interleaving ChatService
open LoginOutcomes (attempt failed FailsAt runProg_act)

structure History (S C : Type) where
  shared : Shared S C
  created : List (Int × Int)

inductive Request where
  | creatGroup (userid : Int) (name desc : Text)
  | addGroup (userid groupid : Int)

section Model
variable {S C : Type} [DecidableEq S] [DecidableEq C]

def handler : Request → Task S C Unit
  | .creatGroup userid name desc => creatGroup userid name desc
  | .addGroup userid groupid => addGroup userid groupid

/-- The rows of allgroup that a request has added. -/
def made (shared after : Shared S C) : Request → List (Int × Int)
  | .creatGroup userid _ _ => (after.allgroup.keys.filter
      fun id => id ∉ shared.allgroup).map fun id => (id, userid)
  | .addGroup _ _ => []

def step (history : History S C) (event : Request × List (Option Int)) : Option (History S C) :=
  (runProg attempt (handler event.1) event.2 history.shared).map fun result =>
    { shared := result.2, created := history.created ++ made history.shared result.2 event.1 }

/-- The users who are in the group as its creator. -/
def creatorsOf (shared : Shared S C) (groupid : Int) : List Int :=
  (shared.groupuser.filter fun row => row.1 = groupid ∧ row.2.2 = .creator).map (·.2.1)

/-- Every group that was made has one creator, the user who made it. -/
def EveryGroup (history : History S C) : Prop :=
  ∀ groupid userid, (groupid, userid) ∈ history.created →
    creatorsOf history.shared groupid = [userid]

/-- The second statement of creatGroup does not fail. -/
def Both (_ : History S C) : Request × List (Option Int) → Prop
  | (.creatGroup _ _ _, choices) => ¬ FailsAt choices 1
  | (.addGroup _ _, _) => True

instance (history : History S C) (event : Request × List (Option Int)) :
    Decidable (Both history event) :=
  match event with
  | (.creatGroup _ _ _, choices) => inferInstanceAs (Decidable (¬ FailsAt choices 1))
  | (.addGroup _ _, _) => isTrue trivial

/-- No creator of a group that does not exist. -/
structure Begins (history : History S C) : Prop where
  fresh : history.created = []
  rows : ∀ row ∈ history.shared.groupuser, row.2.2 = .creator → row.1 ∈ history.shared.allgroup

/-! What one request does to the two tables. -/

inductive Effect (shared after : Shared S C) : Request → List (Option Int) → Prop where
  | nothing (request : Request) (choices : List (Option Int))
      (groups : after.allgroup = shared.allgroup)
      (users : after.groupuser = shared.groupuser)
      (skipped : ∀ userid name desc, request = .creatGroup userid name desc → ¬ FailsAt choices 1)
      (lost : ∀ userid groupid, request = .addGroup userid groupid → FailsAt choices 0) :
      Effect shared after request choices
  | group (userid groupid : Int) (name desc : Text) (choices : List (Option Int))
      (fresh : groupid ∉ shared.allgroup)
      (groups : after.allgroup = shared.allgroup.insert groupid (name, desc))
      (users : after.groupuser = shared.groupuser ++
        if FailsAt choices 1 then [] else [(groupid, userid, GroupRole.creator)]) :
      Effect shared after (.creatGroup userid name desc) choices
  | member (userid groupid : Int) (choices : List (Option Int))
      (groups : after.allgroup = shared.allgroup)
      (users : after.groupuser = shared.groupuser ++ [(groupid, userid, GroupRole.normal)]) :
      Effect shared after (.addGroup userid groupid) choices

theorem addGroup_effect (userid groupid : Int) (role : GroupRole) (choices : List (Option Int))
    (shared after : Shared S C)
    (ran : runProg attempt (call (Op.addGroup userid groupid role)) choices shared = some ((),
      after)) :
    after.allgroup = shared.allgroup ∧ choices.length = 1 ∧
      after.groupuser = shared.groupuser ++ if FailsAt choices 0 then []
        else [(groupid, userid, role)] := by
  rw [call, runProg_act] at ran
  obtain ⟨choice, rest, _, middle, rfl, performed, finish⟩ := ran
  cases rest with
  | cons other more => simp [runProg] at finish
  | nil =>
      simp only [runProg, Option.some.injEq, Prod.mk.injEq, true_and] at finish
      subst finish
      cases choice with
      | none =>
          cases performed
          simp [FailsAt]
      | some chosen =>
          simp only [attempt, perform, Option.some.injEq, Prod.mk.injEq, true_and] at performed
          subst performed
          simp [FailsAt]

theorem handler_effect (request : Request) (choices : List (Option Int)) (shared after : Shared S C)
    (ran : runProg attempt (handler request) choices shared = some ((), after)) :
    Effect shared after request choices := by
  cases request with
  | addGroup userid groupid =>
      obtain ⟨groups, _, users⟩ := addGroup_effect userid groupid .normal choices shared after ran
      by_cases fails : FailsAt choices 0
      · rw [if_pos fails, List.append_nil] at users
        exact .nothing _ _ groups users (by simp) fun _ _ _ => fails
      · rw [if_neg fails] at users
        exact .member userid groupid choices groups users
  | creatGroup userid name desc =>
      simp only [handler, creatGroup, call_bind, runProg_act] at ran
      obtain ⟨choice, rest, created, middle, rfl, performed, tail⟩ := ran
      have refused : created = none → middle = shared →
          Effect shared after (.creatGroup userid name desc) (choice :: rest) := by
        rintro rfl rfl
        cases rest with
        | cons other more => simp [runProg] at tail
        | nil =>
            simp only [pure_eq_done, runProg, Option.some.injEq, Prod.mk.injEq, true_and] at tail
            subst tail
            exact .nothing _ _ rfl rfl (by simp [FailsAt]) (by simp)
      cases choice with
      | none =>
          have given : some (none, shared) = some (created, middle) := performed
          obtain ⟨rfl, rfl⟩ := Prod.mk.inj (Option.some.inj given)
          exact refused rfl rfl
      | some chosen =>
          simp only [attempt, perform] at performed
          split at performed
          · obtain ⟨rfl, rfl⟩ := Prod.mk.inj (Option.some.inj performed)
            exact refused rfl rfl
          · split at performed
            · cases performed
            · rename_i fresh
              obtain ⟨rfl, rfl⟩ := Prod.mk.inj (Option.some.inj performed)
              obtain ⟨groups, _, users⟩ := addGroup_effect userid chosen .creator rest _ after tail
              exact .group userid chosen name desc _ fresh groups users

/-! The tables over a whole history. -/

/-- Creators and recorded groups are in allgroup. -/
structure Inv (history : History S C) : Prop where
  rows : ∀ row ∈ history.shared.groupuser, row.2.2 = .creator → row.1 ∈ history.shared.allgroup
  known : ∀ groupid userid, (groupid, userid) ∈ history.created → groupid ∈ history.shared.allgroup

theorem step_effect (history after : History S C) (request : Request) (choices : List (Option Int))
    (stepped : step history (request, choices) = some after) :
    Effect history.shared after.shared request choices ∧
      after.created = history.created ++ made history.shared after.shared request := by
  obtain ⟨⟨_, shared⟩, ran, rfl⟩ := Option.map_eq_some_iff.mp stepped
  exact ⟨handler_effect request choices history.shared shared ran, rfl⟩

omit [DecidableEq S] [DecidableEq C] in
theorem made_nothing (shared after : Shared S C) (request : Request)
    (groups : after.allgroup = shared.allgroup) :
    made shared after request = [] := by
  cases request with
  | addGroup userid groupid => rfl
  | creatGroup userid name desc =>
      simp only [made, groups, List.map_eq_nil_iff, List.filter_eq_nil_iff, decide_eq_true_eq,
        not_not]
      exact fun id member => member

omit [DecidableEq S] [DecidableEq C] in
theorem made_group (shared after : Shared S C) (userid groupid : Int) (name desc : Text)
    (fresh : groupid ∉ shared.allgroup)
    (groups : after.allgroup = shared.allgroup.insert groupid (name, desc)) :
    made shared after (.creatGroup userid name desc) = [(groupid, userid)] := by
  have absent : groupid ∉ shared.allgroup.keys := fun member => fresh (AList.mem_keys.mpr member)
  have old : shared.allgroup.keys.filter (fun id => id ∉ shared.allgroup) = [] := by
    simp only [List.filter_eq_nil_iff, decide_eq_true_eq, not_not]
    exact fun id member => AList.mem_keys.mpr member
  simp only [made, groups, AList.keys_insert, List.erase_of_not_mem absent, List.filter_cons,
    fresh, not_false_iff,
    decide_true, if_true, old, List.map_cons, List.map_nil]

theorem step_inv (history after : History S C) (event : Request × List (Option Int))
    (inv : Inv history)
    (stepped : step history event = some after) : Inv after := by
  obtain ⟨request, choices⟩ := event
  obtain ⟨effect, record⟩ := step_effect history after request choices stepped
  cases effect with
  | nothing _ _ groups users =>
      constructor
      · rw [users, groups]
        exact inv.rows
      · rw [record, made_nothing _ _ _ groups, List.append_nil, groups]
        exact inv.known
  | group userid groupid name desc _ fresh groups users =>
      constructor
      · intro row member creator
        rw [groups, AList.mem_insert]
        rw [users] at member
        rcases List.mem_append.mp member with old | new
        · exact Or.inr (inv.rows row old creator)
        · split at new
          · simp at new
          · rw [List.mem_singleton.mp new]
            exact Or.inl rfl
      · intro id user recorded
        rw [groups, AList.mem_insert]
        rw [record] at recorded
        rcases List.mem_append.mp recorded with old | new
        · exact Or.inr (inv.known id user old)
        · rw [made_group _ _ userid groupid name desc fresh groups] at new
          exact Or.inl (Prod.mk.inj (List.mem_singleton.mp new)).1
  | member userid groupid _ groups users =>
      constructor
      · intro row member creator
        rw [groups]
        rw [users] at member
        rcases List.mem_append.mp member with old | new
        · exact inv.rows row old creator
        · rw [List.mem_singleton.mp new] at creator
          cases creator
      · rw [record, made_nothing _ _ _ groups, List.append_nil, groups]
        exact inv.known

omit [DecidableEq S] [DecidableEq C] in
theorem creators_append (shared after : Shared S C) (rows : List (Int × Int × GroupRole))
    (groupid : Int)
    (users : after.groupuser = shared.groupuser ++ rows) : creatorsOf after groupid =
      creatorsOf shared groupid ++ (rows.filter fun row => row.1 = groupid ∧
        row.2.2 = .creator).map (·.2.1) := by
  rw [creatorsOf, users, List.filter_append, List.map_append]
  rfl

/-- A recorded group keeps its creators: only a new group gets one. -/
theorem step_creators (history after : History S C) (event : Request × List (Option Int))
    (stepped : step history event = some after) (groupid : Int)
    (known : groupid ∈ history.shared.allgroup) :
    creatorsOf after.shared groupid = creatorsOf history.shared groupid := by
  obtain ⟨request, choices⟩ := event
  obtain ⟨effect, _⟩ := step_effect history after request choices stepped
  cases effect with
  | nothing _ _ groups users => rw [creatorsOf, creatorsOf, users]
  | group userid new name desc _ fresh groups users =>
      have away : new ≠ groupid := by
        rintro rfl
        exact fresh known
      rw [creators_append _ _ _ groupid users]
      split <;> simp [away]
  | member userid other _ groups users =>
      rw [creators_append _ _ _ groupid users]
      simp

omit [DecidableEq S] [DecidableEq C] in
/-- A group that is not there has no creator. -/
theorem fresh_creators (history : History S C) (inv : Inv history) (groupid : Int)
    (fresh : groupid ∉ history.shared.allgroup) : creatorsOf history.shared groupid = [] := by
  simp only [creatorsOf, List.map_eq_nil_iff, List.filter_eq_nil_iff, decide_eq_true_eq]
  rintro row member ⟨rfl, creator⟩
  exact fresh (inv.rows row member creator)

theorem step_every (history after : History S C) (event : Request × List (Option Int))
    (inv : Inv history)
    (every : EveryGroup history) (both : Both history event)
    (stepped : step history event = some after) :
    EveryGroup after := by
  obtain ⟨request, choices⟩ := event
  obtain ⟨effect, record⟩ := step_effect history after request choices stepped
  intro id user recorded
  rw [record] at recorded
  rcases List.mem_append.mp recorded with old | new
  · rw [step_creators history after (request, choices) stepped id (inv.known id user old)]
    exact every id user old
  · cases effect with
    | nothing _ _ groups users =>
        rw [made_nothing _ _ _ groups] at new
        cases new
    | group userid groupid name desc _ fresh groups users =>
        rw [made_group _ _ userid groupid name desc fresh groups] at new
        obtain ⟨rfl, rfl⟩ := Prod.mk.inj (List.mem_singleton.mp new)
        have succeeds : ¬ FailsAt choices 1 := both
        rw [creators_append _ _ _ id users, fresh_creators history inv id fresh, if_neg succeeds]
        simp
    | member userid groupid _ groups users =>
        rw [made_nothing _ _ _ groups] at new
        cases new

/-- A recorded group without a creator. -/
def Orphan (history : History S C) : Prop :=
  ∃ groupid userid, (groupid, userid) ∈ history.created ∧ creatorsOf history.shared groupid = []

theorem step_orphan (history after : History S C) (event : Request × List (Option Int))
    (inv : Inv history)
    (stepped : step history event = some after) (lost : Orphan history ∨ ¬ Both history event) :
    Orphan after := by
  obtain ⟨request, choices⟩ := event
  obtain ⟨effect, record⟩ := step_effect history after request choices stepped
  rcases lost with ⟨id, user, recorded, none_⟩ | unguarded
  · refine ⟨id, user, ?_, ?_⟩
    · rw [record]
      exact List.mem_append_left _ recorded
    · rw [step_creators history after (request, choices) stepped id (inv.known id user recorded)]
      exact none_
  · cases effect with
    | nothing _ _ groups users skipped =>
        cases request with
        | addGroup userid groupid => exact absurd trivial unguarded
        | creatGroup userid name desc => exact absurd (skipped userid name desc rfl) unguarded
    | group userid groupid name desc _ fresh groups users =>
        have fails : FailsAt choices 1 := not_not.mp unguarded
        refine ⟨groupid, userid, ?_, ?_⟩
        · rw [record, made_group _ _ userid groupid name desc fresh groups]
          exact List.mem_append_right _ (List.mem_singleton.mpr rfl)
        · rw [creators_append _ _ _ groupid users, fresh_creators history inv groupid fresh,
            if_pos fails]
          rfl
    | member userid groupid _ groups users => exact absurd trivial unguarded

omit [DecidableEq S] [DecidableEq C] in
theorem begins_inv (first : History S C) (begins : Begins first) : Inv first := by
  constructor
  · exact begins.rows
  · rw [begins.fresh]
    simp

/-- An orphan stays one to the end of the history. -/
theorem run_orphan (first last : History S C) (trace : List (Request × List (Option Int)))
    (inv : Inv first)
    (ran : Transition.run step first trace = some last)
    (lost : Orphan first ∨ ¬ Transition.Guarded step Both first trace) : Orphan last := by
  induction trace generalizing first with
  | nil =>
      cases ran
      exact lost.resolve_right (not_not.mpr trivial)
  | cons event rest ih =>
      obtain ⟨next, stepped, tail⟩ := (Transition.run_cons step first last event rest).mp ran
      have kept := step_inv first next event inv stepped
      -- the request at hand loses the creator, or one already lost, or a later one does
      by_cases here : Orphan first ∨ ¬ Both first event
      · exact ih next kept tail (Or.inl (step_orphan first next event inv stepped here))
      · refine ih next kept tail (Or.inr fun guarded => ?_)
        obtain ⟨owned, both⟩ := not_or.mp here
        refine lost.resolve_left owned ⟨not_not.mp both, ?_⟩
        rw [stepped]
        exact guarded

end Model

/-! User 1 creates a group and user 2 joins it. -/

section Sample

def first : History Unit Nat := { shared := (started oneUser []).shared, created := [] }

def request : Request := .creatGroup 1 [103] [100]

theorem first_begins : Begins first :=
  ⟨rfl, by decide⟩

end Sample

section Model
variable {S C : Type} [DecidableEq S] [DecidableEq C]

end Model

end MuduoChat.GroupCreators
