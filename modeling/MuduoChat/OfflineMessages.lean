import MuduoChat.MailFlow

/-!
One server, and every text routed to a user: sent, listed in a login reply, or
still in offlinemessage. Login reads the user's rows and then deletes them in a
second statement. A row inserted between the two is deleted unread, and a second
login that reads between them lists the rows again. In every run in which nobody
inserts for a user or reads its rows while another login is about to delete them,
and nothing is published to a channel without subscribers, each text is accounted
for exactly once.
-/

namespace MuduoChat.OfflineMessages
open Interleaving ChatService MailFlow

variable {S C : Type} [DecidableEq S] [DecidableEq C]

def removes (id : Int) : Op S C → Bool
  | .removeMsgs userid => userid = id
  | _ => false

/-- No other login is about to delete the rows of the user. -/
def NoRemoval (pool : Servers S C) (thread : Nat) (id : Int) : Prop :=
  ∀ entry ∈ pool.others thread, entry.2.head.any (removes id) = false

def Separate (pool : Servers S C) : Action (Job S C) Int → Prop
  | .spawn _ => True
  | .step thread _ =>
      match pool.aboutTo thread with
      | some (_, .insertMsg id _) => NoRemoval pool thread id
      | some (_, .queryMsgs id) => NoRemoval pool thread id
      | some (_, .publish id _) => subscribers pool.shared.subscribed id ≠ []
      | _ => True

omit [DecidableEq S] [DecidableEq C] in
instance (pool : Servers S C) (thread : Nat) (id : Int) : Decidable (NoRemoval pool thread id) :=
  inferInstanceAs (Decidable (∀ _ ∈ _, _))

omit [DecidableEq S] [DecidableEq C] in
instance (pool : Servers S C) (action : Action (Job S C) Int) :
    Decidable (Separate pool action) := by
  induction action using Interleaving.Action.casesOn with
  | spawn job => exact isTrue trivial
  | step thread choice =>
      dsimp only [Separate]
      generalize pool.aboutTo thread = next
      induction next using nextCases with
      | finished => exact isTrue trivial
      | about job op =>
          induction op using Op.casesOn <;> (dsimp only; infer_instance)

/-! The rows of a user, and the lists that left the table. -/

def storedText (stored : List (Int × Mail S)) (id : Int) (text : Text) : Nat :=
  stored.countP fun entry => entry.1 = id ∧ entry.2.text = text

def listedBy (id : Int) : Ack → List Text
  | .loggedIn user _ vec _ _ => if user = id then vec else []
  | _ => []

/-- How often a text is listed in the login replies of the user. -/
def listed (replies : List (C × Ack)) (id : Int) (text : Text) : Nat :=
  (replies.flatMap fun entry => listedBy id entry.2).count text

def handOf (id : Int) : Stage S C → List Text
  | .holding user vec => if user = id then vec else []
  | _ => []

def inHand (marks : List (Stage S C)) (id : Int) (text : Text) : Nat :=
    (marks.flatMap (handOf id)).count text

def lists (id : Int) : Stage S C → Bool
  | .listing user _ => user = id
  | _ => false

theorem messagesOf_count (rows : List (Int × Text)) (id : Int) (text : Text) :
    (messagesOf rows id).count text = rows.count (id, text) := by
  induction rows with
  | nil => rfl
  | cons row rest ih =>
      obtain ⟨user, said⟩ := row
      unfold messagesOf at ih ⊢
      by_cases here : user = id
      · subst here
        simp only [List.filter_cons, decide_true, if_true, List.map_cons, List.count_cons, ih]
        simp
      · simp only [List.filter_cons, here, decide_false, Bool.false_eq_true, if_false, ih]
        rw [List.count_cons_of_ne (by simp [here])]

theorem removed_count (rows : List (Int × Text)) (id user : Int) (text : Text) :
    (rows.filter fun row => row.1 ≠ id).count (user, text) = if user = id then 0
      else rows.count (user, text) := by
  split
  · rename_i here
    rw [List.count_eq_zero]
    simp [here]
  · rename_i away
    exact List.count_filter (by simpa using away)

theorem messagesOf_removed (rows : List (Int × Text)) (id user : Int) (away : user ≠ id) :
    messagesOf (rows.filter fun row => row.1 ≠ id) user = messagesOf rows user := by
  unfold messagesOf
  rw [List.filter_filter]
  congr 1
  refine List.filter_congr fun row _ => ?_
  by_cases here : row.1 = user
  · simp [here, away]
  · simp [here]

theorem messagesOf_append (rows : List (Int × Text)) (id user : Int) (text : Text)
    (away : user ≠ id) :
    messagesOf (rows ++ [(id, text)]) user = messagesOf rows user := by
  simp [messagesOf, List.filter_append, away.symm]

omit [DecidableEq S] in
theorem storedText_append (stored : List (Int × Mail S)) (entry : Int × Mail S) (id : Int)
    (text : Text) :
    storedText (stored ++ [entry]) id text =
      storedText stored id text + if entry.1 = id ∧ entry.2.text = text then 1 else 0 := by
  simp [storedText, List.countP_append, List.countP_cons]

omit [DecidableEq C] in
theorem listed_append (replies : List (C × Ack)) (entry : C × Ack) (id : Int) (text : Text) :
    listed (replies ++ [entry]) id text = listed replies id text +
      (listedBy id entry.2).count text := by
  simp [listed, List.flatMap_append, List.count_append]

omit [DecidableEq S] [DecidableEq C] in
theorem inHand_split (left right : List (Stage S C)) (stage : Stage S C) (id : Int) (text : Text) :
    inHand (left ++ stage :: right) id text =
      inHand left id text + inHand right id text + (handOf id stage).count text := by
  simp only [inHand, List.flatMap_append, List.flatMap_cons, List.count_append]
  omega

/-- Of the rows that were there and those inserted since: each is in the table, in
a login reply, or deleted and not yet in the reply. A login about to delete has
read what is there, and is alone. -/
structure Kept (rows : List (Int × Text)) (shared : Shared S C)
    (marks : List (Stage S C)) : Prop where
  account : ∀ id text, rows.count (id, text) + storedText shared.stored id text =
    shared.offlinemessage.count (id, text) + listed shared.replies id text + inHand marks id text
  read : ∀ mark ∈ marks, ∀ id vec, mark = .listing id vec →
    messagesOf shared.offlinemessage id = vec
  single : ∀ id, marks.countP (lists id) ≤ 1

def passes : Stage S C → Bool
  | .listing _ _ => false
  | .holding _ _ => false
  | _ => true

omit [DecidableEq S] [DecidableEq C] in
theorem passes_empty (stage : Stage S C) (texts : passes stage = true) (id : Int) :
    handOf id stage = [] ∧ lists id stage = false := by
  cases stage <;> simp_all [passes, handOf, lists]

/-- The operations that touch the rows of a user, or a list that left them. -/
def touchesRows : Op S C → Bool
  | .insertMsg _ _ => true
  | .queryMsgs _ => true
  | .removeMsgs _ => true
  | .reply _ (.loggedIn ..) => true
  | _ => false

omit [DecidableEq S] [DecidableEq C] in
theorem after_elsewhere (job : Job S C) (stage : Stage S C) (op : Op S C) (result : Res op)
    (follows : allowed job stage op) (elsewhere : touchesRows op = false) :
    after stage op result = stage ∨
      (passes stage = true ∧ passes (after stage op result) = true) := by
  cases op with
  | find server id purpose =>
      cases purpose with
      | erasing => exact Or.inl rfl
      | passing mail =>
          refine Or.inr ⟨?_, by cases result <;> rfl⟩
          cases mail <;> simp only [allowed] at follows <;> subst follows <;> rfl
  | queryUser id =>
      right
      rcases follows with rfl | ⟨text, rfl, _⟩
      · exact ⟨rfl, rfl⟩
      · simp only [after, asked]
        split <;> exact ⟨rfl, rfl⟩
  | forward id conn mail => simp only [allowed] at follows; subst follows; exact Or.inr ⟨rfl, rfl⟩
  | publish id text => simp only [allowed] at follows; subst follows; exact Or.inr ⟨rfl, rfl⟩
  | reply conn ack =>
      cases ack with
      | loggedIn => simp [touchesRows] at elsewhere
      | _ => exact Or.inl rfl
  | insertMsg => simp [touchesRows] at elsewhere
  | queryMsgs => simp [touchesRows] at elsewhere
  | removeMsgs => simp [touchesRows] at elsewhere
  | _ => exact Or.inl rfl

omit [DecidableEq S] [DecidableEq C] in
theorem read_replace (left right : List (Stage S C)) (other : Shared S C) (next : Stage S C)
    (own : ∀ id vec, next = .listing id vec → messagesOf other.offlinemessage id = vec)
    (others : ∀ mark ∈ left ++ right, ∀ id vec, mark = .listing id vec →
      messagesOf other.offlinemessage id = vec) :
    ∀ mark ∈ left ++ next :: right, ∀ id vec, mark = .listing id vec →
      messagesOf other.offlinemessage id = vec :=
  (forall_replace (fun mark => ∀ id vec, mark = .listing id vec →
    messagesOf other.offlinemessage id = vec)
    left right next).mpr ⟨own, others⟩

section Operations
variable (rows : List (Int × Text)) (shared : Shared S C) (left right : List (Stage S C))
    (stage : Stage S C)
  (kept : Kept rows shared (left ++ stage :: right))
include kept

omit [DecidableEq S] [DecidableEq C] in
theorem read_split : (∀ id vec, stage = .listing id vec →
    messagesOf shared.offlinemessage id = vec) ∧
    ∀ mark ∈ left ++ right, ∀ id vec, mark = .listing id vec →
      messagesOf shared.offlinemessage id = vec :=
  (forall_replace (fun mark => ∀ id vec, mark = .listing id vec →
    messagesOf shared.offlinemessage id = vec)
    left right stage).mp kept.read

omit [DecidableEq S] [DecidableEq C] in
/-- A step that leaves the rows, the lists and the stage's part in them as they are. -/
theorem kept_elsewhere (other : Shared S C) (next : Stage S C)
    (same : other.offlinemessage = shared.offlinemessage ∧ other.stored = shared.stored ∧
      ∀ id text, listed other.replies id text = listed shared.replies id text)
    (unmoved : next = stage ∨ (passes stage = true ∧ passes next = true)) :
    Kept rows other (left ++ next :: right) := by
  obtain ⟨offlinemessage, stored, replies⟩ := same
  rcases unmoved with rfl | ⟨before, behind⟩
  · refine ⟨fun id text => ?_, ?_, kept.single⟩
    · rw [offlinemessage, stored, replies]
      exact kept.account id text
    · rw [offlinemessage]
      exact kept.read
  · refine ⟨fun id text => ?_, ?_, fun id => ?_⟩
    · have all := kept.account id text
      rw [inHand_split, (passes_empty stage before id).1] at all
      rw [offlinemessage, stored, replies, inHand_split, (passes_empty next behind id).1]
      exact all
    · refine read_replace left right other next ?_ ?_
      · rintro id vec rfl
        simp [passes] at behind
      · rw [offlinemessage]
        exact (read_split rows shared left right stage kept).2
    · refine countP_replace (lists id) left right stage next (kept.single id) fun listing => ?_
      rw [(passes_empty next behind id).2] at listing
      simp at listing

omit [DecidableEq S] [DecidableEq C] in
theorem insert_kept (id : Int) (mail : Mail S) (here : stage = .carrying id mail)
    (alone : ∀ mark ∈ left ++ right, ∀ vec, mark ≠ .listing id vec) :
    Kept rows { shared with offlinemessage := shared.offlinemessage ++ [(id, mail.text)],
                            stored := shared.stored ++ [(id, mail)] } (left ++ .idle :: right) := by
  refine ⟨fun user text => ?_, ?_, fun user => ?_⟩
  · have all := kept.account user text
    rw [inHand_split, here] at all
    rw [inHand_split, storedText_append, count_append_one]
    simp only [handOf, List.count_nil, Nat.add_zero, beq_iff_eq, Prod.mk.injEq] at all ⊢
    omega
  · refine read_replace left right _ .idle (by simp) fun mark member user vec listing => ?_
    have away : user ≠ id := by
      rintro rfl
      exact alone mark member vec listing
    rw [messagesOf_append shared.offlinemessage id user mail.text away]
    exact (read_split rows shared left right stage kept).2 mark member user vec listing
  · exact countP_replace (lists user) left right stage .idle (kept.single user) (by simp [lists])

omit [DecidableEq S] [DecidableEq C] in
theorem query_kept (id : Int) (here : stage = .idle)
    (alone : ∀ mark ∈ left ++ right, ∀ vec, mark ≠ .listing id vec) :
    Kept rows shared (left ++ queried id (messagesOf shared.offlinemessage id) :: right) := by
  have nothing : ∀ vec user, handOf user (queried id vec : Stage S C) = [] := by
    intro vec user
    unfold queried
    split <;> rfl
  refine ⟨fun user text => ?_, ?_, fun user => ?_⟩
  · have all := kept.account user text
    rw [inHand_split, here] at all
    rw [inHand_split, nothing]
    exact all
  · refine read_replace left right shared _ ?_ (read_split rows shared left right stage kept).2
    intro user vec listing
    unfold queried at listing
    split at listing
    · cases listing
    · cases listing
      rfl
  · rw [countP_split]
    by_cases same : user = id
    · subst same
      have others : ∀ mark ∈ left ++ right, lists user mark = false := by
        intro mark member
        cases stage_ : mark with
        | listing other vec =>
            have away : other ≠ user := by
              rintro rfl
              exact alone mark member vec stage_
            simp [lists, away]
        | _ => rfl
      have none_left : left.countP (lists user) = 0 :=
        List.countP_eq_zero.mpr fun mark member =>
          by simp [others mark (List.mem_append_left _ member)]
      have none_right : right.countP (lists user) = 0 :=
        List.countP_eq_zero.mpr fun mark member =>
          by simp [others mark (List.mem_append_right _ member)]
      rw [none_left, none_right]
      split <;> omega
    · have unlisted : lists user (queried id (messagesOf shared.offlinemessage id) : Stage S C) =
        false := by
        unfold queried
        split <;> simp [lists, Ne.symm same]
      have single := kept.single user
      rw [countP_split, here] at single
      rw [unlisted]
      exact single

omit [DecidableEq S] [DecidableEq C] in
/-- What is deleted is what this login has read, for nobody else reads it now. -/
theorem remove_kept (id : Int) (vec : List Text) (here : stage = .listing id vec) :
    Kept rows { shared with offlinemessage := shared.offlinemessage.filter fun row => row.1 ≠ id }
      (left ++ .holding id vec :: right) := by
  obtain ⟨own, others⟩ := read_split rows shared left right stage kept
  refine ⟨fun user text => ?_, ?_, fun user => ?_⟩
  · have all := kept.account user text
    have read := messagesOf_count shared.offlinemessage id text
    rw [own id vec here] at read
    rw [inHand_split, here] at all
    rw [inHand_split, removed_count]
    simp only [handOf, List.count_nil, Nat.add_zero] at all ⊢
    by_cases same : user = id
    · subst same
      simp only [if_true]
      omega
    · simp only [same, Ne.symm same, if_false, List.count_nil]
      exact all
  · refine read_replace left right _ _ (by simp) fun mark member user list listing => ?_
    have single := countP_alone (lists id) left right stage (by simp [here, lists])
      (kept.single id) mark member
    have away : user ≠ id := by
      rintro rfl
      simp [listing, lists] at single
    rw [messagesOf_removed shared.offlinemessage id user away]
    exact others mark member user list listing
  · exact countP_replace (lists user) left right stage (.holding id vec) (kept.single user)
      (by simp [lists])

omit [DecidableEq S] [DecidableEq C] in
theorem reply_kept (conn : C) (id : Int) (name : Text) (vec : List Text) (friends : List User)
    (groups : List Group)
    (here : stage = taken id vec) :
    Kept rows { shared with replies := shared.replies ++
                              [(conn, .loggedIn id name vec friends groups)] }
      (left ++ .idle :: right) := by
  have held : ∀ user, handOf user stage = if id = user then vec else [] := by
    intro user
    rw [here]
    unfold taken
    split
    · rename_i empty
      simp [empty, handOf]
    · rfl
  refine ⟨fun user text => ?_, ?_, fun user => ?_⟩
  · have all := kept.account user text
    rw [inHand_split, held] at all
    rw [inHand_split, listed_append]
    simp only [listedBy, handOf, List.count_nil, Nat.add_zero] at all ⊢
    omega
  · exact read_replace left right _ .idle (by simp) (read_split rows shared left right stage kept).2
  · exact countP_replace (lists user) left right stage .idle (kept.single user) (by simp [lists])

end Operations

theorem operation_kept (rows : List (Int × Text)) (shared other : Shared S C)
    (left right : List (Stage S C))
    (stage : Stage S C) (job : Job S C) (op : Op S C) (choice : Int) (result : Res op)
    (kept : Kept rows shared (left ++ stage :: right)) (follows : allowed job stage op)
    (alone : ∀ id, ((∃ mail, op = .insertMsg id mail) ∨ op = .queryMsgs id) →
      ∀ mark ∈ left ++ right, ∀ vec, mark ≠ .listing id vec)
    (performed : perform choice op shared = some (result, other)) :
    Kept rows other (left ++ (monitor job).after stage op result :: right) := by
  rw [monitor_after]
  cases touching : touchesRows op with
  | false =>
      have unmoved := after_elsewhere job stage op result follows touching
      refine kept_elsewhere rows shared left right stage kept other _ ?_ unmoved
      cases op with
      | reply conn ack => cases ack <;> grind [perform, touchesRows, listed_append, listedBy]
      | _ => grind [perform, touchesRows]
  | true =>
      cases op with
      | insertMsg id mail =>
          simp only [perform, Option.some.injEq, Prod.mk.injEq, true_and] at performed
          subst performed
          exact insert_kept rows shared left right stage kept id mail follows
            (alone id (Or.inl ⟨mail, rfl⟩))
      | queryMsgs id =>
          simp only [perform, Option.some.injEq, Prod.mk.injEq] at performed
          obtain ⟨rfl, rfl⟩ := performed
          exact query_kept rows shared left right stage kept id follows (alone id (Or.inr rfl))
      | removeMsgs id =>
          simp only [perform, Option.some.injEq, Prod.mk.injEq, true_and] at performed
          obtain ⟨vec, rfl⟩ := follows
          subst performed
          exact remove_kept rows shared left right _ kept id vec rfl
      | reply conn ack =>
          simp only [perform, Option.some.injEq, Prod.mk.injEq, true_and] at performed
          subst performed
          cases ack with
          | loggedIn id name vec friends groups =>
              exact reply_kept rows shared left right stage kept conn id name vec
                friends groups follows
          | _ => simp [touchesRows] at touching
      | _ => simp [touchesRows] at touching

/-! One server: every publish reaches it, once. -/

structure Subscribed (shared : Shared Unit C) : Prop where
  once : shared.subscribed.Nodup
  reached : ∀ entry ∈ shared.published, entry.2.2.count () = 1

omit [DecidableEq C] in
theorem reaching_published (shared : Shared Unit C) (subscribed : Subscribed shared) (id : Int)
    (text : Text) :
    reaching shared.published () id text = publishedFor shared.published id text := by
  obtain ⟨_, reached⟩ := subscribed
  generalize shared.published = published at reached
  induction published with
  | nil => rfl
  | cons entry rest ih =>
      have tail := ih fun other member => reached other (List.mem_cons_of_mem _ member)
      have head := reached entry (List.mem_cons_self ..)
      simp only [reaching, publishedFor, List.flatMap_cons, List.count_append,
        List.countP_cons] at tail ⊢
      by_cases here : entry.1 = id ∧ entry.2.1 = text
      · simp only [here, and_self, if_true, decide_true]
        omega
      · simp only [here, if_false, List.count_nil, decide_false, Bool.false_eq_true]
        omega

theorem subscribers_once (subscribed : List (Unit × Int)) (once : subscribed.Nodup) (id : Int)
    (some_ : subscribers subscribed id ≠ []) : (subscribers subscribed id).count () = 1 := by
  have single : (subscribers subscribed id).Nodup := by
    refine List.Nodup.map_on ?_ (once.filter _)
    rintro ⟨_, user⟩ member ⟨_, other⟩ present _
    simp only [List.mem_filter, decide_eq_true_eq] at member present
    simp [member.2, present.2]
  refine List.count_eq_one_of_mem single ?_
  obtain ⟨_, member⟩ := List.exists_mem_of_ne_nil _ some_
  exact member

theorem operation_subscribed (shared other : Shared Unit C) (op : Op Unit C) (choice : Int)
    (result : Res op)
    (subscribed : Subscribed shared)
    (heard : ∀ id text, op = .publish id text → subscribers shared.subscribed id ≠ [])
    (performed : perform choice op shared = some (result, other)) : Subscribed other := by
  obtain ⟨once, reached⟩ := subscribed
  cases op with
  | publish id text =>
      simp only [perform, Option.some.injEq, Prod.mk.injEq, true_and] at performed
      subst performed
      refine ⟨once, fun entry member => ?_⟩
      rcases List.mem_append.mp member with before | new
      · exact reached entry before
      · rw [List.mem_singleton.mp new]
        exact subscribers_once shared.subscribed once id (heard id text rfl)
  | subscribe server id =>
      simp only [perform] at performed
      split at performed
      · cases performed
        exact ⟨once, reached⟩
      · rename_i absent
        cases performed
        refine ⟨List.nodup_append.mpr ⟨once, List.nodup_singleton _, ?_⟩, reached⟩
        rintro entry member last new rfl
        rw [List.mem_singleton.mp new] at member
        exact absent member
  | unsubscribe server id =>
      simp only [perform, Option.some.injEq, Prod.mk.injEq, true_and] at performed
      subst performed
      exact ⟨once.filter _, reached⟩
  | _ =>
      have same : other.subscribed = shared.subscribed ∧ other.published = shared.published := by
        grind [perform]
      exact ⟨by rw [same.1]; exact once, by rw [same.2]; exact reached⟩

/-! Whole runs. -/

omit [DecidableEq S] [DecidableEq C] in
/-- No login about to delete the rows of the user among these threads. -/
theorem nobody_listing (marks : List (Stage S C)) (entries : List (Job S C × Task S C Unit))
    (tied : List.Forall₂ (Tied monitor final) marks entries) (id : Int)
    (quiet : ∀ entry ∈ entries, entry.2.head.any (removes id) = false) :
    ∀ mark ∈ marks, ∀ vec, mark ≠ .listing id vec := by
  rintro mark member vec rfl
  obtain ⟨entry, inside, op, next, follows⟩ := busy_head marks entries tied _ member (by simp)
  have removal := listing_next entry.1 op id vec follows
  have silent := quiet entry inside
  simp [next, removal, removes] at silent

def All (rows : List (Int × Text)) (shared : Shared Unit C) (marks : List (Stage Unit C)) : Prop :=
  Inv shared marks ∧ Kept rows shared marks ∧ Subscribed shared

omit [DecidableEq S] [DecidableEq C] in
theorem spawn_kept (rows : List (Int × Text)) (shared other : Shared S C)
    (marks : List (Stage S C)) (job : Job S C)
    (kept : Kept rows shared marks) (same : other.offlinemessage = shared.offlinemessage ∧
      other.stored = shared.stored ∧ other.replies = shared.replies) : Kept rows other
        (marks ++ [start job]) := by
  have texts : passes (start job : Stage S C) = true := by cases job <;> rfl
  refine ⟨fun id text => ?_, ?_, fun id => ?_⟩
  · rw [same.1, same.2.1, same.2.2]
    simpa [inHand, (passes_empty _ texts id).1] using kept.account id text
  · rw [same.1]
    refine forall_append_one (fun mark => ∀ id vec, mark = .listing id vec →
      messagesOf shared.offlinemessage id = vec) marks _ (fun id vec here => ?_) kept.read
    rw [here] at texts
    simp [passes] at texts
  · refine countP_append_one (lists id) marks _ (kept.single id) fun listing => ?_
    rw [(passes_empty _ texts id).2] at listing
    simp at listing

theorem run_all (rows : List (Int × Text)) (pool last : Servers Unit C)
    (trace : List (Action (Job Unit C) Int))
    (separate : Transition.Guarded servers.step Separate pool trace)
    (held : Held monitor final (All rows) pool)
    (ran : Transition.run servers.step pool trace = some last) :
    Held monitor final (All rows) last := by
  refine run_held servers monitor final (All rows) Separate ?_ ?_ pool last trace separate held ran
  · rintro pool marks job shared _ _ ⟨inv, kept, subscribed⟩ launched
    have placed := spawn_inv pool.shared shared marks job inv launched
    obtain ⟨relay, rfl⟩ := launch_frame job pool.shared shared launched
    exact ⟨start job, program_follows job, placed,
      spawn_kept rows pool.shared _ marks job kept ⟨rfl, rfl, rfl⟩,
      subscribed.once, subscribed.reached⟩
  · rintro shared left right before behind mark job op next choice result after tiedLeft tiedRight allowed guarded
      ⟨inv, kept, subscribed⟩ performed
    simp only [Separate, aboutTo_split] at guarded
    have tied := List.rel_append tiedLeft tiedRight
    refine ⟨operation_inv shared left right job mark op choice result after allowed inv performed,
      operation_kept rows shared after left right mark job op choice result kept allowed ?_ performed,
      operation_subscribed shared after op choice result subscribed ?_ performed⟩
    · rintro id (⟨mail, rfl⟩ | rfl)
      · have quiet : NoRemoval _ _ _ := guarded
        rw [NoRemoval, others_split] at quiet
        exact nobody_listing (left ++ right) (before ++ behind) tied id quiet
      · have quiet : NoRemoval _ _ _ := guarded
        rw [NoRemoval, others_split] at quiet
        exact nobody_listing (left ++ right) (before ++ behind) tied id quiet
    · rintro id text rfl
      exact guarded

def sentText (sent : List (Int × C × Mail S)) (id : Int) (text : Text) : Nat :=
  sent.countP fun entry => entry.1 = id ∧ entry.2.2.text = text

/-- Every text routed to a user, and every row there was: sent on the connection
that the look-up found, or listed in a login reply, or in the table. -/
def Accounted (first last : Servers S C) : Prop :=
  ∀ id text, first.shared.offlinemessage.count (id, text) + last.shared.routed.count (id, text) =
      sentText last.shared.sent id text + listed last.shared.replies id text +
        last.shared.offlinemessage.count (id, text) ∧
    ∀ conn mail, last.shared.sent.count (id, conn, mail) = last.shared.looked.count
      (id, some conn, mail)

theorem countP_either {α : Type} (either one other : α → Bool) (entries : List α)
    (split : ∀ entry, (if either entry then 1 else 0) = (if one entry then 1 else 0) +
      if other entry then 1 else 0) :
    entries.countP either = entries.countP one + entries.countP other := by
  induction entries with
  | nil => rfl
  | cons entry rest ih =>
      rw [List.countP_cons, List.countP_cons, List.countP_cons, ih, split]
      omega

omit [DecidableEq C] in
theorem sentText_split (sent : List (Int × C × Mail Unit)) (id : Int) (text : Text) :
    sentText sent id text = sentTo sent id (.chat text) + sentTo sent id (.relayed () text) := by
  refine countP_either _ _ _ sent fun entry => ?_
  obtain ⟨user, conn, mail⟩ := entry
  cases mail with
  | chat said => by_cases here : user = id ∧ said = text <;> simp [here, Mail.text]
  | relayed server said => by_cases here : user = id ∧ said = text <;> simp [here, Mail.text]

theorem storedText_split (stored : List (Int × Mail Unit)) (id : Int) (text : Text) :
    storedText stored id text = stored.count (id, .chat text) + stored.count
      (id, .relayed () text) := by
  refine countP_either _ _ _ stored fun entry => ?_
  obtain ⟨user, mail⟩ := entry
  cases mail with
  | chat said => by_cases here : user = id ∧ said = text <;> simp [here, Mail.text]
  | relayed server said => by_cases here : user = id ∧ said = text <;> simp [here, Mail.text]

/-- In every run of one server in which nobody inserts or reads a user's rows while
another login is about to delete them, and nothing is published to a channel without
subscribers, no text is lost and none is duplicated. -/
theorem routed_accounted (pool last : Servers Unit C) (trace : List (Action (Job Unit C) Int))
    (fresh : Fresh pool)
    (separate : Transition.Guarded servers.step Separate pool trace)
    (ran : Transition.run servers.step pool trace = some last) (quiescent : Quiescent last) :
    Accounted pool last := by
  have begun : Held monitor final (All pool.shared.offlinemessage) pool := by
    refine ⟨[], by rw [fresh.nobody]; exact List.Forall₂.nil, fresh_inv pool fresh,
      ⟨fun id text => ?_, by simp, by simp⟩,
      fresh.once, by simp [fresh.published]⟩
    simp [fresh.stored, fresh.replies, storedText, listed, inHand]
  obtain ⟨marks, tied, inv, kept, subscribed⟩ := run_all _ pool last trace separate begun ran
  obtain ⟨quiet, reported⟩ := quiescent
  obtain ⟨carried, held⟩ := rest_empty last marks tied quiet
  have idle := quiet_final monitor final marks last tied quiet
  intro id text
  constructor
  · have chats := inv.chats id text
    have relays := inv.relays () id text
    have account := kept.account id text
    have nothing : inHand marks id text = 0 := by
      rw [inHand, List.count_eq_zero]
      simp only [List.mem_flatMap, not_exists, not_and]
      intro mark member
      rw [idle mark member]
      simp [handOf]
    rw [reaching_published last.shared subscribed, reported, carried, List.count_nil] at relays
    rw [carried] at chats
    rw [storedText_split, nothing] at account
    rw [sentText_split]
    omega
  · intro conn mail
    have all := inv.looks id conn mail
    simpa [held] using all.symm

/-- One server, and a user with one offline message. -/
def server : Servers Unit Nat := started oneUser [(1, [3])]

/-- A text before the login, and one after it. -/
def beforeAndAfter : List (Action (Job Unit Nat) Int) :=
  .spawn (.oneChat () 3 1 [5]) :: steps 0 5 ++ .spawn (.login () 7 1 [120]) :: steps 1 9 ++
    .spawn (.oneChat () 3 1 [6]) :: steps 2 4

theorem routed_accounted_login :
    ∃ last, Transition.run servers.step server beforeAndAfter = some last ∧
      last.shared.offlinemessage = [] ∧
      last.shared.sent = [(1, 7, .chat [6])] ∧ listed last.shared.replies 1 [5] = 1 ∧
        Accounted server last := by
  have reached : (Transition.run servers.step server beforeAndAfter).map (fun pool => decide
      (Quiescent pool ∧ pool.shared.offlinemessage = [] ∧ pool.shared.sent = [(1, 7, .chat [6])] ∧
        listed pool.shared.replies 1 [5] = 1)) = some true := by decide +kernel
  obtain ⟨last, ran, state⟩ := Option.map_eq_some_iff.mp reached
  obtain ⟨quiescent, rows, sent, read⟩ := of_decide_eq_true state
  exact ⟨last, ran, rows, sent, read,
    routed_accounted server last beforeAndAfter (started_fresh _ _)
    (by decide +kernel) ran quiescent⟩

/-- oneChat has read 'offline'; it inserts between the two statements of login. -/
def insertedBetween : List (Action (Job Unit Nat) Int) :=
  .spawn (.oneChat () 3 1 [5]) :: steps 0 4 ++ .spawn (.login () 7 1 [120]) :: steps 1 5 ++
    steps 0 1 ++ steps 1 4

theorem inserted_deleted_unread :
    ∃ last, Transition.run servers.step server insertedBetween = some last ∧ Quiescent last ∧
      last.shared.routed = [(1, [5])] ∧ last.shared.sent = [] ∧
        listed last.shared.replies 1 [5] = 0 ∧
      last.shared.offlinemessage = [] ∧ ¬ Accounted server last := by
  have reached : (Transition.run servers.step server insertedBetween).map (fun pool => decide
      (Quiescent pool ∧ pool.shared.routed = [(1, [5])] ∧ pool.shared.sent = [] ∧
        listed pool.shared.replies 1 [5] = 0 ∧ pool.shared.offlinemessage = [])) = some true := by
          decide +kernel
  obtain ⟨last, ran, state⟩ := Option.map_eq_some_iff.mp reached
  obtain ⟨quiescent, routed, sent, read, rows⟩ := of_decide_eq_true state
  refine ⟨last, ran, quiescent, routed, sent, read, rows, fun accounted => ?_⟩
  have lost := (accounted 1 [5]).1
  rw [routed, sent, read, rows] at lost
  exact absurd lost (by decide +kernel)

end MuduoChat.OfflineMessages
