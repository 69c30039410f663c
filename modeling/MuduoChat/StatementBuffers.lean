import MuduoChat.SqlStatements

/-!
sprintf into `char sql[1024]`. The texts of a request have no bound of their own, and
each statement of a handler has room for what is left of 1024 bytes after its fixed
text, its printed ints and the NUL.
-/

namespace MuduoChat.StatementBuffers
open Interleaving ChatService SqlStatements
open SqlText (Bytes ascii)

def Fits (sql : Bytes) : Prop := sql.length + 1 ≤ 1024

instance (sql : Bytes) : Decidable (Fits sql) := inferInstanceAs (Decidable (_ ≤ _))

/-- The values of an int. -/
def IsInt (value : Int) : Prop := -2147483648 ≤ value ∧ value ≤ 2147483647

/-! The length of each statement. -/

theorem digits_length (value : Nat) (small : value < 10 ^ 10) : (digits value).length ≤ 10 := by
  simp only [digits, List.length_map]
  exact (Nat.length_toDigits_le_iff (by decide) (by decide)).mpr small

theorem decimal_length (value : Int) (int : IsInt value) : (decimal value).length ≤ 11 := by
  obtain ⟨low, high⟩ := int
  have most := digits_length value.natAbs (by omega)
  simp only [decimal, List.length_append]
  split <;> simp only [List.length_cons, List.length_nil] <;> omega

/-- The longest int. -/
theorem decimal_longest : (decimal (-2147483648)).length = 11 := by decide +kernel

theorem insertUser_length (user : User) : (insertUser user).length =
    (cString user.name).length + (cString user.password).length +
    (cString (stateText user.state)).length + 54 := by
  have fixed : (ascii "insert into user(name,password,state) values(").length = 45 := by
    decide +kernel
  have row := SqlText.tuple_length (.string (cString user.name))
    [.string (cString user.password), .string (cString (stateText user.state))]
  simp only [SqlText.rowCost, SqlText.Value.cost] at row
  rw [insertUser_text, List.length_append, fixed]
  omega

theorem createGroup_length (group : Group) : (createGroup group).length =
    (cString group.name).length + (cString group.desc).length + 56 := by
  have fixed : (ascii "insert into allgroup (groupname,groupdesc) values(").length = 50 := by
    decide +kernel
  have row := SqlText.tuple_length (.string (cString group.name)) [.string (cString group.desc)]
  simp only [SqlText.rowCost, SqlText.Value.cost] at row
  rw [createGroup_text, List.length_append, fixed]
  omega

theorem insertMsg_length (userid : Int) (msg : Bytes) : (insertMsg userid msg).length =
    (decimal userid).length + (cString msg).length + 38 := by
  have fixed : (ascii "insert into offlinemessage values(").length = 34 := by decide +kernel
  have row := SqlText.tuple_length (intValue userid) [.string (cString msg)]
  have number := SqlText.literal_length (intValue userid)
  rw [decimal_literal] at number
  have quotes : (SqlText.Value.string (cString msg)).cost = (cString msg).length + 2 := rfl
  simp only [SqlText.rowCost, ← number, quotes] at row
  rw [insertMsg_text, List.length_append, fixed]
  omega

theorem updateState_fits (user : User) (int : IsInt user.id) : Fits (updateState user) := by
  have text : updateState user = ascii "update user set state = '" ++
      (cString (stateText user.state) ++
      (ascii "' where id = " ++ (decimal user.id ++ []))) := rfl
  have state : (cString (stateText user.state)).length ≤ 7 := by
    cases user.state <;> decide +kernel
  have fixed : (ascii "update user set state = '").length = 25 ∧
      (ascii "' where id = ").length = 13 := by decide +kernel
  have id := decimal_length user.id int
  simp only [Fits, text, List.length_append, List.length_nil]
  omega

theorem addGroup_fits (userid groupid : Int) (role : GroupRole) (user : IsInt userid)
    (group : IsInt groupid) :
    Fits (addGroup userid groupid role) := by
  have text : addGroup userid groupid role = ascii "insert into groupuser values(" ++
      (decimal groupid ++
      (ascii "," ++ (decimal userid ++ (ascii ",'" ++ (cString
        (roleText role) ++ ascii "')"))))) := rfl
  have role_ : (cString (roleText role)).length ≤ 7 := by
    cases role <;> decide +kernel
  have fixed : (ascii "insert into groupuser values(").length = 29 ∧ (ascii ",").length = 1 ∧
      (ascii ",'").length = 2 ∧ (ascii "')").length = 2 := by decide +kernel
  have first := decimal_length groupid group
  have second := decimal_length userid user
  simp only [Fits, text, List.length_append]
  omega

/-! The statements of the handlers. -/

section Handlers
variable {S C : Type}

/-- The statement that an operation builds with sprintf from what it is given; the
other statements have ints only. -/
def statementOf : Op S C → Option Bytes
  | .insertUser user => some (insertUser user)
  | .updateState id state => some (updateState { id := id, state := state })
  | .createGroup name desc => some (createGroup { id := -1, name := name, desc := desc })
  | .addGroup userid groupid role => some (addGroup userid groupid role)
  | .insertMsg userid mail => some (insertMsg userid mail.text)
  | _ => none

/-- What the tables hold are ints. -/
def Typed : (op : Op S C) → Res op → Prop
  | .findConn _ _, id => ∀ found ∈ (id : Option Int), IsInt found
  | .queryUser _, user => IsInt (user : User).id
  | .createGroup _ _, id => ∀ found ∈ (id : Option Int), IsInt found
  | .queryGroupUsers _ _, ids => ∀ id ∈ (ids : List Int), IsInt id
  | _, _ => True

/-- Every statement that a program can come to fits, as long as the results are ints. -/
def Every {α : Type} : Task S C α → Prop
  | .done _ => True
  | .act op next => (∀ sql ∈ statementOf op, Fits sql) ∧ ∀ result, Typed op result →
      Every (next result)

/-- The ids of a request are ints. -/
def Ints : Job S C → Prop
  | .login _ _ id _ => IsInt id
  | .reg _ _ _ _ => True
  | .loginout _ _ userid => IsInt userid
  | .oneChat _ _ toid _ => IsInt toid
  | .addFriend _ _ userid friendid => IsInt userid ∧ IsInt friendid
  | .creatGroup _ _ userid _ _ => IsInt userid
  | .addGroup _ _ userid groupid => IsInt userid ∧ IsInt groupid
  | .groupChat _ _ userid groupid _ => IsInt userid ∧ IsInt groupid
  | .clientCloseException _ _ => True
  | .handlerRedisSubscribeMessage _ userid _ => IsInt userid

/-- The texts of a request leave room for the rest of its statement. -/
def Room : Job S C → Prop
  | .reg _ _ name pwd => (cString name).length + (cString pwd).length ≤ 962
  | .oneChat _ _ toid text => (decimal toid).length + (cString text).length ≤ 985
  | .creatGroup _ _ _ name desc => (cString name).length + (cString desc).length ≤ 967
  | .groupChat _ _ _ _ text => (cString text).length ≤ 974
  | .handlerRedisSubscribeMessage _ userid msg =>
      (decimal userid).length + (cString msg).length ≤ 985
  | _ => True

theorem insertUser_fits (name pwd : Text) : Fits (insertUser { name := name, password := pwd }) ↔
    (cString name).length + (cString pwd).length ≤ 962 := by
  have state : (cString (stateText .offline)).length = 7 := by decide +kernel
  simp only [Fits, insertUser_length, state]
  omega

theorem createGroup_fits (name desc : Text) :
    Fits (createGroup { id := -1, name := name, desc := desc }) ↔
    (cString name).length + (cString desc).length ≤ 967 := by
  simp only [Fits, createGroup_length]
  omega

theorem insertMsg_fits (userid : Int) (msg : Bytes) : Fits (insertMsg userid msg) ↔
    (decimal userid).length + (cString msg).length ≤ 985 := by
  simp only [Fits, insertMsg_length]
  omega

@[simp] theorem every_act {α : Type} (op : Op S C) (next : Res op → Task S C α) :
  Every (.act op next) ↔
    (∀ sql ∈ statementOf op, Fits sql) ∧ ∀ result, Typed op result → Every (next result) := Iff.rfl

theorem every_bind {α β : Type} (first : Task S C α) (next : α → Task S C β) (begins : Every first)
    (continues : ∀ value, Every (next value)) : Every (first >>= next) := by
  induction first with
  | done value => exact continues value
  | act op rest ih => exact ⟨begins.1, fun result typed => ih result (begins.2 result typed)⟩

/-- An operation without a text of its own. -/
theorem every_silent {α : Type} (op : Op S C) (next : Res op → Task S C α)
    (silent : statementOf op = none)
    (continues : ∀ result, Typed op result → Every (next result)) : Every (.act op next) :=
  ⟨by simp [silent], continues⟩

theorem every_update {α : Type} (id : Int) (state : UserState) (next : Unit → Task S C α)
    (int : IsInt id)
    (continues : Every (next ())) : Every (.act (Op.updateState id state) next) := by
  refine ⟨?_, fun _ _ => continues⟩
  rintro sql ⟨⟩
  exact updateState_fits _ int

theorem passOn_every (id : Int) (text : Text) :
    Every (passOn id text : Task S C Unit) ↔ (decimal id).length + (cString text).length ≤ 985 := by
  rw [← insertMsg_fits]
  simp only [passOn, queryUser, call_bind]
  constructor
  · rintro ⟨_, all⟩
    -- a user without a row is offline, so the text is stored
    have offline := all ({} : User) (show IsInt (-1) from ⟨by decide, by decide⟩)
    exact offline.1 _ rfl
  · intro fits
    refine every_silent _ _ rfl fun user _ => ?_
    split
    · exact every_silent _ _ rfl fun _ _ => trivial
    · refine ⟨?_, fun _ _ => trivial⟩
      rintro sql ⟨⟩
      exact fits

theorem chatAll_every (server : S) (text : Text) (ids : List Int) :
    (∀ id ∈ ids, (decimal id).length + (cString text).length ≤ 985) →
    Every (chatAll server text ids : Task S C Unit) := by
  intro room
  induction ids with
  | nil => trivial
  | cons id rest ih =>
      have tail := ih fun other member => room other (List.mem_cons_of_mem _ member)
      simp only [chatAll, ChatService.find, call_bind]
      refine every_silent _ _ rfl fun entry _ => ?_
      cases entry with
      | some conn => exact every_silent _ _ rfl fun _ _ => tail
      | none => exact every_bind _ _ ((passOn_every id text).mpr (room id (by simp))) fun _ => tail

theorem members_every (groups : List Group) :
    Every (withMembers groups : Task S C (List Group)) := by
  induction groups with
  | nil => trivial
  | cons group rest ih =>
      simp only [withMembers, call_bind]
      exact every_silent _ _ rfl fun users _ => every_bind _ _ ih fun _ => trivial

theorem offline_every (id : Int) : Every (takeOffline id : Task S C (List Text)) := by
  simp only [takeOffline, call_bind]
  refine every_silent _ _ rfl fun vec _ => ?_
  split
  · trivial
  · exact every_silent _ _ rfl fun _ _ => trivial

theorem login_every (server : S) (conn : C) (id : Int) (pwd : Text) :
    Every (login server conn id pwd) := by
  simp only [login, queryUser, ChatService.updateState, reply, queryGroups, call_bind, act_bind]
  refine every_silent _ _ rfl fun user int => ?_
  split
  · split
    · exact every_silent _ _ rfl fun _ _ => trivial
    · refine every_silent _ _ rfl fun _ _ => every_silent _ _ rfl fun _ _ =>
        every_update _ _ _ int ?_
      refine every_bind _ _ (offline_every id) fun vec => every_silent _ _ rfl fun friends _ => ?_
      refine every_silent _ _ rfl fun groups _ => every_bind _ _ (members_every groups) fun all =>
        ?_
      exact every_silent _ _ rfl fun _ _ => trivial
  · exact every_silent _ _ rfl fun _ _ => trivial

theorem reg_every (conn : C) (name pwd : Text) : Every (reg conn name pwd : Task S C Unit) ↔
    (cString name).length + (cString pwd).length ≤ 962 := by
  simp only [reg, reply, call_bind, ← insertUser_fits]
  constructor
  · exact fun all => all.1 _ rfl
  · intro fits
    refine ⟨?_, fun inserted _ => ?_⟩
    · rintro sql ⟨⟩
      exact fits
    · cases inserted <;> exact every_silent _ _ rfl fun _ _ => trivial

theorem loginout_every (server : S) (userid : Int) (int : IsInt userid) :
    Every (loginout server userid : Task S C Unit) := by
  simp only [loginout, lock, unlock, find, ChatService.updateState, call_bind]
  refine every_silent _ _ rfl fun _ _ => every_silent _ _ rfl fun entry _ => ?_
  have leaving : Every (.act (Op.unlock server) fun _ => .act (Op.unsubscribe server userid)
      fun _ =>
      call (Op.updateState userid .offline) : Task S C Unit) :=
    every_silent _ _ rfl fun _ _ => every_silent _ _ rfl fun _ _ => every_update _ _ _ int trivial
  cases entry with
  | some conn => exact every_silent _ _ rfl fun _ _ => leaving
  | none => exact leaving

theorem oneChat_every (server : S) (toid : Int) (text : Text) :
    Every (oneChat server toid text : Task S C Unit) ↔
    (decimal toid).length + (cString text).length ≤ 985 := by
  simp only [oneChat, lock, unlock, find, call_bind, ← passOn_every (S := S) (C := C)]
  constructor
  · rintro ⟨_, all⟩
    exact ((all () trivial).2 none trivial).2 () trivial
  · intro room
    refine every_silent _ _ rfl fun _ _ => every_silent _ _ rfl fun entry _ => ?_
    cases entry with
    | some conn => exact every_silent _ _ rfl fun _ _ => every_silent _ _ rfl fun _ _ => trivial
    | none => exact every_silent _ _ rfl fun _ _ => room

theorem creatGroup_every (userid : Int) (name desc : Text) (int : IsInt userid) :
    Every (creatGroup userid name desc : Task S C Unit) ↔
      (cString name).length + (cString desc).length ≤ 967 := by
  simp only [creatGroup, call_bind, ← createGroup_fits]
  constructor
  · exact fun all => all.1 _ rfl
  · intro fits
    refine ⟨?_, fun created typed => ?_⟩
    · rintro sql ⟨⟩
      exact fits
    · cases created with
      | none => trivial
      | some groupid =>
          refine ⟨?_, fun _ _ => trivial⟩
          rintro sql ⟨⟩
          exact addGroup_fits userid groupid _ int (typed groupid rfl)

theorem groupChat_every (server : S) (userid groupid : Int) (text : Text) :
    Every (groupChat server userid groupid text : Task S C Unit) ↔ (cString text).length ≤ 974 := by
  simp only [groupChat, call_bind]
  constructor
  · rintro ⟨_, all⟩
    -- a member with the longest id, who is neither in the map nor online
    have member := all [-2147483648] (fun id listed => by
      rw [List.mem_singleton.mp listed]
      exact ⟨by decide, by decide⟩)
    have asked : Every (passOn (-2147483648) text >>=
        fun _ => chatAll server text [] : Task S C Unit) :=
      member.2 none trivial
    have offline := asked.2 ({} : User) (show IsInt (-1) from ⟨by decide, by decide⟩)
    have stored := (insertMsg_fits (-2147483648) text).mp (offline.1 _ rfl)
    rw [decimal_longest] at stored
    omega
  · intro room
    refine every_silent _ _ rfl fun ids typed => chatAll_every server text ids fun id listed => ?_
    have most := decimal_length id (typed id listed)
    omega

theorem close_every (server : S) (conn : C) : Every (clientCloseException server conn) := by
  simp only [clientCloseException, lock, unlock, ChatService.updateState, call_bind]
  refine every_silent _ _ rfl fun _ _ => every_silent _ _ rfl fun entry typed => ?_
  cases entry with
  | some id =>
      refine every_silent _ _ rfl fun _ _ => every_silent _ _ rfl fun _ _ =>
        every_silent _ _ rfl fun _ _ => ?_
      split
      · exact every_update _ _ _ (typed id rfl) trivial
      · trivial
  | none =>
      refine every_silent _ _ rfl fun _ _ => every_silent _ _ rfl fun _ _ => ?_
      simp [Every]

theorem relayed_every (server : S) (userid : Int) (msg : Text) :
    Every (handlerRedisSubscribeMessage server userid msg : Task S C Unit) ↔
      (decimal userid).length + (cString msg).length ≤ 985 := by
  simp only [handlerRedisSubscribeMessage, lock, unlock, find, call_bind, ← insertMsg_fits]
  constructor
  · rintro ⟨_, all⟩
    exact ((all () trivial).2 none trivial).1 _ rfl
  · intro fits
    refine every_silent _ _ rfl fun _ _ => every_silent _ _ rfl fun entry _ => ?_
    cases entry with
    | some conn => exact every_silent _ _ rfl fun _ _ => every_silent _ _ rfl fun _ _ => trivial
    | none =>
        refine ⟨?_, fun _ _ => every_silent _ _ rfl fun _ _ => trivial⟩
        rintro sql ⟨⟩
        exact fits

/-- The statements of a handler fit just where the texts of its request leave room. -/
theorem statements_fit (job : Job S C) (ints : Ints job) : Every (program job) ↔ Room job := by
  cases job with
  | login server conn id pwd => exact ⟨fun _ => trivial, fun _ => login_every server conn id pwd⟩
  | reg server conn name pwd => exact reg_every conn name pwd
  | loginout server conn userid =>
      exact ⟨fun _ => trivial, fun _ => loginout_every server userid ints⟩
  | oneChat server conn toid text => exact oneChat_every server toid text
  | addFriend server conn userid friendid =>
      exact ⟨fun _ => trivial, fun _ => every_silent _ _ rfl fun _ _ => trivial⟩
  | creatGroup server conn userid name desc => exact creatGroup_every userid name desc ints
  | addGroup server conn userid groupid =>
      refine ⟨fun _ => trivial, fun _ => ⟨?_, fun _ _ => trivial⟩⟩
      rintro sql ⟨⟩
      exact addGroup_fits userid groupid _ ints.1 ints.2
  | groupChat server conn userid groupid text => exact groupChat_every server userid groupid text
  | clientCloseException server conn => exact ⟨fun _ => trivial, fun _ => close_every server conn⟩
  | handlerRedisSubscribeMessage server userid msg => exact relayed_every server userid msg

end Handlers

theorem statements_fit_short : Every (program (.oneChat true 7 1 [5] : Job Bool Nat)) :=
  (statements_fit (.oneChat true 7 1 [5]) (show IsInt 1 from ⟨by decide, by decide⟩)).mpr
    (by decide +kernel : (decimal 1).length + (cString [5]).length ≤ 985)

/-- A text of a thousand bytes for a user who is offline. -/
theorem statement_overflows : ¬ Fits (insertMsg 1 (List.replicate 1000 97)) ∧
    ¬ Every (program (.oneChat true 7 1 (List.replicate 1000 97) : Job Bool Nat)) := by
  have long : ¬ Fits (insertMsg 1 (List.replicate 1000 97)) := by decide +kernel
  refine ⟨long, ?_⟩
  rintro ⟨_, all⟩
  have asked : Every (passOn 1 (List.replicate 1000 97) : Task Bool Nat Unit) :=
    ((all () trivial).2 none trivial).2 () trivial
  exact long ((insertMsg_fits _ _).mpr
    ((passOn_every (S := Bool) (C := Nat) 1 (List.replicate 1000 97)).mp asked))

end MuduoChat.StatementBuffers
