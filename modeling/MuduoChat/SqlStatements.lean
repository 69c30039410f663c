import Mathlib.Data.List.TakeWhile
import MuduoChat.ChatService
import MuduoChat.SqlText

/-!
The statements that the model classes build with sprintf, and what MySQL reads in
them. Names, passwords, descriptions and messages go between the quotes as they are.
-/

namespace MuduoChat.SqlStatements
open ChatService (User UserState GroupRole Group)
open SqlText

/-! sprintf with the two conversions that the statements use. -/

inductive Arg where
  | text (value : Bytes)
  | int (value : Int)

/-- `c_str()` ends at the first NUL. -/
def cString (text : Bytes) : Bytes := text.takeWhile fun byte => byte ≠ 0

def digits (value : Nat) : Bytes := (Nat.toDigits 10 value).map fun digit => UInt8.ofNat digit.toNat

def decimal (value : Int) : Bytes := (if value < 0 then [45] else []) ++ digits value.natAbs

def sprintf : Bytes → List Arg → Bytes
  | 37 :: 115 :: rest, .text value :: args => cString value ++ sprintf rest args
  | 37 :: 100 :: rest, .int value :: args => decimal value ++ sprintf rest args
  | byte :: rest, args => byte :: sprintf rest args
  | [], _ => []

def stateText : UserState → Bytes
  | .online => ascii "online"
  | .offline => ascii "offline"

def roleText : GroupRole → Bytes
  | .creator => ascii "creator"
  | .normal => ascii "normal"

/-! The statements of the model classes. -/

/-- UserModel::insert -/
def insertUser (user : User) : Bytes :=
  sprintf (ascii "insert into user(name,password,state) values('%s','%s','%s')")
    [.text user.name, .text user.password, .text (stateText user.state)]

/-- UserModel::updateState -/
def updateState (user : User) : Bytes :=
  sprintf (ascii "update user set state = '%s' where id = %d") [.text (stateText user.state),
    .int user.id]

/-- GroupModel::createGroup -/
def createGroup (group : Group) : Bytes :=
  sprintf (ascii "insert into allgroup (groupname,groupdesc) values('%s','%s')") [.text group.name,
    .text group.desc]

/-- GroupModel::addGroup -/
def addGroup (userid groupid : Int) (role : GroupRole) : Bytes :=
  sprintf (ascii "insert into groupuser values(%d,%d,'%s')") [.int groupid, .int userid,
    .text (roleText role)]

/-- OfflineMsgModel::insert -/
def insertMsg (userid : Int) (msg : Bytes) : Bytes :=
  sprintf (ascii "insert into offlinemessage values(%d,'%s')") [.int userid, .text msg]

/-! The table offlinemessage. -/

def numberOf (negative : Bool) (digits : Bytes) : Int :=
  let value := Nat.ofDigitChars 10 (digits.map fun byte => Char.ofNat byte.toNat) 0
  if negative then -value else value

def rowOf : List Value → Option (Int × Bytes)
  | [.number negative digits, .string message] => some (numberOf negative digits, message)
  | _ => none

/-- mysql_query with a statement of OfflineMsgModel::insert; a text that is no such
statement is an error. -/
def update (offlinemessage : List (Int × Bytes)) (sql : Bytes) : List (Int × Bytes) :=
  match SqlText.read sql with
  | some ⟨table, [], rows⟩ =>
      if table = ascii "offlinemessage" then offlinemessage ++ (rows.mapM rowOf).getD []
      else offlinemessage
  | _ => offlinemessage

/-- OfflineMsgModel::query: `vec.push_back(row[0])` takes a C string. -/
def queryMsgs (offlinemessage : List (Int × Bytes)) (userid : Int) : List Bytes :=
  (offlinemessage.filter fun row => row.1 = userid).map fun row => cString row.2

/-! What sprintf prints. -/

def Clean (text : Bytes) : Prop := plain text = true ∧ 0 ∉ text

instance (text : Bytes) : Decidable (Clean text) := inferInstanceAs (Decidable (_ ∧ _))

theorem cString_same (text : Bytes) : cString text = text ↔ 0 ∉ text := by
  simp only [cString, List.takeWhile_eq_self_iff, decide_eq_true_eq]
  constructor
  · intro all member
    exact all 0 member rfl
  · rintro absent byte member rfl
    exact absent member

theorem cString_length (text : Bytes) :
    (cString text).length ≤ text.length := (List.takeWhile_prefix _).length_le

theorem cString_shorter (text : Bytes) (same : (cString text).length = text.length) :
    cString text = text :=
  (List.takeWhile_prefix _).eq_of_length same

theorem digit_bounds (value : Nat) (digit : Char) (member : digit ∈ Nat.toDigits 10 value) :
    48 ≤ digit.toNat ∧ digit.toNat ≤ 57 :=
  Char.isDigit_iff_toNat.mp (Nat.isDigit_of_mem_toDigits (by decide) (by decide) member)

theorem digit_byte (value : Nat) (digit : Char) (member : digit ∈ Nat.toDigits 10 value) :
    (UInt8.ofNat digit.toNat).toNat = digit.toNat := by
  have high := (digit_bounds value digit member).2
  have size : UInt8.size = 256 := rfl
  exact UInt8.toNat_ofNat_of_lt' (by omega)

theorem digits_number (value : Nat) : number (digits value) = true := by
  simp only [number_digits, digits, ne_eq, List.map_eq_nil_iff]
  refine ⟨Nat.toDigits_ne_nil, fun byte member => ?_⟩
  obtain ⟨digit, here, rfl⟩ := List.mem_map.mp member
  rw [UInt8.le_iff_toNat_le, UInt8.le_iff_toNat_le, digit_byte value digit here]
  exact digit_bounds value digit here

theorem digits_value (value : Int) :
    numberOf (decide (value < 0)) (digits value.natAbs) = value := by
  have back : (digits value.natAbs).map (fun byte => Char.ofNat byte.toNat) =
      Nat.toDigits 10 value.natAbs := by
    rw [digits, List.map_map]
    refine (List.map_congr_left fun digit member => ?_).trans (List.map_id _)
    simp only [Function.comp_apply, id_eq]
    rw [digit_byte value.natAbs digit member, Char.ofNat_toNat]
  simp only [numberOf, back, Nat.ofDigitChars_ten_toDigits, decide_eq_true_eq]
  split <;> omega

def intValue (value : Int) : Value := .number (decide (value < 0)) (digits value.natAbs)

theorem decimal_literal (value : Int) : literal (intValue value) = decimal value := by
  simp [literal, intValue, decimal]

/-- A value as sprintf prints it. -/
def shown : Value → Value
  | .string text => .string (cString text)
  | .number negative digits => .number negative digits

theorem insertUser_text (user : User) :
    insertUser user = ascii "insert into user(name,password,state) values(" ++
    tuple [.string (cString user.name), .string (cString user.password),
      .string (cString (stateText user.state))] := by
  simp only [tuple, literal, List.cons_append, List.append_assoc, List.nil_append]
  rfl

theorem createGroup_text (group : Group) :
    createGroup group = ascii "insert into allgroup (groupname,groupdesc) values(" ++
    tuple [.string (cString group.name), .string (cString group.desc)] := by
  simp only [tuple, literal, List.cons_append, List.append_assoc, List.nil_append]
  rfl

theorem insertMsg_text (userid : Int) (msg : Bytes) : insertMsg userid msg =
    ascii "insert into offlinemessage values(" ++ tuple [intValue userid, .string (cString msg)] :=
      by
  simp only [tuple, decimal_literal]
  simp only [literal, List.cons_append, List.append_assoc, List.nil_append]
  rfl

/-! What MySQL reads. -/

theorem shown_cost (value : Value) : (shown value).cost ≤ value.cost := by
  cases value with
  | string text =>
      have shorter := cString_length text
      simp only [shown, Value.cost]
      omega
  | number negative digits => exact Nat.le_refl _

theorem shown_rowCost (row : List Value) : rowCost (row.map shown) ≤ rowCost row ∧
    (rowCost (row.map shown) = rowCost row → ∀ value ∈ row, (shown value).cost = value.cost) := by
  induction row with
  | nil => simp
  | cons value rest ih =>
      have here := shown_cost value
      obtain ⟨most, equal⟩ := ih
      simp only [rowCost, List.map_cons] at most equal ⊢
      refine ⟨by omega, fun same other member => ?_⟩
      rcases List.mem_cons.mp member with rfl | later
      · omega
      · exact equal (by omega) other later

/-- A row comes back as it was given just where its strings need no quoting. -/
theorem row_reads (text table : Bytes) (columns : List Bytes) (tokens : List Token)
    (header : Header text table columns tokens) (first : Value) (rest : List Value)
    (numbers : ∀ negative digits, Value.number negative digits ∈ first :: rest →
      number digits = true) :
    read (text ++ tuple ((first :: rest).map shown)) = some ⟨table, columns, [first :: rest]⟩ ↔
      ∀ string, Value.string string ∈ first :: rest → Clean string := by
  obtain ⟨most, equal⟩ := shown_rowCost (first :: rest)
  constructor
  · intro reads string member
    obtain ⟨same, plain_⟩ := tuple_plain text table columns tokens header (shown first)
      (rest.map shown) (first :: rest)
      most reads
    have costs := equal same (.string string) member
    simp only [shown, Value.cost, Nat.add_right_cancel_iff] at costs
    exact ⟨plain_ string member, (cString_same string).mp (cString_shorter string costs)⟩
  · intro clean
    have same : (first :: rest).map shown = first :: rest := by
      refine (List.map_congr_left fun value member => ?_).trans (List.map_id _)
      cases value with
      | string string =>
          exact congrArg Value.string ((cString_same string).mpr (clean string member).2)
      | number negative digits => rfl
    rw [same]
    refine tuple_reads text table columns tokens header first rest fun value member => ?_
    cases value with
    | string string => exact (clean string member).1
    | number negative digits => exact numbers negative digits member

theorem user_header : Header (ascii "insert into user(name,password,state) values(") (ascii "user")
    [ascii "name", ascii "password", ascii "state"]
    ((scan (ascii "insert into user(name,password,state) values(")
      .between []).getD []) := ⟨fun _ => rfl, fun _ => rfl⟩

theorem group_header : Header (ascii "insert into allgroup (groupname,groupdesc) values(")
    (ascii "allgroup")
    [ascii "groupname", ascii "groupdesc"]
    ((scan (ascii "insert into allgroup (groupname,groupdesc) values(")
      .between []).getD []) := ⟨fun _ => rfl, fun _ => rfl⟩

theorem message_header : Header (ascii "insert into offlinemessage values(")
    (ascii "offlinemessage") []
    ((scan (ascii "insert into offlinemessage values(") .between []).getD []) :=
    ⟨fun _ => rfl, fun _ => rfl⟩

theorem state_clean (state : UserState) : Clean (stateText state) := by
  cases state <;> decide

/-- The rows that the three INSERT statements are meant to add. -/
def userRow (user : User) : List Value :=
    [.string user.name, .string user.password, .string (stateText user.state)]

def groupRow (group : Group) : List Value := [.string group.name, .string group.desc]

def messageRow (userid : Int) (msg : Bytes) : List Value := [intValue userid, .string msg]

theorem insertUser_reads (user : User) : read (insertUser user) =
      some ⟨ascii "user", [ascii "name", ascii "password", ascii "state"], [userRow user]⟩ ↔
    Clean user.name ∧ Clean user.password := by
  have reads := row_reads _ _ _ _ user_header (.string user.name) [.string user.password,
    .string (stateText user.state)] (by simp)
  simp only [List.map_cons, List.map_nil, shown, ← insertUser_text] at reads
  rw [userRow, reads]
  have state := state_clean user.state
  simp [state]

theorem createGroup_reads (group : Group) : read (createGroup group) =
      some ⟨ascii "allgroup", [ascii "groupname", ascii "groupdesc"], [groupRow group]⟩ ↔
    Clean group.name ∧ Clean group.desc := by
  have reads := row_reads _ _ _ _ group_header (.string group.name) [.string group.desc] (by simp)
  simp only [List.map_cons, List.map_nil, shown, ← createGroup_text] at reads
  rw [groupRow, reads]
  simp

theorem insertMsg_reads (userid : Int) (msg : Bytes) : read (insertMsg userid msg) =
    some ⟨ascii "offlinemessage", [], [messageRow userid msg]⟩ ↔ Clean msg := by
  have reads := row_reads _ _ _ _ message_header (intValue userid) [.string msg]
    (by simp [intValue, digits_number])
  simp only [List.map_cons, List.map_nil, shown, intValue] at reads
  have text := insertMsg_text userid msg
  rw [intValue] at text
  rw [messageRow, intValue, text, reads]
  simp

/-- A message that was read as it was given comes back byte for byte. -/
theorem message_returns (userid : Int) (msg : Bytes) (offlinemessage : List (Int × Bytes))
    (clean : Clean msg) :
    queryMsgs (update offlinemessage (insertMsg userid msg)) userid =
      queryMsgs offlinemessage userid ++ [msg] := by
  have reads := (insertMsg_reads userid msg).mpr clean
  have row : rowOf (messageRow userid msg) = some (userid, msg) := by
    simp only [messageRow, intValue, rowOf, digits_value]
  simp only [update, reads, if_true, queryMsgs]
  simp [row, (cString_same msg).mpr clean.2]

/-- The text between the quotes is not escaped, so it must not need it. -/
theorem texts_survive (user : User) (group : Group) (userid : Int) (msg : Bytes)
    (offlinemessage : List (Int × Bytes)) :
    (read (insertUser user) = some ⟨ascii "user", [ascii "name", ascii "password", ascii "state"],
      [userRow user]⟩ ↔
      Clean user.name ∧ Clean user.password) ∧
    (read (createGroup group) = some ⟨ascii "allgroup", [ascii "groupname", ascii "groupdesc"],
      [groupRow group]⟩ ↔
      Clean group.name ∧ Clean group.desc) ∧
    (read (insertMsg userid msg) = some ⟨ascii "offlinemessage", [], [messageRow userid msg]⟩ ∧
        queryMsgs (update offlinemessage (insertMsg userid msg)) userid =
          queryMsgs offlinemessage userid ++ [msg] ↔
      Clean msg) := by
  refine ⟨insertUser_reads user, createGroup_reads group, ?_⟩
  rw [insertMsg_reads]
  exact and_iff_left_of_imp (message_returns userid msg offlinemessage)

/-- `say "a"` as JSON has it, with a backslash before each quote, and an apostrophe. -/
def quoted : Bytes := ascii "say \\\"a\\\""

def apostrophe : Bytes := ascii "it's"

theorem texts_change : queryMsgs (update [] (insertMsg 3 quoted)) 3 = [ascii "say \"a\""] ∧
    read (insertMsg 3 quoted) ≠ some ⟨ascii "offlinemessage", [], [messageRow 3 quoted]⟩ ∧
    update [] (insertMsg 3 apostrophe) = [] ∧
    read (insertUser { name := ascii "x','y','online') -- ", password := [], state := .offline }) =
      some ⟨ascii "user", [ascii "name", ascii "password", ascii "state"],
        [[.string (ascii "x"), .string (ascii "y"), .string (ascii "online")]]⟩ := by
  decide +kernel

end MuduoChat.SqlStatements
