import MuduoChat.CNumbers
import MuduoChat.LoginReply
import MuduoChat.SqlStatements

/-!
mainMenu of CHAT/src/client/main.cpp and its seven commands. A line is cut at its first colon,
and a handler gets what stands behind it, or the whole line if there is none; three of the
handlers cut once more. Nothing catches what stoi and dump() throw. What help prints on cout
is left out.
-/

namespace MuduoChat.ClientCommands
open LoginReply (Object Value User)
open SqlStatements (cString)
open SqlText (ascii)
open ServerFraming
  (LOGINOUT_MSG ONE_CHAT_MSG ADD_FRIEND_MSG CREATE_GROUP_MSG ADD_GROUP_MSG GROUP_CHAT_MSG)

abbrev Bytes := List UInt8

/-- What std::cin.getline(buffer, 1024) takes for one line. -/
structure Line where
  bytes : Bytes
  short : bytes.length ≤ 1023
  oneLine : 10 ∉ bytes

def Utf8 (text : Bytes) : Prop := (ByteArray.mk text.toArray).IsValidUTF8

instance (text : Bytes) : Decidable (Utf8 text) :=
    inferInstanceAs (Decidable (ByteArray.IsValidUTF8 _))

/-- `getCurrentTime()`, digits and separators. -/
structure Time where
  text : Bytes
  printable : Utf8 text

inductive Exception where
  | stoi (error : CNumbers.StoiError)
  | type_error (id : Nat)
  deriving DecidableEq

/-- nlohmann::json: dump() with the strict error handler throws for what is not UTF-8. -/
structure Json where
  dump : Object → Option Bytes

inductive CommandHandler where
  | help
  | chat
  | addfriend
  | creategroup
  | addgroup
  | groupchat
  | loginout
  deriving DecidableEq

/-- What a line can change: the handlers run so far, the objects dumped with the buffers
passed to send, the lines on cerr, and the flag of the loop. -/
structure Menu where
  ran : List CommandHandler
  passed : List (Object × Bytes)
  cerr : List Bytes
  isMainMenuRunning : Bool

/-! std::string, with an int for the position. -/

def find (str : Bytes) : Int :=
  match str.findIdx? fun byte => byte == 58 with
  | some index => index
  | none => -1

def substr (str : Bytes) (pos count : Nat) : Bytes := (str.drop pos).take count

/-- `str.substr(0, idx)` -/
def front (str : Bytes) (idx : Int) : Bytes := substr str 0 idx.toNat

/-- `str.substr(idx + 1, str.size() - idx)` -/
def behind (str : Bytes) (idx : Int) : Bytes := substr str (idx + 1).toNat (str.length - idx).toNat

/-! The handlers. -/

section Handlers
variable (json : Json) (g_currentUser : User) (now : Time) (ret : Int)

def complain (message : Bytes) (menu : Menu) : Menu := { menu with cerr := menu.cerr ++ [message] }

/-- `js.dump()` and the call of send, which answers `ret`; -1 is reported. -/
def sendRequest (js : Object) (failure : Bytes) (menu : Menu) : Except Exception Menu :=
  match json.dump js with
  | none => .error (.type_error 316)
  | some buffer =>
      let sent := { menu with passed := menu.passed ++ [(js, cString buffer ++ [0])] }
      .ok (if ret = -1 then complain (failure ++ buffer) sent else sent)

def chatRequest (friendid : Int) (message : Bytes) : Object :=
  (((((AList.insert "msgid" (.number ONE_CHAT_MSG) ∅).insert "id" (.number g_currentUser.id)).insert
    "name" (.string g_currentUser.name)).insert "to" (.number friendid)).insert "msg"
      (.string message)).insert
    "time" (.string now.text)

def addfriendRequest (friendid : Int) : Object :=
  ((AList.insert "msgid" (.number ADD_FRIEND_MSG) ∅).insert "id" (.number g_currentUser.id)).insert
    "friendid" (.number friendid)

def creategroupRequest (groupname groupdesc : Bytes) : Object :=
  (((AList.insert "msgid" (.number CREATE_GROUP_MSG) ∅).insert "id"
    (.number g_currentUser.id)).insert
    "groupname" (.string groupname)).insert "groupdesc" (.string groupdesc)

def addgroupRequest (groupid : Int) : Object :=
  ((AList.insert "msgid" (.number ADD_GROUP_MSG) ∅).insert "id" (.number g_currentUser.id)).insert
    "groupid" (.number groupid)

def groupchatRequest (groupid : Int) (message : Bytes) : Object :=
  (((((AList.insert "msgid" (.number GROUP_CHAT_MSG) ∅).insert "id"
    (.number g_currentUser.id)).insert
    "name" (.string g_currentUser.name)).insert "groupid" (.number groupid)).insert "msg"
      (.string message)).insert
    "time" (.string now.text)

def loginoutRequest : Object :=
  (AList.insert "msgid" (.number LOGINOUT_MSG) ∅).insert "id" (.number g_currentUser.id)

def stoi (str : Bytes) : Except Exception Int :=
  match CNumbers.stoi str with
  | .ok number => .ok number
  | .error error => .error (.stoi error)

def chat (str : Bytes) (menu : Menu) : Except Exception Menu :=
  let idx := find str
  if idx = -1 then .ok (complain (ascii "chat command invalid!") menu)
  else
    -- atoi, where groupchat has stoi
    let friendid := CNumbers.atoi (front str idx)
    sendRequest json ret (chatRequest g_currentUser now friendid (behind str idx))
      (ascii "send chat msg error ->") menu

def addfriend (str : Bytes) (menu : Menu) : Except Exception Menu :=
  sendRequest json ret (addfriendRequest g_currentUser (CNumbers.atoi str))
    (ascii "send addfriend msg error -> ") menu

def creategroup (str : Bytes) (menu : Menu) : Except Exception Menu :=
  let idx := find str
  if idx = -1 then .ok (complain (ascii "creategroup command invalid!") menu)
  else sendRequest json ret (creategroupRequest g_currentUser (front str idx) (behind str idx))
    (ascii "send creategroup msg error -> ") menu

def addgroup (str : Bytes) (menu : Menu) : Except Exception Menu := do
  let groupid ← stoi str
  sendRequest json ret (addgroupRequest g_currentUser groupid)
    (ascii "send addgroup msg error -> ") menu

def groupchat (str : Bytes) (menu : Menu) : Except Exception Menu :=
  let idx := find str
  if idx = -1 then .ok (complain (ascii "groupchat command invalid!") menu)
  else do
    let groupid ← stoi (front str idx)
    sendRequest json ret (groupchatRequest g_currentUser now groupid (behind str idx))
      (ascii "send groupchat msg error -> ") menu

def loginout (menu : Menu) : Except Exception Menu := do
  let sent ← sendRequest json ret (loginoutRequest g_currentUser)
      (ascii "send loginout msg error -> ") menu
  pure (if ret = -1 then sent else { sent with isMainMenuRunning := false })

def commandHandlerMap : List (Bytes × CommandHandler) :=
  [(ascii "help", .help), (ascii "chat", .chat), (ascii "addfriend", .addfriend),
    (ascii "creategroup", .creategroup),
    (ascii "addgroup", .addgroup), (ascii "groupchat", .groupchat), (ascii "loginout", .loginout)]

/-- `it->second(clientfd, str)` -/
def handle (str : Bytes) (menu : Menu) : CommandHandler → Except Exception Menu
  | .help => .ok menu
  | .chat => chat json g_currentUser now ret str menu
  | .addfriend => addfriend json g_currentUser ret str menu
  | .creategroup => creategroup json g_currentUser ret str menu
  | .addgroup => addgroup json g_currentUser ret str menu
  | .groupchat => groupchat json g_currentUser now ret str menu
  | .loginout => loginout json g_currentUser ret menu

/-- One round of the loop: `string commandbuf(buffer)` ends at the first NUL. -/
def mainMenuRound (line : Line) (menu : Menu) : Except Exception Menu :=
  let commandbuf := cString line.bytes
  let idx := find commandbuf
  let command := if idx = -1 then commandbuf else front commandbuf idx
  match commandHandlerMap.lookup command with
  | none => .ok (complain (ascii "invalid input command!") menu)
  | some handler =>
      -- without a colon idx is -1 and the handler gets the whole line, the word included
      handle json g_currentUser now ret
        (behind commandbuf idx) { menu with ran := menu.ran ++ [handler] } handler

end Handlers

/-! The documented commands. -/

structure Id extends CNumbers.Numeral where
  fits : CNumbers.IsInt toNumeral.number

inductive Command where
  | help
  | loginout
  | chat (friendid : Id) (message : Bytes)
  | addfriend (friendid : Id)
  | creategroup (groupname groupdesc : Bytes) (oneField : 58 ∉ groupname)
  | addgroup (groupid : Id)
  | groupchat (groupid : Id) (message : Bytes)

def Command.text : Command → Bytes
  | .help => ascii "help"
  | .loginout => ascii "loginout"
  | .chat friendid message => ascii "chat" ++ 58 :: (friendid.text ++ 58 :: message)
  | .addfriend friendid => ascii "addfriend" ++ 58 :: friendid.text
  | .creategroup groupname groupdesc _ =>
      ascii "creategroup" ++ 58 :: (groupname ++ 58 :: groupdesc)
  | .addgroup groupid => ascii "addgroup" ++ 58 :: groupid.text
  | .groupchat groupid message => ascii "groupchat" ++ 58 :: (groupid.text ++ 58 :: message)

def Command.handler : Command → CommandHandler
  | .help => .help
  | .loginout => .loginout
  | .chat _ _ => .chat
  | .addfriend _ => .addfriend
  | .creategroup _ _ _ => .creategroup
  | .addgroup _ => .addgroup
  | .groupchat _ _ => .groupchat

def Command.request (g_currentUser : User) (now : Time) : Command → Option Object
  | .help => none
  | .loginout => some (loginoutRequest g_currentUser)
  | .chat friendid message => some (chatRequest g_currentUser now friendid.number message)
  | .addfriend friendid => some (addfriendRequest g_currentUser friendid.number)
  | .creategroup groupname groupdesc _ =>
      some (creategroupRequest g_currentUser groupname groupdesc)
  | .addgroup groupid => some (addgroupRequest g_currentUser groupid.number)
  | .groupchat groupid message => some (groupchatRequest g_currentUser now groupid.number message)

/-! What dump() does, and what a line should do. -/

def Writable : Value → Prop
  | .number _ => True
  | .string text => Utf8 text
  | .strings texts => ∀ text ∈ texts, Utf8 text

def AllWritable (js : Object) : Prop := ∀ key value, js.lookup key = some value → Writable value

/-- dump() throws for a string that is not UTF-8 and for nothing else, and writes a NUL as an
escape. -/
structure Documented (json : Json) : Prop where
  dumps : ∀ js, (∃ text, json.dump js = some text) ↔ AllWritable js
  noNul : ∀ js text, json.dump js = some text → 0 ∉ text

/-- The request that is passed to send, if there is one, is this one. -/
def Carries (json : Json) (before after : Menu) : Option Object → Prop
  | none => after.passed = before.passed
  | some js => ∃ text, json.dump js = some text ∧
      after.passed = before.passed ++ [(js, text ++ [0])]

/-- The handler of the command runs, and its request carries the fields of the command. -/
def Obeys (json : Json) (g_currentUser : User) (now : Time) (before : Menu) (command : Command)
    (outcome : Except Exception Menu) : Prop :=
  ∃ after, outcome = .ok after ∧ after.ran = before.ran ++ [command.handler] ∧
    Carries json before after (command.request g_currentUser now)

/-- Nothing is sent, an error is printed and the loop goes on. -/
def Rejects (before : Menu) (outcome : Except Exception Menu) : Prop :=
  ∃ after message, outcome = .ok after ∧ after.passed = before.passed ∧
    after.cerr = before.cerr ++ [message] ∧
    after.isMainMenuRunning = before.isMainMenuRunning

/-- The texts of the command are UTF-8 and have no NUL; a chat carries the user's name too. -/
def Clean (g_currentUser : User) : Command → Prop
  | .chat _ message => 0 ∉ message ∧ Utf8 message ∧ Utf8 g_currentUser.name
  | .creategroup groupname groupdesc _ =>
      0 ∉ groupname ∧ 0 ∉ groupdesc ∧ Utf8 groupname ∧ Utf8 groupdesc
  | .groupchat _ message => 0 ∉ message ∧ Utf8 message ∧ Utf8 g_currentUser.name
  | _ => True

/-- The commands that look for a second colon. -/
def twoColons : List Bytes := [ascii "chat", ascii "creategroup", ascii "groupchat"]

/-- No command at all, or one of those with fewer than two colons. -/
def Refused (commandbuf : Bytes) : Prop :=
  commandHandlerMap.lookup (commandbuf.takeWhile fun byte => byte ≠ 58) = none ∨
    commandbuf.takeWhile (fun byte => byte ≠ 58) ∈ twoColons ∧ commandbuf.count 58 < 2

instance (commandbuf : Bytes) :
    Decidable (Refused commandbuf) := inferInstanceAs (Decidable (_ ∨ _))

/-! Cutting at a colon. -/

theorem find_cut (word rest : Bytes) (plain : 58 ∉ word) :
    find (word ++ 58 :: rest) = word.length := by
  have found : (word ++ 58 :: rest).findIdx? (fun byte => byte == 58) = some word.length := by
    rw [List.findIdx?_append, List.findIdx?_eq_none_iff.mpr]
    · simp [List.findIdx?_cons]
    · intro byte member
      exact beq_eq_false_iff_ne.mpr fun same => plain (same ▸ member)
  rw [find, found]

theorem find_none (str : Bytes) (plain : 58 ∉ str) : find str = -1 := by
  have absent : str.findIdx? (fun byte => byte == 58) = none :=
    List.findIdx?_eq_none_iff.mpr fun byte member => beq_eq_false_iff_ne.mpr fun same =>
      plain (same ▸ member)
  rw [find, absent]

theorem front_cut (word rest : Bytes) : front (word ++ 58 :: rest) word.length = word := by
  simp [front, substr]

theorem behind_cut (word rest : Bytes) : behind (word ++ 58 :: rest) word.length = rest := by
  have next : ((word.length : Int) + 1).toNat = word.length + 1 := by omega
  have count : (((word ++ 58 :: rest).length : Int) - word.length).toNat = rest.length + 1 := by
    simp only [List.length_append, List.length_cons]
    omega
  rw [behind, next, count, substr, List.drop_append, List.drop_eq_nil_of_le (by omega),
    List.nil_append,
    Nat.add_sub_cancel_left, List.drop_one, List.tail_cons, List.take_of_length_le (by omega)]

theorem behind_whole (str : Bytes) : behind str (-1) = str := by
  have count : ((str.length : Int) - -1).toNat = str.length + 1 := by omega
  rw [behind, count, substr]
  exact List.take_of_length_le (Nat.le_succ _)

/-- The first colon, if there is one. -/
theorem colon_cases (str : Bytes) :
    58 ∉ str ∨ ∃ word rest, str = word ++ 58 :: rest ∧ 58 ∉ word := by
  by_cases member : 58 ∈ str
  · obtain ⟨word, rest, split, plain⟩ := List.eq_append_cons_of_mem member
    exact .inr ⟨word, rest, split, plain⟩
  · exact .inl member

theorem word_cut (word rest : Bytes) (plain : 58 ∉ word) :
    (word ++ 58 :: rest).takeWhile (fun byte => byte ≠ 58) = word := by
  have all : ∀ byte ∈ word, decide (byte ≠ 58) = true := fun byte member =>
    decide_eq_true fun same => plain (same ▸ member)
  rw [List.takeWhile_append_of_pos all, List.takeWhile_cons_of_neg (by simp), List.append_nil]

theorem word_whole (str : Bytes) (plain : 58 ∉ str) :
    str.takeWhile (fun byte => byte ≠ 58) = str := by
  rw [List.takeWhile_eq_self_iff]
  exact fun byte member => decide_eq_true fun same => plain (same ▸ member)

theorem cString_append (left right : Bytes) (clean : 0 ∉ left) :
    cString (left ++ right) = left ++ cString right :=
  List.takeWhile_append_of_pos fun _ member => decide_eq_true fun same => clean (same ▸ member)

theorem cString_cons (byte : UInt8) (rest : Bytes) (some_ : byte ≠ 0) :
    cString (byte :: rest) = byte :: cString rest :=
  List.takeWhile_cons_of_pos (decide_eq_true some_)

/-! The calls of send. -/

section Sending
variable (json : Json) (documented : Documented json) (ret : Int)
include documented

theorem send_writable (js : Object) (failure text : Bytes) (menu : Menu)
    (dumped : json.dump js = some text) :
    ∃ after, sendRequest json ret js failure menu = .ok after ∧ after.ran = menu.ran ∧
      after.passed = menu.passed ++ [(js, text ++ [0])] := by
  have whole : cString text = text := (SqlStatements.cString_same text).mpr
    (documented.noNul js text dumped)
  simp only [sendRequest, dumped, whole]
  refine ⟨_, rfl, ?_⟩
  split
  · exact ⟨rfl, rfl⟩
  · exact ⟨rfl, rfl⟩

omit documented in
theorem send_throws (js : Object) (failure : Bytes) (menu : Menu) (throws : json.dump js = none) :
    sendRequest json ret js failure menu = .error (.type_error 316) := by
  rw [sendRequest, throws]

/-- A handler that ends in sendRequest does what it should iff this is the request that
should be sent and dump() does not throw. -/
theorem send_obeys (js wanted : Object) (failure : Bytes) (before : Menu)
    (handler : CommandHandler) :
    (∃ after, sendRequest json ret js failure
      { before with ran := before.ran ++ [handler] } = .ok after ∧
        after.ran = before.ran ++ [handler] ∧ Carries json before after (some wanted)) ↔
      js = wanted ∧ AllWritable wanted := by
  rw [← documented.dumps]
  cases dumped : json.dump js with
  | none =>
      refine iff_of_false ?_ ?_
      · rintro ⟨after, ran, _⟩
        rw [send_throws json ret js failure _ dumped] at ran
        cases ran
      · rintro ⟨rfl, text, same⟩
        rw [dumped] at same
        cases same
  | some text =>
      obtain ⟨after, ran, handled, passed⟩ := send_writable json documented ret js failure text
        { before with ran := before.ran ++ [handler] } dumped
      constructor
      · -- the sent pair holds the object, so it is compared before it is a text
        rintro ⟨other, again, _, wantedText, wantedDump, sent⟩
        rw [ran] at again
        cases again
        rw [passed] at sent
        have same : js = wanted := (Prod.mk.inj (List.cons.inj (List.append_cancel_left sent)).1).1
        exact ⟨same, wantedText, wantedDump⟩
      · rintro ⟨rfl, _, _⟩
        exact ⟨after, ran, handled, text, dumped, passed⟩

/-- A handler that gets to sendRequest does not reject the line. -/
theorem send_not_rejects (js : Object) (failure : Bytes) (before menu : Menu)
    (same : menu.passed = before.passed) :
    ¬ Rejects before (sendRequest json ret js failure menu) := by
  rintro ⟨after, message, ran, passed, _⟩
  cases dumped : json.dump js with
  | none =>
      rw [send_throws json ret js failure menu dumped] at ran
      cases ran
  | some text =>
      obtain ⟨other, again, _, sent⟩ :=
        send_writable json documented ret js failure text menu dumped
      rw [ran] at again
      cases again
      rw [passed, same] at sent
      exact absurd (congrArg List.length sent) (by simp)

end Sending

/-! One round, by the form of its line. -/

section Rounds
variable (json : Json) (g_currentUser : User) (now : Time) (ret : Int)

theorem round_cut (line : Line) (menu : Menu) (word rest : Bytes) (plain : 58 ∉ word)
    (split : cString line.bytes = word ++ 58 :: rest) :
    mainMenuRound json g_currentUser now ret line menu =
      match commandHandlerMap.lookup word with
      | none => .ok (complain (ascii "invalid input command!") menu)
      | some handler =>
          handle json g_currentUser now ret rest
            { menu with ran := menu.ran ++ [handler] } handler := by
  have positive : ¬ (word.length : Int) = -1 := by omega
  simp only [mainMenuRound, split, find_cut word rest plain, if_neg positive, front_cut, behind_cut]

theorem round_whole (line : Line) (menu : Menu) (plain : 58 ∉ cString line.bytes) :
    mainMenuRound json g_currentUser now ret line menu =
      match commandHandlerMap.lookup (cString line.bytes) with
      | none => .ok (complain (ascii "invalid input command!") menu)
      | some handler =>
          handle json g_currentUser now ret
            (cString line.bytes) { menu with ran := menu.ran ++ [handler] } handler := by
  simp only [mainMenuRound, find_none _ plain, if_true, behind_whole]

theorem round_handle (line : Line) (menu : Menu) (word rest : Bytes) (handler : CommandHandler)
    (plain : 58 ∉ word)
    (known : commandHandlerMap.lookup word = some handler)
    (split : cString line.bytes = word ++ 58 :: rest) :
    mainMenuRound json g_currentUser now ret line menu =
      handle json g_currentUser now ret rest { menu with ran := menu.ran ++ [handler] } handler :=
        by
  rw [round_cut json g_currentUser now ret line menu word rest plain split, known]

theorem chat_cut (menu : Menu) (word rest : Bytes) (plain : 58 ∉ word) :
    chat json g_currentUser now ret (word ++ 58 :: rest) menu =
      sendRequest json ret (chatRequest g_currentUser now (CNumbers.atoi word) rest)
        (ascii "send chat msg error ->")
        menu := by
  have positive : ¬ (word.length : Int) = -1 := by omega
  simp only [chat, find_cut word rest plain, if_neg positive, front_cut, behind_cut]

theorem creategroup_cut (menu : Menu) (word rest : Bytes) (plain : 58 ∉ word) :
    creategroup json g_currentUser ret (word ++ 58 :: rest) menu =
      sendRequest json ret (creategroupRequest g_currentUser word rest)
        (ascii "send creategroup msg error -> ")
        menu := by
  have positive : ¬ (word.length : Int) = -1 := by omega
  simp only [creategroup, find_cut word rest plain, if_neg positive, front_cut, behind_cut]

theorem chat_whole (menu : Menu) (str : Bytes) (plain : 58 ∉ str) :
    chat json g_currentUser now ret str menu =
      .ok (complain (ascii "chat command invalid!") menu) := by
  simp only [chat, find_none str plain, if_true]

theorem creategroup_whole (menu : Menu) (str : Bytes) (plain : 58 ∉ str) :
    creategroup json g_currentUser ret str menu =
      .ok (complain (ascii "creategroup command invalid!") menu) := by
  simp only [creategroup, find_none str plain, if_true]

theorem groupchat_whole (menu : Menu) (str : Bytes) (plain : 58 ∉ str) :
    groupchat json g_currentUser now ret str menu =
      .ok (complain (ascii "groupchat command invalid!") menu) := by
  simp only [groupchat, find_none str plain, if_true]

theorem groupchat_cut (menu : Menu) (word rest : Bytes) (plain : 58 ∉ word) :
    groupchat json g_currentUser now ret (word ++ 58 :: rest) menu =
      stoi word >>= fun groupid => sendRequest json ret
        (groupchatRequest g_currentUser now groupid rest)
        (ascii "send groupchat msg error -> ") menu := by
  have positive : ¬ (word.length : Int) = -1 := by omega
  simp only [groupchat, find_cut word rest plain, if_neg positive, front_cut, behind_cut]

end Rounds

/-! Which requests dump() writes, and which texts they carry. -/

theorem allWritable_insert (js : Object) (key : String) (value : Value)
    (fresh : js.lookup key = none) :
    AllWritable (js.insert key value) ↔ Writable value ∧ AllWritable js := by
  constructor
  · intro all
    refine ⟨all key value (AList.lookup_insert js), ?_⟩
    intro other held found
    have away : other ≠ key := by
      rintro rfl
      rw [fresh] at found
      cases found
    exact all other held (by rw [AList.lookup_insert_ne away]; exact found)
  · rintro ⟨here, rest⟩ other held found
    by_cases same : other = key
    · subst same
      rw [AList.lookup_insert] at found
      cases found
      exact here
    · rw [AList.lookup_insert_ne same] at found
      exact rest other held found

theorem allWritable_msgid (msgid : Int) : AllWritable (AList.insert "msgid" (.number msgid) ∅) := by
  rw [allWritable_insert ∅ "msgid" _ (AList.lookup_empty "msgid")]
  refine ⟨trivial, ?_⟩
  intro key value found
  cases found

section Requests
variable (g_currentUser : User) (now : Time)

theorem chatRequest_writable (friendid : Int) (message : Bytes) :
    AllWritable (chatRequest g_currentUser now friendid message) ↔ Utf8 message ∧
      Utf8 g_currentUser.name := by
  simp [chatRequest, allWritable_insert, allWritable_msgid, Writable, now.printable,
    AList.lookup_insert_ne,
    -AList.insert_empty]

theorem addfriendRequest_writable (friendid : Int) :
    AllWritable (addfriendRequest g_currentUser friendid) := by
  simp [addfriendRequest, allWritable_insert, allWritable_msgid, Writable,
    AList.lookup_insert_ne, -AList.insert_empty]

theorem creategroupRequest_writable (groupname groupdesc : Bytes) :
    AllWritable (creategroupRequest g_currentUser groupname groupdesc) ↔ Utf8 groupdesc ∧
      Utf8 groupname := by
  simp [creategroupRequest, allWritable_insert, allWritable_msgid, Writable, AList.lookup_insert_ne,
    -AList.insert_empty]

theorem addgroupRequest_writable (groupid : Int) :
    AllWritable (addgroupRequest g_currentUser groupid) := by
  simp [addgroupRequest, allWritable_insert, allWritable_msgid, Writable,
    AList.lookup_insert_ne, -AList.insert_empty]

theorem groupchatRequest_writable (groupid : Int) (message : Bytes) :
    AllWritable (groupchatRequest g_currentUser now groupid message) ↔ Utf8 message ∧
      Utf8 g_currentUser.name := by
  simp [groupchatRequest, allWritable_insert, allWritable_msgid, Writable, now.printable,
    AList.lookup_insert_ne,
    -AList.insert_empty]

theorem loginoutRequest_writable : AllWritable (loginoutRequest g_currentUser) := by
  simp [loginoutRequest, allWritable_insert, allWritable_msgid, Writable,
    AList.lookup_insert_ne, -AList.insert_empty]

theorem chatRequest_message (friendid : Int) (left right : Bytes) :
    chatRequest g_currentUser now friendid left = chatRequest g_currentUser now friendid right ↔
      left = right := by
  refine ⟨fun same => ?_, fun same => by rw [same]⟩
  have held := congrArg (AList.lookup "msg") same
  simpa [chatRequest, AList.lookup_insert_ne, -AList.insert_empty] using held

theorem groupchatRequest_message (groupid : Int) (left right : Bytes) :
    groupchatRequest g_currentUser now groupid left =
      groupchatRequest g_currentUser now groupid right ↔
      left = right := by
  refine ⟨fun same => ?_, fun same => by rw [same]⟩
  have held := congrArg (AList.lookup "msg") same
  simpa [groupchatRequest, AList.lookup_insert_ne, -AList.insert_empty] using held

theorem creategroupRequest_desc (groupname left right : Bytes) :
    creategroupRequest g_currentUser groupname left =
      creategroupRequest g_currentUser groupname right ↔
      left = right := by
  refine ⟨fun same => ?_, fun same => by rw [same]⟩
  have held := congrArg (AList.lookup "groupdesc") same
  simpa [creategroupRequest, AList.lookup_insert_ne, -AList.insert_empty] using held

end Requests

/-! A command of the grammar. -/

theorem id_without (friendid : Id) (byte : UInt8) (notDigit : CNumbers.digit byte = false)
    (notMark : ∀ mark ∈ CNumbers.signs, byte ∉ mark) : byte ∉ friendid.text := by
  intro member
  rcases List.mem_append.mp member with here | here
  · exact notMark friendid.mark friendid.marks here
  · rw [friendid.all byte here] at notDigit
    cases notDigit

theorem id_plain (friendid : Id) : 0 ∉ friendid.text ∧ 58 ∉ friendid.text :=
  ⟨id_without friendid 0 (by decide) (by decide), id_without friendid 58 (by decide) (by decide)⟩

theorem id_atoi (friendid : Id) : CNumbers.atoi friendid.text = friendid.number :=
  CNumbers.atoi_numeral friendid.toNumeral friendid.fits

theorem id_stoi (groupid : Id) : stoi groupid.text = .ok groupid.number := by
  rw [stoi, CNumbers.stoi_numeral groupid.toNumeral groupid.fits]

/-- The first NUL ends a field, and the separator behind the word does not stop it. -/
theorem cString_fields (word rest : Bytes) (clean : 0 ∉ word) :
    cString (word ++ 58 :: rest) = word ++ 58 :: cString rest := by
  rw [cString_append word _ clean, cString_cons 58 rest (by decide)]

theorem cString_stop (word rest : Bytes) (clean : 0 ∉ word) :
    cString (word ++ 0 :: rest) = word := by
  rw [cString_append word _ clean, cString, List.takeWhile_cons_of_neg (by simp), List.append_nil]

section Obeying
variable (json : Json) (documented : Documented json) (g_currentUser : User) (now : Time)
    (ret : Int) (line : Line)
  (before : Menu)
include documented

theorem chat_obeys (friendid : Id) (message : Bytes)
    (spelled : line.bytes = (Command.chat friendid message).text) :
    Obeys json g_currentUser now before (.chat friendid message)
        (mainMenuRound json g_currentUser now ret line before) ↔
      Clean g_currentUser (.chat friendid message) := by
  obtain ⟨noNul, noColon⟩ := id_plain friendid
  have commandbuf : cString line.bytes = ascii "chat" ++ 58 ::
      (friendid.text ++ 58 :: cString message) := by
    rw [spelled, Command.text, cString_fields _ _ (by decide), cString_fields _ _ noNul]
  rw [round_handle json g_currentUser now ret line before (ascii "chat") _ .chat (by decide)
    (by decide) commandbuf]
  simp only [handle]
  rw [chat_cut json g_currentUser now ret _ _ _ noColon, id_atoi, Obeys, Command.handler,
    Command.request,
    send_obeys json documented, chatRequest_message, chatRequest_writable,
      SqlStatements.cString_same, Clean]

theorem groupchat_obeys (groupid : Id) (message : Bytes)
    (spelled : line.bytes = (Command.groupchat groupid message).text) :
    Obeys json g_currentUser now before (.groupchat groupid message)
        (mainMenuRound json g_currentUser now ret line before) ↔
      Clean g_currentUser (.groupchat groupid message) := by
  obtain ⟨noNul, noColon⟩ := id_plain groupid
  have commandbuf : cString line.bytes = ascii "groupchat" ++ 58 ::
      (groupid.text ++ 58 :: cString message) := by
    rw [spelled, Command.text, cString_fields _ _ (by decide), cString_fields _ _ noNul]
  rw [round_handle json g_currentUser now ret line before (ascii "groupchat") _ .groupchat
    (by decide) (by decide) commandbuf]
  simp only [handle]
  rw [groupchat_cut json g_currentUser now ret _ _ _ noColon, id_stoi]
  simp only [bind, Except.bind]
  rw [Obeys, Command.handler, Command.request, send_obeys json documented, groupchatRequest_message,
    groupchatRequest_writable, SqlStatements.cString_same, Clean]

/-- A NUL in the name takes the second colon away with it. -/
theorem creategroup_obeys (groupname groupdesc : Bytes) (oneField : 58 ∉ groupname)
    (spelled : line.bytes = (Command.creategroup groupname groupdesc oneField).text) :
    Obeys json g_currentUser now before (.creategroup groupname groupdesc oneField)
        (mainMenuRound json g_currentUser now ret line before) ↔
      Clean g_currentUser (.creategroup groupname groupdesc oneField) := by
  have commandbuf : cString line.bytes = ascii "creategroup" ++ 58 :: cString
      (groupname ++ 58 :: groupdesc) := by
    rw [spelled, Command.text, cString_fields _ _ (by decide)]
  rw [round_handle json g_currentUser now ret line before (ascii "creategroup") _ .creategroup
    (by decide) (by decide)
    commandbuf]
  simp only [handle]
  by_cases noNul : 0 ∈ groupname
  · -- the handler finds no colon and complains, so the request is missing
    obtain ⟨front, others, rfl, clean⟩ := List.eq_append_cons_of_mem noNul
    have short : cString ((front ++ 0 :: others) ++ 58 :: groupdesc) = front := by
      rw [List.append_assoc, List.cons_append, cString_stop front _ clean]
    have noColon : 58 ∉ front := fun member => oneField (List.mem_append_left _ member)
    rw [short, creategroup_whole json g_currentUser ret _ front noColon]
    refine iff_of_false ?_ (fun whole => whole.1 noNul)
    rintro ⟨after, ran, _, text, _, passed⟩
    cases ran
    exact absurd (congrArg List.length passed) (by simp [complain])
  · rw [cString_fields _ _ noNul, creategroup_cut json g_currentUser ret _ _ _ oneField, Obeys,
      Command.handler,
      Command.request, send_obeys json documented, creategroupRequest_desc,
        creategroupRequest_writable,
      SqlStatements.cString_same, Clean]
    constructor
    · rintro ⟨noNulDesc, desc, name⟩
      exact ⟨noNul, noNulDesc, name, desc⟩
    · rintro ⟨_, noNulDesc, name, desc⟩
      exact ⟨noNulDesc, desc, name⟩

theorem addfriend_obeys (friendid : Id) (spelled : line.bytes = (Command.addfriend friendid).text) :
    Obeys json g_currentUser now before (.addfriend friendid)
      (mainMenuRound json g_currentUser now ret line before) := by
  obtain ⟨noNul, _⟩ := id_plain friendid
  have commandbuf : cString line.bytes = ascii "addfriend" ++ 58 :: friendid.text := by
    rw [spelled, Command.text, cString_fields _ _ (by decide),
      (SqlStatements.cString_same _).mpr noNul]
  rw [round_handle json g_currentUser now ret line before (ascii "addfriend") _ .addfriend
    (by decide) (by decide) commandbuf]
  simp only [handle]
  rw [addfriend, id_atoi, Obeys, Command.handler, Command.request, send_obeys json documented]
  exact ⟨rfl, addfriendRequest_writable g_currentUser friendid.number⟩

theorem addgroup_obeys (groupid : Id) (spelled : line.bytes = (Command.addgroup groupid).text) :
    Obeys json g_currentUser now before (.addgroup groupid)
      (mainMenuRound json g_currentUser now ret line before) := by
  obtain ⟨noNul, _⟩ := id_plain groupid
  have commandbuf : cString line.bytes = ascii "addgroup" ++ 58 :: groupid.text := by
    rw [spelled, Command.text, cString_fields _ _ (by decide),
      (SqlStatements.cString_same _).mpr noNul]
  rw [round_handle json g_currentUser now ret line before (ascii "addgroup") _ .addgroup
    (by decide) (by decide) commandbuf]
  simp only [handle]
  rw [addgroup, id_stoi]
  simp only [bind, Except.bind]
  rw [Obeys, Command.handler, Command.request, send_obeys json documented]
  exact ⟨rfl, addgroupRequest_writable g_currentUser groupid.number⟩

theorem loginout_sends (menu : Menu) :
    ∃ after text, json.dump (loginoutRequest g_currentUser) = some text ∧
      loginout json g_currentUser ret menu = .ok after ∧ after.ran = menu.ran ∧
      after.passed = menu.passed ++ [(loginoutRequest g_currentUser, text ++ [0])] := by
  obtain ⟨text, dumped⟩ := (documented.dumps _).mpr (loginoutRequest_writable g_currentUser)
  obtain ⟨after, ran, handled, passed⟩ :=
    send_writable json documented ret _ (ascii "send loginout msg error -> ") text menu dumped
  simp only [loginout, ran, bind, Except.bind, pure, Except.pure]
  refine ⟨_, text, dumped, rfl, ?_⟩
  split
  · exact ⟨handled, passed⟩
  · exact ⟨handled, passed⟩

omit documented in
theorem help_obeys (spelled : line.bytes = Command.help.text) :
    Obeys json g_currentUser now before .help
      (mainMenuRound json g_currentUser now ret line before) := by
  have commandbuf : cString line.bytes = ascii "help" := by
    rw [spelled]
    decide
  have known : commandHandlerMap.lookup (ascii "help") = some .help := by decide
  rw [round_whole json g_currentUser now ret line before (by rw [commandbuf]; decide), commandbuf,
    known]
  exact ⟨_, rfl, rfl, rfl⟩

theorem loginout_obeys (spelled : line.bytes = Command.loginout.text) :
    Obeys json g_currentUser now before .loginout
      (mainMenuRound json g_currentUser now ret line before) := by
  have commandbuf : cString line.bytes = ascii "loginout" := by
    rw [spelled]
    decide
  have known : commandHandlerMap.lookup (ascii "loginout") = some .loginout := by decide
  rw [round_whole json g_currentUser now ret line before (by rw [commandbuf]; decide), commandbuf,
    known]
  obtain ⟨after, text, dumped, ran, handled, passed⟩ :=
    loginout_sends json documented g_currentUser ret
    { before with ran := before.ran ++ [.loginout] }
  exact ⟨after, ran, handled, text, dumped, passed⟩

/-- A line of the grammar is obeyed iff its texts get through a C string and through dump(). -/
theorem obeys_iff (command : Command) (spelled : line.bytes = command.text) :
    Obeys json g_currentUser now before command
      (mainMenuRound json g_currentUser now ret line before) ↔
      Clean g_currentUser command := by
  cases command with
  | help => exact iff_of_true (help_obeys json g_currentUser now ret line before spelled) trivial
  | loginout =>
      exact iff_of_true
        (loginout_obeys json documented g_currentUser now ret line before spelled) trivial
  | chat friendid message =>
      exact chat_obeys json documented g_currentUser now ret line before friendid message spelled
  | addfriend friendid =>
      exact iff_of_true
        (addfriend_obeys json documented g_currentUser now ret line before friendid spelled) trivial
  | creategroup groupname groupdesc oneField =>
      exact creategroup_obeys json documented g_currentUser now ret line before groupname
        groupdesc oneField spelled
  | addgroup groupid =>
      exact iff_of_true
        (addgroup_obeys json documented g_currentUser now ret line before groupid spelled) trivial
  | groupchat groupid message =>
      exact groupchat_obeys json documented g_currentUser now ret line before
        groupid message spelled

end Obeying

/-! Any line. -/

/-- The handlers that cut what they get. -/
def cutting : List CommandHandler := [.chat, .creategroup, .groupchat]

theorem cutting_words (word : Bytes) (handler : CommandHandler)
    (known : commandHandlerMap.lookup word = some handler) :
    handler ∈ cutting ↔ word ∈ twoColons := by
  have names : ∀ entry ∈ commandHandlerMap, entry.2 ∈ cutting ↔ entry.1 ∈ twoColons := by decide
  obtain ⟨left, right, split, _⟩ := List.lookup_eq_some_iff.mp known
  exact names (word, handler) (by rw [split]; exact List.mem_append_right left List.mem_cons_self)

theorem complain_rejects (message : Bytes) (before menu : Menu)
    (passed : menu.passed = before.passed)
    (cerr : menu.cerr = before.cerr) (running : menu.isMainMenuRunning = before.isMainMenuRunning) :
    Rejects before (.ok (complain message menu)) :=
  ⟨_, message, rfl, passed, by rw [complain, cerr], running⟩

section Rejecting
variable (json : Json) (g_currentUser : User) (now : Time) (ret : Int)

/-- The word before the first colon chooses the handler, which gets a text with a colon iff
the line has two. -/
theorem round_word (line : Line) (menu : Menu) :
    ∃ str, (58 ∉ str ↔ (cString line.bytes).count 58 < 2) ∧
      mainMenuRound json g_currentUser now ret line menu =
        match commandHandlerMap.lookup ((cString line.bytes).takeWhile fun byte => byte ≠ 58) with
        | none => .ok (complain (ascii "invalid input command!") menu)
        | some handler =>
            handle json g_currentUser now ret str
              { menu with ran := menu.ran ++ [handler] } handler := by
  obtain plain | ⟨word, rest, split, plain⟩ := colon_cases (cString line.bytes)
  · refine ⟨cString line.bytes, ?_, ?_⟩
    · rw [List.count_eq_zero_of_not_mem plain]
      exact iff_of_true plain (by decide)
    · rw [word_whole _ plain]
      exact round_whole json g_currentUser now ret line menu plain
  · refine ⟨rest, ?_, ?_⟩
    · rw [split, List.count_append, List.count_eq_zero_of_not_mem plain,
        List.count_cons_self, ← List.count_eq_zero]
      omega
    · rw [round_cut json g_currentUser now ret line menu word rest plain split, split,
        word_cut word rest plain]

variable (documented : Documented json)
include documented

/-- A number that stoi refuses ends the menu, it is no error that is printed. -/
theorem stoi_not_rejects (str : Bytes) (request : Int → Object) (failure : Bytes)
    (before menu : Menu)
    (same : menu.passed = before.passed) :
    ¬ Rejects before (stoi str >>= fun number => sendRequest json ret
      (request number) failure menu) := by
  cases stoi str with
  | error exception =>
      rintro ⟨after, message, ran, _⟩
      cases ran
  | ok number =>
      exact send_not_rejects json documented ret (request number) failure before menu same

theorem handle_rejects (str : Bytes) (before : Menu) (handler : CommandHandler) :
    Rejects before (handle json g_currentUser now ret str
      { before with ran := before.ran ++ [handler] } handler) ↔
      handler ∈ cutting ∧ 58 ∉ str := by
  cases handler with
  | help =>
      -- it runs whatever follows the word, and has nothing to say on cerr
      refine iff_of_false ?_ (fun both => absurd both.1 (by decide))
      rintro ⟨after, message, ran, _, cerr, _⟩
      cases ran
      exact absurd (congrArg List.length cerr) (by simp)
  | loginout =>
      refine iff_of_false ?_ (fun both => absurd both.1 (by decide))
      rintro ⟨after, message, ran, passed, _⟩
      -- its request has no text that dump() could refuse
      obtain ⟨other, text, _, again, _, sent⟩ := loginout_sends json documented g_currentUser ret
        { before with ran := before.ran ++ [.loginout] }
      rw [handle, again] at ran
      cases ran
      rw [passed] at sent
      exact absurd (congrArg List.length sent) (by simp)
  | addfriend =>
      refine iff_of_false ?_ (fun both => absurd both.1 (by decide))
      exact send_not_rejects json documented ret _ _ before _ rfl
  | addgroup =>
      refine iff_of_false ?_ (fun both => absurd both.1 (by decide))
      exact stoi_not_rejects json ret documented str _ _ before _ rfl
  | chat =>
      obtain plain | ⟨word, rest, rfl, plain⟩ := colon_cases str
      · refine iff_of_true ?_ ⟨by decide, plain⟩
        rw [handle, chat_whole json g_currentUser now ret _ str plain]
        exact complain_rejects _ before _ rfl rfl rfl
      · refine iff_of_false ?_ (fun both => both.2 (by simp))
        rw [handle, chat_cut json g_currentUser now ret _ word rest plain]
        exact send_not_rejects json documented ret _ _ before _ rfl
  | creategroup =>
      obtain plain | ⟨word, rest, rfl, plain⟩ := colon_cases str
      · refine iff_of_true ?_ ⟨by decide, plain⟩
        rw [handle, creategroup_whole json g_currentUser ret _ str plain]
        exact complain_rejects _ before _ rfl rfl rfl
      · refine iff_of_false ?_ (fun both => both.2 (by simp))
        rw [handle, creategroup_cut json g_currentUser ret _ word rest plain]
        exact send_not_rejects json documented ret _ _ before _ rfl
  | groupchat =>
      obtain plain | ⟨word, rest, rfl, plain⟩ := colon_cases str
      · refine iff_of_true ?_ ⟨by decide, plain⟩
        rw [handle, groupchat_whole json g_currentUser now ret _ str plain]
        exact complain_rejects _ before _ rfl rfl rfl
      · refine iff_of_false ?_ (fun both => both.2 (by simp))
        rw [handle, groupchat_cut json g_currentUser now ret _ word rest plain]
        exact stoi_not_rejects json ret documented word _ _ before _ rfl

theorem rejects_iff (line : Line) (before : Menu) :
    Rejects before (mainMenuRound json g_currentUser now ret line before) ↔
      Refused (cString line.bytes) := by
  obtain ⟨str, colons, round⟩ := round_word json g_currentUser now ret line before
  rw [round, Refused]
  cases known : commandHandlerMap.lookup ((cString line.bytes).takeWhile fun byte => byte ≠ 58) with
  | none => exact iff_of_true (complain_rejects _ before before rfl rfl rfl) (.inl rfl)
  | some handler =>
      rw [handle_rejects json g_currentUser now ret documented, cutting_words _ handler known,
        colons]
      exact ⟨.inr, fun either => either.resolve_left (by simp)⟩

end Rejecting

/-! User 1 at the menu. -/

theorem allWritable_entries (js : Object) :
    (∀ entry ∈ js.entries, Writable entry.2) ↔ AllWritable js :=
  ⟨fun all key value found => all ⟨key, value⟩ (AList.mem_lookup_iff.mp found),
    fun all entry member => all entry.1 entry.2 (AList.mem_lookup_iff.mpr member)⟩

instance : DecidablePred Writable
  | .number _ => inferInstanceAs (Decidable True)
  | .string text => inferInstanceAs (Decidable (Utf8 text))
  | .strings texts => inferInstanceAs (Decidable (∀ text ∈ texts, Utf8 text))

instance : DecidablePred AllWritable := fun js => decidable_of_iff _ (allWritable_entries js)

def friendText : Bytes := ascii "\x7b\"friendid\":2,\"id\":1,\"msgid\":7\x7d"

/-- It writes the request for friend 2 as nlohmann::json does. -/
def sampleJson : Json where
  dump js :=
    if AllWritable js then some (if js = addfriendRequest LoginReply.ann 2 then friendText else [])
    else none

theorem sample_documented : Documented sampleJson where
  dumps js := by
    by_cases all : AllWritable js
    · exact iff_of_true ⟨_, if_pos all⟩ all
    · refine iff_of_false ?_ all
      rintro ⟨text, dumped⟩
      have throws : sampleJson.dump js = none := if_neg all
      rw [throws] at dumped
      cases dumped
  noNul js text dumped := by
    by_cases all : AllWritable js
    · have written : sampleJson.dump js = some _ := if_pos all
      rw [written] at dumped
      cases dumped
      split
      · decide
      · decide
    · have throws : sampleJson.dump js = none := if_neg all
      rw [throws] at dumped
      cases dumped

def noon : Time := ⟨ascii "2024-01-01 12:00:00", by decide⟩

def idle : Menu := { ran := [], passed := [], cerr := [], isMainMenuRunning := true }

def friendLine : Line := ⟨ascii "addfriend:2", by decide, by decide⟩
def groupLine : Line := ⟨ascii "addgroup:x", by decide, by decide⟩

def two : Id where
  mark := []
  digits := [50]
  marks := by decide
  nonempty := by decide
  all := List.forall_mem_singleton.mpr rfl
  fits := by decide

/-- What the outcome of a line should be. -/
def FollowsGrammar (json : Json) (g_currentUser : User) (now : Time) (line : Line) (before : Menu)
    (outcome : Except Exception Menu) : Prop :=
  (∀ command, line.bytes = command.text → Obeys json g_currentUser now before command outcome) ∧
    ((∀ command, line.bytes ≠ Command.text command) → Rejects before outcome)

theorem grammar_followed_iff (json : Json) (documented : Documented json) (g_currentUser : User)
    (now : Time) (ret : Int)
    (line : Line) (before : Menu) :
    FollowsGrammar json g_currentUser now line before
      (mainMenuRound json g_currentUser now ret line before) ↔
      (∀ command, line.bytes = command.text → Clean g_currentUser command) ∧
        ((∀ command, line.bytes ≠ Command.text command) → Refused (cString line.bytes)) := by
  rw [FollowsGrammar, rejects_iff json g_currentUser now ret documented]
  refine and_congr_left fun _ => forall_congr' fun command => ?_
  refine imp_congr_right fun spelled => ?_
  exact obeys_iff json documented g_currentUser now ret line before command spelled

theorem grammar_followed_iff_friend :
    FollowsGrammar sampleJson LoginReply.ann noon friendLine idle
      (mainMenuRound sampleJson LoginReply.ann noon 32 friendLine idle) := by
  refine (grammar_followed_iff sampleJson sample_documented LoginReply.ann noon 32 friendLine
    idle).mpr ⟨?_, ?_⟩
  · intro command spelled
    have first := congrArg List.head? spelled
    cases command with
    | chat friendid message => exact absurd (Option.some.inj first) (by decide)
    | creategroup groupname groupdesc oneField => exact absurd (Option.some.inj first) (by decide)
    | groupchat groupid message => exact absurd (Option.some.inj first) (by decide)
    | help => trivial
    | loginout => trivial
    | addfriend friendid => trivial
    | addgroup groupid => trivial
  · intro outside
    exact absurd rfl (outside (.addfriend two))

theorem groupLine_outside (command : Command) : groupLine.bytes ≠ command.text := by
  intro spelled
  have fourth := congrArg (fun text => text[3]?) spelled
  cases command with
  | help => exact absurd (Option.some.inj fourth) (by decide)
  | loginout => exact absurd (Option.some.inj fourth) (by decide)
  | chat friendid message => exact absurd (Option.some.inj fourth) (by decide)
  | addfriend friendid => exact absurd (Option.some.inj fourth) (by decide)
  | creategroup groupname groupdesc oneField => exact absurd (Option.some.inj fourth) (by decide)
  | groupchat groupid message => exact absurd (Option.some.inj fourth) (by decide)
  | addgroup groupid =>
      have cut : ascii "addgroup" ++ 58 :: [120] = ascii "addgroup" ++ 58 :: groupid.text := spelled
      have letter : [120] = groupid.text := (List.cons.inj (List.append_cancel_left cut)).2
      exact id_without groupid 120 (by decide) (by decide) (letter ▸ List.mem_cons_self)

/-- The id of a group goes through stoi, and its exception leaves the menu. -/
theorem group_id_throws :
    mainMenuRound sampleJson LoginReply.ann noon 32 groupLine idle =
      .error (.stoi .invalid_argument) ∧
      ¬ FollowsGrammar sampleJson LoginReply.ann noon groupLine idle
        (mainMenuRound sampleJson LoginReply.ann noon 32 groupLine idle) := by
  have thrown : mainMenuRound sampleJson LoginReply.ann noon 32 groupLine idle =
      .error (.stoi .invalid_argument) := rfl
  refine ⟨thrown, ?_⟩
  rintro ⟨_, rejected⟩
  obtain ⟨after, message, ran, _⟩ := rejected groupLine_outside
  rw [thrown] at ran
  cases ran

end MuduoChat.ClientCommands
