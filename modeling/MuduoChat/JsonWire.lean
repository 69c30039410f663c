import MuduoChat.BadRequests
import MuduoChat.ClientCommands
import MuduoChat.ClientFraming
import MuduoChat.JsonRoundTrip
import MuduoChat.JsonTexts

/-!
json.hpp between the programs: the objects that the client dumps, what the server parses and reads
of them, and what it dumps again for another client. The conversion of a double to int is a
parameter.
-/

namespace MuduoChat.JsonWire
open JsonValue
open ClientCommands (AllWritable Writable)
open JsonRoundTrip (reread rereadMembers rereadValues RoundTrips keptTexts dump_written)
open JsonSerializer (text)
open JsonTexts (Proper)
open LoginReply (Object)
open SortedMap (Sorted assignAll)
open Utf8 (WellFormed)

variable {F : Type} (floats : Floats F)

/-! Keys. -/

/-- `js["key"]` makes a std::string of the literal. -/
def keyBytes (key : String) : Bytes := key.toByteArray.data.toList

/-- The other way round; a key that is not UTF-8 never gets through json::parse. -/
def keyOf (key : Bytes) : String :=
  if valid : key.toByteArray.IsValidUTF8 then .ofByteArray key.toByteArray valid else ""

theorem keyBytes_array (key : String) : (keyBytes key).toByteArray = key.toByteArray := by
  ext1
  simp [keyBytes]

theorem keyBytes_formed (key : String) : WellFormed (keyBytes key) := by
  rw [Utf8.wellFormed_valid, keyBytes_array]
  exact key.isValidUTF8

theorem keyBytes_injective : Function.Injective keyBytes := by
  intro first second same
  rw [← String.toByteArray_inj, ← keyBytes_array, same, keyBytes_array]

theorem keyBytes_keyOf (key : Bytes) (formed : WellFormed key) : keyBytes (keyOf key) = key := by
  have valid := (Utf8.wellFormed_valid key).mp formed
  rw [keyOf, dif_pos valid, ← List.toByteArray_inj, keyBytes_array]

theorem utf8_formed (text : Bytes) : ClientCommands.Utf8 text ↔ WellFormed text := by
  have same : ByteArray.mk text.toArray = text.toByteArray := by
    ext1
    simp
  rw [Utf8.wellFormed_valid, ClientCommands.Utf8, same]

/-! What the client dumps. -/

/-- An int is kept as a number_integer, a vector of strings as an array. -/
def ofValue : LoginReply.Value → Value F
  | .number value => .number_integer (Int64.ofInt value)
  | .string value => .string value
  | .strings values => .array (values.map .string)

def assignments (entries : List (Sigma fun _ : String => LoginReply.Value)) : List
    (Bytes × Value F) :=
  entries.map fun entry => (keyBytes entry.1, ofValue entry.2)

/-- The fields are assigned one after the other. -/
def ofObject (js : Object) : Value F := .object (assignAll (assignments js.entries) [])

theorem assignments_lookup (entries : List (Sigma fun _ : String => LoginReply.Value))
    (key : String) :
    (assignments entries : List (Bytes × Value F)).lookup
    (keyBytes key) = (entries.dlookup key).map ofValue := by
  induction entries with
  | nil => rfl
  | cons entry rest ih =>
      obtain ⟨first, value⟩ := entry
      by_cases same : first = key
      · subst same
        simp [assignments]
      · have different : keyBytes key ≠ keyBytes first := fun equal =>
          same (keyBytes_injective equal).symm
        rw [List.dlookup_cons_ne _ _ (Ne.symm same), ← ih]
        simp [assignments, List.lookup_cons, beq_eq_false_iff_ne.mpr different]

theorem ofObject_lookup (js : Object) (key : String) :
    (assignAll (assignments js.entries) ([] : List (Bytes × Value F))).lookup
    (keyBytes key) = (js.lookup key).map ofValue := by
  have distinct : ((assignments js.entries : List (Bytes × Value F)).map Prod.fst).Nodup := by
    have keys : (assignments js.entries : List (Bytes × Value F)).map Prod.fst =
        js.keys.map keyBytes := by
      simp [assignments, AList.keys, List.keys]
    rw [keys]
    exact List.Nodup.map keyBytes_injective js.keys_nodup
  rw [SortedMap.lookup_assignAll _ _ distinct, assignments_lookup]
  simp [AList.lookup]

theorem ofObject_mem (js : Object) (entry : Bytes × Value F) :
    entry ∈ assignAll (assignments js.entries) [] → ∃ key value, js.lookup key = some value ∧
      entry = (keyBytes key, ofValue value) := by
  intro member
  rcases SortedMap.mem_assignAll _ _ _ member with inside | outside
  · obtain ⟨⟨key, value⟩, here, rfl⟩ := List.mem_map.mp inside
    exact ⟨key, value, AList.mem_lookup_iff.mpr here, rfl⟩
  · exact absurd outside List.not_mem_nil

theorem ofValue_texts (value : LoginReply.Value) :
    Writable value ↔ ∀ s ∈ (ofValue value : Value F).texts, WellFormed s := by
  cases value with
  | number value => simp [Writable, ofValue, Value.texts]
  | string value => simp [Writable, ofValue, Value.texts, utf8_formed]
  | strings values =>
      simp only [Writable, ofValue, Value.texts, mem_textsOfValues, utf8_formed]
      constructor
      · rintro all s ⟨_, member, here⟩
        obtain ⟨value, inside, rfl⟩ := List.mem_map.mp member
        obtain rfl := List.mem_singleton.mp here
        exact all s inside
      · exact fun all s member => all s
          ⟨_, List.mem_map.mpr ⟨s, member, rfl⟩, List.mem_singleton.mpr rfl⟩

theorem ofObject_texts (js : Object) :
    AllWritable js ↔ ∀ s ∈ (ofObject js : Value F).texts, WellFormed s := by
  rw [ofObject, Value.texts]
  simp only [mem_textsOfMembers]
  constructor
  · rintro all s ⟨entry, member, here⟩
    obtain ⟨key, value, known, rfl⟩ := ofObject_mem js entry member
    rcases here with rfl | here
    · exact keyBytes_formed key
    · exact (ofValue_texts value).mp (all key value known) s here
  · intro all key value known
    refine (ofValue_texts value).mpr fun s here =>
      all s ⟨(keyBytes key, ofValue value), ?_, .inr here⟩
    refine JsonLexer.lookup_mem _ _ _ ?_
    rw [ofObject_lookup, known]
    rfl

theorem ofObject_ordered (js : Object) : (ofObject js : Value F).Ordered := by
  refine ⟨SortedMap.sorted_assignAll _ _ .nil, (orderedMembers_iff _).mpr fun entry member => ?_⟩
  obtain ⟨key, value, _, rfl⟩ := ofObject_mem js entry member
  cases value with
  | number _ | string _ => trivial
  | strings values =>
      rw [ofValue, Value.Ordered, orderedValues_iff, List.forall_mem_map]
      exact fun _ _ => trivial

theorem ofObject_doubles (js : Object) (x : F) : x ∉ (ofObject js : Value F).doubles := by
  rw [ofObject, Value.doubles, mem_doublesOfMembers]
  rintro ⟨entry, member, here⟩
  obtain ⟨key, value, _, rfl⟩ := ofObject_mem js entry member
  cases value with
  | number _ | string _ => cases here
  | strings values =>
      rw [ofValue, Value.doubles, mem_doublesOfValues] at here
      obtain ⟨_, inside, here⟩ := here
      obtain ⟨s, _, rfl⟩ := List.mem_map.mp inside
      cases here

theorem ofObject_roundTrips (js : Object) : RoundTrips floats (ofObject js) :=
  fun x member => absurd member (ofObject_doubles js x)

def clientJson : ClientCommands.Json where
  dump js := (JsonSerializer.dump floats (ofObject js)).toOption

theorem dump_ok (value : Value F) (written : Bytes) :
    JsonSerializer.dump floats value = .ok written ↔ (∀ s ∈ value.texts, WellFormed s) ∧
      written = text floats value := by
  constructor
  · intro dumped
    have formed : ∀ s ∈ value.texts, WellFormed s := by
      by_contra broken
      obtain ⟨what, failed⟩ := (JsonSerializer.dump_dumped floats value).throws
        (by simpa using broken)
      rw [dumped] at failed
      cases failed
    rw [dump_written floats value formed] at dumped
    exact ⟨formed, (Except.ok.inj dumped).symm⟩
  · rintro ⟨formed, rfl⟩
    exact dump_written floats value formed

theorem clientJson_dump (js : Object) (written : Bytes) :
    (clientJson floats).dump js = some written ↔ AllWritable js ∧
    written = text floats (ofObject js) := by
  rw [ofObject_texts (F := F), ← dump_ok floats]
  simp only [clientJson]
  cases JsonSerializer.dump floats (ofObject js) with
  | error failure => simp [Except.toOption]
  | ok other => simp [Except.toOption]

/-- Text of a value without floats that are written otherwise than they are read. -/
theorem text_noNul (value : Value F) (roundTrips : RoundTrips floats value)
    (formed : ∀ s ∈ value.texts, WellFormed s)
    (ordered : value.Ordered) : 0 ∉ text floats value :=
  JsonTexts.derives_noNul floats _ _
    (JsonRoundTrip.text_derives floats value roundTrips formed ordered)

theorem text_formed (value : Value F) (roundTrips : RoundTrips floats value)
    (formed : ∀ s ∈ value.texts, WellFormed s) (ordered : value.Ordered) :
    WellFormed (text floats value) :=
  JsonTexts.derives_formed floats _ _
    (JsonRoundTrip.text_derives floats value roundTrips formed ordered)

theorem clientJson_documented : ClientCommands.Documented (clientJson floats) := by
  constructor
  · intro js
    constructor
    · rintro ⟨written, dumped⟩
      exact ((clientJson_dump floats js written).mp dumped).1
    · exact fun writable => ⟨_, (clientJson_dump floats js _).mpr ⟨writable, rfl⟩⟩
  · intro js written dumped
    obtain ⟨writable, rfl⟩ := (clientJson_dump floats js written).mp dumped
    exact text_noNul floats _ (ofObject_roundTrips floats js) ((ofObject_texts js).mp writable)
      (ofObject_ordered js)

/-! What the server reads. -/

section Reading
variable (cast : F → Int)

mutual

/-- The value as the handlers see it: a number is a number, and a double stands with its int. -/
def plain : Value F → BadRequests.Value
  | .null => .null
  | .object members => .object (plainMembers members)
  | .array values => .array (plainValues values)
  | .string value => .string value
  | .boolean value => .boolean value
  | .number_integer value => .number value.toInt
  | .number_unsigned value => .number value.toNat
  | .number_float value => .float (cast value)

def plainMembers : List (Bytes × Value F) → List (String × BadRequests.Value)
  | [] => []
  | (key, value) :: rest => (keyOf key, plain value) :: plainMembers rest

def plainValues : List (Value F) → List BadRequests.Value
  | [] => []
  | value :: rest => plain value :: plainValues rest

end

theorem plainMembers_map (members : List (Bytes × Value F)) :
    plainMembers cast members = members.map fun entry => (keyOf entry.1, plain cast entry.2) := by
  induction members with
  | nil => rfl
  | cons entry rest ih =>
      obtain ⟨key, value⟩ := entry
      rw [plainMembers, ih, List.map_cons]

theorem plainValues_map (values : List (Value F)) :
    plainValues cast values = values.map (plain cast) := by
  induction values with
  | nil => rfl
  | cons value rest ih => rw [plainValues, ih, List.map_cons]

/-- Whether a number is signed or unsigned is not seen. -/
theorem plain_reread (value : Value F) (finite : ∀ x ∈ value.doubles, floats.isfinite x = true) :
    plain cast (reread floats value) = plain cast value := by
  induction value using Value.induct with
  | object members each =>
      simp only [reread, plain, plainMembers_map, JsonRoundTrip.rereadMembers_map, List.map_map]
      refine congrArg BadRequests.Value.object (List.map_congr_left fun entry member => ?_)
      have same := each entry member fun x here =>
        finite x ((mem_doublesOfMembers members x).mpr ⟨entry, member, here⟩)
      simp [same]
  | array values each =>
      simp only [reread, plain, plainValues_map, JsonRoundTrip.rereadValues_map, List.map_map]
      refine congrArg BadRequests.Value.array (List.map_congr_left fun value member => ?_)
      exact each value member fun x here =>
        finite x ((mem_doublesOfValues values x).mpr ⟨value, member, here⟩)
  | number_integer x =>
      rw [reread]
      split
      · rename_i positive
        rw [plain, plain, JsonRoundTrip.toUInt64_value x positive]
      · rfl
  | number_float x => rw [reread, if_pos (finite x (List.mem_singleton.mpr rfl))]
  | null | string _ | boolean _ | number_unsigned _ => rfl

theorem plainMembers_lookup (members : List (Bytes × Value F))
    (formed : ∀ entry ∈ members, WellFormed entry.1)
    (key : String) :
    (plainMembers cast members).lookup key = (members.lookup (keyBytes key)).map (plain cast) := by
  induction members with
  | nil => rfl
  | cons entry rest ih =>
      obtain ⟨first, value⟩ := entry
      obtain ⟨here, others⟩ := List.forall_mem_cons.mp formed
      have back := keyBytes_keyOf first here
      rw [plainMembers]
      by_cases same : key = keyOf first
      · subst same
        simp [back]
      · have different : keyBytes key ≠ first := fun equal =>
          same (keyBytes_injective (equal.trans back.symm))
        simp [List.lookup_cons, beq_eq_false_iff_ne.mpr same, beq_eq_false_iff_ne.mpr different,
          ih others]

/-- What a handler dumps for another client: the value that was parsed. -/
def relayed (buf : Bytes) : Option Bytes := do
  let js ← (JsonParser.parse floats buf).toOption
  (JsonSerializer.dump floats js).toOption

/-- json.hpp while onMessage is at these bytes. -/
def library (buf : Bytes) : BadRequests.Json where
  text input := (JsonParser.parse floats input).toOption.map (plain cast)
  dump _ := (relayed floats buf).getD []

theorem library_parse (buf input : Bytes) (value : Value F)
    (parsed : JsonParser.parse floats input = .ok value) :
    BadRequests.parse (library floats cast buf) input = .ok (plain cast value) := by
  have first := (JsonTexts.parse_firstBody floats input value).mp parsed
  simp [BadRequests.parse, library, first, Except.toOption]

/-- What is dumped is the value, not the bytes that came in. -/
theorem relayed_text (buf : Bytes) (value : Value F)
    (parsed : JsonParser.parse floats buf = .ok value) :
    relayed floats buf = some (text floats value) := by
  have proper := JsonTexts.parse_proper floats buf value parsed
  simp [relayed, parsed, dump_written floats value proper.formed, Except.toOption]

/-! The fields of an object of the client, on the other side. -/

theorem int_back (number : Int) (fits : CNumbers.IsInt number) :
    BadRequests.getInt (plain cast (reread floats (ofValue (.number number)))) = .ok number := by
  obtain ⟨low, high⟩ := fits
  have held : (Int64.ofInt number).toInt = number := Int64.toInt_ofInt_of_le (by omega) (by omega)
  have small : number.bmod 4294967296 = number := Int.bmod_eq_of_le (by omega) (by omega)
  rw [plain_reread floats cast _ fun x member => absurd member List.not_mem_nil, ofValue, plain,
    BadRequests.getInt,
    held, small]

theorem ofObject_keys (js : Object) :
    ∀ entry ∈ rereadMembers floats (assignAll (assignments js.entries) []), WellFormed entry.1 := by
  rw [JsonRoundTrip.rereadMembers_map, List.forall_mem_map]
  intro entry member
  obtain ⟨key, value, _, rfl⟩ := ofObject_mem js entry member
  exact keyBytes_formed key

theorem member_back (js : Object) (key : String) (value : LoginReply.Value)
    (known : js.lookup key = some value) :
    BadRequests.member (plain cast (reread floats (ofObject js))) key =
      .ok (plain cast (reread floats (ofValue value))) := by
  rw [ofObject, reread, plain, BadRequests.member, plainMembers_lookup cast _
    (ofObject_keys floats js), JsonRoundTrip.rereadMembers_map,
    SortedMap.lookup_mapped, ofObject_lookup, known]
  rfl

theorem intAt_back (js : Object) (key : String) (number : Int) (fits : CNumbers.IsInt number)
    (known : js.lookup key = some (.number number)) :
    BadRequests.intAt (plain cast (reread floats (ofObject js))) key = .ok number := by
  rw [BadRequests.intAt, member_back floats cast js key _ known]
  exact int_back floats cast number fits

theorem textAt_back (js : Object) (key : String) (s : Bytes)
    (known : js.lookup key = some (.string s)) :
    BadRequests.textAt (plain cast (reread floats (ofObject js))) key = .ok s := by
  rw [BadRequests.textAt, member_back floats cast js key _ known]
  rfl

theorem object_back (js : Object) (writable : AllWritable js) :
    JsonParser.parse floats (text floats (ofObject js)) = .ok (reread floats (ofObject js)) :=
  JsonRoundTrip.parse_written floats _ (ofObject_roundTrips floats js)
    ((ofObject_texts js).mp writable)
    (ofObject_ordered js)

end Reading

/-! A chat message. -/

section Sample
open SqlText (ascii)
open ClientCommands (Command Line)

def hello : Command := .chat ClientCommands.two (ascii "hi")

def helloLine : Line := ⟨hello.text, by decide, by decide⟩

def helloObject : Object := ClientCommands.chatRequest LoginReply.ann ClientCommands.noon 2
    (ascii "hi")

theorem helloObject_writable : AllWritable helloObject := by
  rw [ofObject_texts (F := Bytes)]
  decide

end Sample

/-! From a command to the job of the server. -/

section Commands
open ClientCommands (Command Time Line Menu Clean Carries mainMenuRound)
open LoginReply (User)
open ChatService (Job)
variable (cast : F → Int) {S C : Type} (server : S) (conn : C) (g_currentUser : User) (now : Time)

/-- What the server is to do for a command whose request was dumped to this text. -/
def asked (written : Bytes) : Command → Option (Job S C)
  | .help => none
  | .loginout => some (.loginout server conn g_currentUser.id)
  | .chat friendid _ => some (.oneChat server conn friendid.number written)
  | .addfriend friendid => some (.addFriend server conn g_currentUser.id friendid.number)
  | .creategroup groupname groupdesc _ =>
      some (.creatGroup server conn g_currentUser.id groupname groupdesc)
  | .addgroup groupid => some (.addGroup server conn g_currentUser.id groupid.number)
  | .groupchat groupid _ => some (.groupChat server conn g_currentUser.id groupid.number written)

theorem asked_job (command : Command) (js : Object)
    (request : command.request g_currentUser now = some js)
    (fits : CNumbers.IsInt g_currentUser.id) (buf : Bytes) :
    ∃ msgid, BadRequests.intAt (plain cast (reread floats (ofObject js))) "msgid" = .ok msgid ∧
      BadRequests.job (library floats cast buf) server conn
        (plain cast (reread floats (ofObject js)))
        (ServerFraming.getHandler msgid) =
          .ok (asked server conn g_currentUser ((relayed floats buf).getD []) command) := by
  have number (key : String) (n : Int) (isInt : CNumbers.IsInt n)
      (known : js.lookup key = some (.number n)) :=
    intAt_back floats cast js key n isInt known
  have word (key : String) (s : Bytes) (known : js.lookup key = some (.string s)) :=
    textAt_back floats cast js key s known
  cases command with
  | help => cases request
  | loginout =>
      cases request
      refine ⟨3, number "msgid" 3 (by decide) rfl, ?_⟩
      change (do
        let userid ← BadRequests.intAt _ "id"
        pure (some (Job.loginout server conn userid))) = _
      rw [number "id" _ fits rfl]
      rfl
  | chat friendid message =>
      cases request
      refine ⟨6, number "msgid" 6 (by decide) rfl, ?_⟩
      change (do
        let toid ← BadRequests.intAt _ "to"
        pure (some (Job.oneChat server conn toid _))) = _
      rw [number "to" _ friendid.fits rfl]
      rfl
  | addfriend friendid =>
      cases request
      refine ⟨7, number "msgid" 7 (by decide) rfl, ?_⟩
      change (do
        let userid ← BadRequests.intAt _ "id"
        let friendid ← BadRequests.intAt _ "friendid"
        pure (some (Job.addFriend server conn userid friendid))) = _
      rw [number "id" _ fits rfl, number "friendid" _ friendid.fits rfl]
      rfl
  | creategroup groupname groupdesc oneField =>
      cases request
      refine ⟨8, number "msgid" 8 (by decide) rfl, ?_⟩
      change (do
        let userid ← BadRequests.intAt _ "id"
        let name ← BadRequests.textAt _ "groupname"
        let desc ← BadRequests.textAt _ "groupdesc"
        pure (some (Job.creatGroup server conn userid name desc))) = _
      rw [number "id" _ fits rfl, word "groupname" groupname rfl, word "groupdesc" groupdesc rfl]
      rfl
  | addgroup groupid =>
      cases request
      refine ⟨9, number "msgid" 9 (by decide) rfl, ?_⟩
      change (do
        let userid ← BadRequests.intAt _ "id"
        let groupid ← BadRequests.intAt _ "groupid"
        pure (some (Job.addGroup server conn userid groupid))) = _
      rw [number "id" _ fits rfl, number "groupid" _ groupid.fits rfl]
      rfl
  | groupchat groupid message =>
      cases request
      refine ⟨10, number "msgid" 10 (by decide) rfl, ?_⟩
      change (do
        let userid ← BadRequests.intAt _ "id"
        let groupid ← BadRequests.intAt _ "groupid"
        pure (some (Job.groupChat server conn userid groupid _))) = _
      rw [number "id" _ fits rfl, number "groupid" _ groupid.fits rfl]
      rfl

/-- The bytes of a request, with the NUL that ends them, as one delivery. -/
theorem request_asked (command : Command) (js : Object)
    (request : command.request g_currentUser now = some js)
    (fits : CNumbers.IsInt g_currentUser.id) (writable : AllWritable js) :
    relayed floats (text floats (ofObject js) ++ [0]) = some (text floats (ofObject js)) ∧
      BadRequests.request (library floats cast (text floats (ofObject js) ++ [0])) server conn
        (text floats (ofObject js) ++ [0]) =
        .ok (asked server conn g_currentUser (text floats (ofObject js)) command) := by
  have noNul := text_noNul floats _ (ofObject_roundTrips floats js)
    ((ofObject_texts js).mp writable)
    (ofObject_ordered js)
  have parsed : JsonParser.parse floats (text floats (ofObject js) ++ [0]) =
      .ok (reread floats (ofObject js)) := by
    rw [JsonTexts.parse_firstBody, Framing.firstBody_frame 0 _ [] noNul]
    exact object_back floats js writable
  have same : relayed floats (text floats (ofObject js) ++ [0]) =
      some (text floats (ofObject js)) := by
    rw [relayed_text floats _ _ parsed, JsonRoundTrip.text_reread]
  obtain ⟨msgid, read, job⟩ :=
    asked_job floats cast server conn g_currentUser now command js request fits
    (text floats (ofObject js) ++ [0])
  refine ⟨same, ?_⟩
  rw [BadRequests.request, library_parse floats cast _ _ _ parsed]
  change (BadRequests.intAt _ "msgid" >>= fun msgid => BadRequests.job _ server conn _
    (ServerFraming.getHandler msgid)) = _
  rw [read]
  change BadRequests.job _ server conn _ (ServerFraming.getHandler msgid) = _
  rw [job, same]
  rfl

/-- A line of the grammar, from the keyboard to the job of the server: its request comes in with the
fields of the command, and what the server passes on of it is the text of the client. -/
theorem command_arrives (ret : Int) (line : Line) (before : Menu) (command : Command)
    (spelled : line.bytes = command.text)
    (clean : Clean g_currentUser command) (fits : CNumbers.IsInt g_currentUser.id) :
    ∃ after, mainMenuRound (clientJson floats) g_currentUser now ret line before = .ok after ∧
      match command.request g_currentUser now with
      | none => after.passed = before.passed
      | some js => ∃ written, after.passed = before.passed ++ [(js, written ++ [0])] ∧
          relayed floats (written ++ [0]) = some written ∧
          BadRequests.request (library floats cast (written ++ [0])) server conn (written ++ [0]) =
            .ok (asked server conn g_currentUser written command) := by
  obtain ⟨after, returns, _, carries⟩ :=
    (ClientCommands.obeys_iff (clientJson floats) (clientJson_documented floats) g_currentUser now
    ret line before command spelled).mpr clean
  refine ⟨after, returns, ?_⟩
  cases request : command.request g_currentUser now with
  | none =>
      rw [request] at carries
      exact carries
  | some js =>
      rw [request] at carries
      obtain ⟨written, dumped, passed⟩ := carries
      obtain ⟨writable, rfl⟩ := (clientJson_dump floats js written).mp dumped
      exact ⟨_, passed,
        request_asked floats cast server conn g_currentUser now command js request fits writable⟩

theorem command_arrives_hello :
    ∃ after, ClientCommands.mainMenuRound
      (clientJson keptTexts) LoginReply.ann ClientCommands.noon 1 helloLine ClientCommands.idle =
        .ok after ∧
      ∃ written, after.passed = [(ClientCommands.chatRequest LoginReply.ann ClientCommands.noon 2
        (SqlText.ascii "hi"), written ++ [0])] ∧
        relayed keptTexts (written ++ [0]) = some written ∧
        BadRequests.request (library keptTexts (fun _ => 0) (written ++ [0])) 1 5
          (written ++ [0]) = .ok (some (.oneChat 1 5 2 written)) :=
  command_arrives keptTexts
    (fun _ => 0) 1 5 LoginReply.ann ClientCommands.noon 1 helloLine ClientCommands.idle hello rfl
    ⟨by decide, by decide, by decide⟩ (by decide)

end Commands

/-! Messages on a stream. -/

section Stream
variable (cast : F → Int)

/-- json.hpp as the code around onMessage and around recv uses it. -/
def messages : ServerFraming.Json (Value F) where
  dump js := (JsonSerializer.dump floats js).toOption.getD []
  text input := (JsonParser.parse floats input).toOption
  msgid js := (BadRequests.intAt (plain cast js) "msgid").toOption

/-- An object as json::parse leaves it, with a number for its msgid. A -0 is left out: json::parse
makes a number_integer of it, and its dump is 0, which comes back as a number_unsigned. -/
structure Message (js : Value F) : Prop where
  proper : Proper js
  object : ∃ members, js = .object members
  canonical : reread floats js = js
  roundTrips : RoundTrips floats js
  msgid : ∃ msgid, BadRequests.intAt (plain cast js) "msgid" = .ok msgid

theorem object_opened (members : List (Bytes × Value F)) :
    ∃ rest, text floats (.object members) = 123 :: rest :=
  ⟨_, by rw [text, List.cons_append]⟩

section Message
variable (js : Value F) (message : Message floats cast js)
include message

theorem message_dump : (messages floats cast).dump js = text floats js := by
  simp [messages, dump_written floats js message.proper.formed, Except.toOption]

theorem message_bracketed : JsonTexts.Bracketed floats (text floats js) js := by
  have derived :=
    JsonRoundTrip.text_derives floats js message.roundTrips message.proper.formed message.proper.ordered
  rw [message.canonical] at derived
  obtain ⟨members, rfl⟩ := message.object
  obtain ⟨rest, opened⟩ := object_opened floats members
  exact ⟨derived, 123, rest, opened, rfl⟩

theorem message_noNul : 0 ∉ text floats js :=
  JsonTexts.derives_noNul floats js _ (message_bracketed floats cast js message).derived

theorem message_read : (messages floats cast).text (text floats js) = some js := by
  have parsed :=
    JsonRoundTrip.parse_written floats js message.roundTrips message.proper.formed message.proper.ordered
  simp [messages, parsed, message.canonical, Except.toOption]

theorem message_msgid : ∃ msgid, (messages floats cast).msgid js = some msgid := by
  obtain ⟨msgid, read⟩ := message.msgid
  exact ⟨msgid, by simp [messages, read, Except.toOption]⟩

end Message

theorem refused (input : Bytes) (never : ∀ v, ¬ JsonGrammar.Text floats input v) :
    (messages floats cast).text input = none := by
  cases parsed : JsonParser.parse floats input with
  | error failure => simp [messages, parsed, Except.toOption]
  | ok v => exact absurd ((JsonGrammar.parse_text floats input v).mp parsed) (never v)

/-- What the framing of the requests rests on. -/
theorem requests_documented : ServerFraming.Documented (messages floats cast)
    (Message floats cast) := by
  refine ⟨message_msgid floats cast, ?_, ?_, ?_⟩
  · intro js message
    rw [message_dump floats cast js message]
    exact message_read floats cast js message
  · intro js message
    rw [message_dump floats cast js message]
    exact message_noNul floats cast js message
  · rintro js message rest ⟨front, whole⟩ proper
    rw [message_dump floats cast js message] at whole proper
    have some_ : front ≠ [] := by
      rintro rfl
      exact proper whole
    have bracketed := message_bracketed floats cast js message
    rw [← whole] at bracketed
    exact refused floats cast rest fun v =>
      JsonTexts.end_refused floats front rest js v bracketed some_

/-- What the reading of the client rests on. -/
theorem replies_documented : ClientFraming.Documented (messages floats cast)
    (Message floats cast) := by
  refine ⟨message_msgid floats cast, ?_, ?_, ?_, ?_, ?_⟩
  · intro js message
    rw [message_dump floats cast js message]
    exact message_read floats cast js message
  · intro js message
    rw [message_dump floats cast js message]
    exact message_noNul floats cast js message
  · intro js message
    rw [message_dump floats cast js message]
    obtain ⟨members, rfl⟩ := message.object
    exact object_opened floats members
  · rintro js message piece ⟨rest, whole⟩ proper
    rw [message_dump floats cast js message] at whole proper
    have more : rest ≠ [] := by
      rintro rfl
      exact proper (by simpa using whole)
    have bracketed := message_bracketed floats cast js message
    rw [← whole] at bracketed
    exact refused floats cast piece fun v =>
      JsonTexts.cut_refused floats piece rest js v bracketed more
  · intro js message more
    rw [message_dump floats cast js message]
    refine refused floats cast _ fun v accepted => ?_
    obtain ⟨_, blank, tail, whole, isBlank, ended⟩ :=
      (JsonTexts.behind_accepted floats _ _ js v
        (message_bracketed floats cast js message)).mp accepted
    cases blank with
    | nil =>
        obtain rfl : 123 :: more = tail := whole
        rcases ended with empty | zero
        · cases empty
        · exact absurd (Option.some.inj zero) (by decide)
    | cons first blank =>
        obtain ⟨rfl, _⟩ := List.cons.inj whole
        exact absurd (isBlank _ List.mem_cons_self) (by decide)

/-- Each request of the client comes in as such a message. -/
theorem object_message (js : Object) (writable : AllWritable js) (msgid : Int)
    (fits : CNumbers.IsInt msgid)
    (known : js.lookup "msgid" = some (.number msgid)) :
    Message floats cast (reread floats (ofObject js)) where
  proper :=
    { formed := by
        rw [JsonRoundTrip.reread_texts]
        exact (ofObject_texts js).mp writable
      ordered := JsonRoundTrip.reread_ordered floats _ (ofObject_ordered js) }
  object := ⟨_, by rw [ofObject, reread]⟩
  canonical := JsonRoundTrip.reread_reread floats _
  roundTrips := JsonRoundTrip.reread_roundTrips floats _ (ofObject_roundTrips floats js)
  msgid := ⟨msgid, intAt_back floats cast js "msgid" msgid fits known⟩

example : Message keptTexts (fun _ => 0) (reread keptTexts (ofObject helloObject)) :=
  object_message keptTexts (fun _ => 0) helloObject helloObject_writable 6 (by decide) rfl

end Stream

/-! What comes out on the other side. -/

section Fields
variable (cast : F → Int)

theorem strings_back (values : List Bytes) :
    plainValues cast (rereadValues floats (values.map .string)) = values.map .string := by
  induction values with
  | nil => rfl
  | cons value rest ih => exact congrArg (BadRequests.Value.string value :: ·) ih

theorem absent_back (js : Object) (key : String) (absent : js.lookup key = none) :
    BadRequests.member (plain cast (reread floats (ofObject js))) key = .ok .null := by
  rw [ofObject, reread, plain, BadRequests.member,
    plainMembers_lookup cast _ (ofObject_keys floats js),
    JsonRoundTrip.rereadMembers_map, SortedMap.lookup_mapped, ofObject_lookup, absent]
  rfl

/-- The fields of an object: those that were put into it, and no others. -/
theorem fields_arrive (js : Object) (writable : AllWritable js) :
    ∃ written value, (clientJson floats).dump js = some written ∧
      JsonParser.parse floats written = .ok value ∧
      (∀ key number, js.lookup key = some (.number number) → CNumbers.IsInt number →
        BadRequests.intAt (plain cast value) key = .ok number) ∧
      (∀ key s, js.lookup key = some (.string s) →
        BadRequests.textAt (plain cast value) key = .ok s) ∧
      (∀ key values, js.lookup key = some (.strings values) →
        BadRequests.member (plain cast value) key = .ok (.array (values.map .string))) ∧
      ∀ key, js.lookup key = none → BadRequests.member (plain cast value) key = .ok .null := by
  refine ⟨_, _, (clientJson_dump floats js _).mpr ⟨writable, rfl⟩, object_back floats js writable,
    ?_, ?_, ?_, ?_⟩
  · exact fun key number known fits => intAt_back floats cast js key number fits known
  · exact fun key s known => textAt_back floats cast js key s known
  · intro key values known
    rw [member_back floats cast js key _ known, ofValue, reread, plain, strings_back]
  · exact fun key absent => absent_back floats cast js key absent

theorem fields_arrive_hello :
    ∃ written value, (clientJson keptTexts).dump helloObject = some written ∧
      JsonParser.parse keptTexts written = .ok value ∧
      (∀ key number, helloObject.lookup key = some (.number number) → CNumbers.IsInt number →
        BadRequests.intAt (plain (fun _ => 0) value) key = .ok number) ∧
      (∀ key s, helloObject.lookup key = some (.string s) →
        BadRequests.textAt (plain (fun _ => 0) value) key = .ok s) ∧
      (∀ key values, helloObject.lookup key = some (.strings values) →
        BadRequests.member (plain (fun _ => 0) value) key = .ok (.array (values.map .string))) ∧
      ∀ key, helloObject.lookup key = none →
        BadRequests.member (plain (fun _ => 0) value) key = .ok .null :=
  fields_arrive keptTexts (fun _ => 0) helloObject helloObject_writable

end Fields

/-! What the server relays. -/

section Relay
variable (cast : F → Int)

/-- login with a message that was stored for the user. -/
theorem offline_back (js : Object) (writable : AllWritable js) (vec : List Bytes)
    (formed : ∀ msg ∈ vec, WellFormed msg) :
    ∃ reply back, (clientJson floats).dump (js.insert "offlinemsg" (.strings vec)) = some reply ∧
      JsonParser.parse floats reply = .ok back ∧
      BadRequests.member (plain cast back) "offlinemsg" = .ok (.array (vec.map .string)) := by
  have all : AllWritable (js.insert "offlinemsg" (.strings vec)) := by
    intro key value known
    by_cases same : key = "offlinemsg"
    · subst same
      rw [AList.lookup_insert] at known
      cases known
      exact fun msg member => (utf8_formed msg).mpr (formed msg member)
    · rw [AList.lookup_insert_ne same] at known
      exact writable key value known
  refine ⟨_, _, (clientJson_dump floats _ _).mpr ⟨all, rfl⟩, object_back floats _ all, ?_⟩
  rw [member_back floats cast _ "offlinemsg" _ (AList.lookup_insert _), ofValue, reread, plain,
    strings_back]

/-- An accepted request can always be dumped for another client. There it is accepted, and no
field reads otherwise than it did at the server. Among the offline messages of a login it comes
out as it was put in. -/
theorem relay_stable (buf : Bytes) (value : Value F)
    (parsed : JsonParser.parse floats buf = .ok value)
    (roundTrips : RoundTrips floats value) :
    ∃ written, relayed floats buf = some written ∧ 0 ∉ written ∧ WellFormed written ∧
      JsonParser.parse floats written = .ok (reread floats value) ∧
      plain cast (reread floats value) = plain cast value ∧
      ∀ js vec, AllWritable js → (∀ msg ∈ vec, msg = written ∨ WellFormed msg) →
        ∃ reply back, (clientJson floats).dump (js.insert "offlinemsg" (.strings vec)) =
          some reply ∧
          JsonParser.parse floats reply = .ok back ∧
          BadRequests.member (plain cast back) "offlinemsg" = .ok (.array (vec.map .string)) := by
  have proper := JsonTexts.parse_proper floats buf value parsed
  have formed := text_formed floats value roundTrips proper.formed proper.ordered
  refine ⟨text floats value, relayed_text floats buf value parsed,
    text_noNul floats value roundTrips proper.formed proper.ordered, formed,
    JsonRoundTrip.parse_written floats value roundTrips proper.formed proper.ordered,
    plain_reread floats cast value (JsonTexts.parse_finite floats buf value parsed), ?_⟩
  intro js vec writable others
  refine offline_back floats cast js writable vec fun msg member => ?_
  rcases others msg member with rfl | other
  · exact formed
  · exact other

theorem relay_stable_hello :
    ∃ written, relayed keptTexts (text keptTexts (ofObject helloObject)) = some written ∧
      0 ∉ written ∧
      WellFormed written ∧
      JsonParser.parse keptTexts written =
        .ok (reread keptTexts (reread keptTexts (ofObject helloObject))) ∧
      plain (fun _ => 0) (reread keptTexts (reread keptTexts (ofObject helloObject))) =
        plain (fun _ => 0) (reread keptTexts (ofObject helloObject)) ∧
      ∀ js vec, AllWritable js → (∀ msg ∈ vec, msg = written ∨ WellFormed msg) →
        ∃ reply back, (clientJson keptTexts).dump (js.insert "offlinemsg" (.strings vec)) =
          some reply ∧
          JsonParser.parse keptTexts reply = .ok back ∧
          BadRequests.member (plain (fun _ => 0) back) "offlinemsg" =
            .ok (.array (vec.map .string)) :=
  relay_stable keptTexts (fun _ => 0) _ _ (object_back keptTexts helloObject helloObject_writable)
    (JsonRoundTrip.reread_roundTrips keptTexts _ (ofObject_roundTrips keptTexts helloObject))

end Relay

end MuduoChat.JsonWire
