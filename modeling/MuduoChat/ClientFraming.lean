import MuduoChat.ServerFraming

/-!
readTaskHandler of CHAT/src/client/main.cpp, over any results of recv. The server sends
json.dump() as it is, with no NUL behind it and no length in front, and the client takes
each recv for one message. An exception that leaves the reading thread ends the client.
-/

namespace MuduoChat.ClientFraming
open ByteBuffer
open ServerFraming (Json parse LOGIN_MSG_ACK REG_MSG_ACK ONE_CHAT_MSG GROUP_CHAT_MSG)

/-- The size of the client's buffer, and of each recv. -/
def kBufferSize : Nat := 1024

/-- The branches of readTaskHandler; a message of another kind is dropped. -/
inductive Branch where
  | oneChat
  | groupChat
  | doLoginResponse
  | doRegResponse
  | dropped
  deriving DecidableEq

def branch (msgtype : Int) : Branch :=
  if msgtype = ONE_CHAT_MSG then .oneChat
  else if msgtype = GROUP_CHAT_MSG then .groupChat
  else if msgtype = LOGIN_MSG_ACK then .doLoginResponse
  else if msgtype = REG_MSG_ACK then .doRegResponse
  else .dropped

variable {J : Type}

/-- `char buffer[1024] = {0}` after a recv that gave the bytes of one piece. -/
def buffer (piece : Bytes) : Bytes := piece ++ List.replicate (kBufferSize - piece.length) 0

def dispatch (json : Json J) (js : J) : Option (Branch × J) := (json.msgid js).map fun msgtype =>
    (branch msgtype, js)

/-- One round of the loop. -/
def readMessage (json : Json J) (piece : Bytes) : Option (Branch × J) :=
  (parse json (buffer piece)).bind (dispatch json)

/-- The messages processed over the results of recv, and whether the client still reads. -/
def readTaskHandler (json : Json J) (pieces : List Bytes) : List (Branch × J) × Bool :=
  Framing.handleAll (readMessage json) pieces

/-- What recv can give while the connection is up. -/
def Received (piece : Bytes) : Prop := piece ≠ [] ∧ piece.length ≤ kBufferSize

instance (piece : Bytes) : Decidable (Received piece) := inferInstanceAs (Decidable (_ ∧ _))

/-- What the json library does with the messages of the server: objects, whose text
begins with a brace; no less than the text is a JSON text, nor is the text with another
object behind it. -/
structure Documented (json : Json J) (message : J → Prop) : Prop where
  msgid : ∀ js, message js → ∃ msgid, json.msgid js = some msgid
  read : ∀ js, message js → json.text (json.dump js) = some js
  noNul : ∀ js, message js → 0 ∉ json.dump js
  object : ∀ js, message js → ∃ rest, json.dump js = 123 :: rest
  cut : ∀ js, message js → ∀ piece, piece <+: json.dump js → piece ≠ json.dump js →
    json.text piece = none
  fused : ∀ js, message js → ∀ more, json.text (json.dump js ++ 123 :: more) = none

theorem parse_buffer (json : Json J) (piece : Bytes) (clean : 0 ∉ piece) :
    parse json (buffer piece) = json.text piece := by
  unfold parse buffer
  cases kBufferSize - piece.length with
  | zero => rw [List.replicate_zero, List.append_nil, Framing.firstBody_open 0 piece clean]
  | succ left => rw [List.replicate_succ, Framing.firstBody_frame 0 piece _ clean]

section Client
variable (json : Json J) (message : J → Prop) (documented : Documented json message)
include documented

theorem readMessage_dump (js : J) (valid : message js) :
    readMessage json (json.dump js) = dispatch json js ∧ dispatch json js ≠ none := by
  obtain ⟨msgid, known⟩ := documented.msgid js valid
  constructor
  · rw [readMessage, parse_buffer json _ (documented.noNul js valid), documented.read js valid]
    rfl
  · simp [dispatch, known]

end Client

/-! A chat message for the user and the answer to a registration. -/

section Sample

inductive Sample where
  | chat
  | registered
  deriving DecidableEq

/-- The keys id, msg, msgid, name, time and to with the values 2, m, 6, b, t and 1, and
the keys errno, id and msgid with the values 0, 1 and 5. -/
def sampleDump : Sample → Bytes
  | .chat =>
      [123, 34, 105, 100, 34, 58, 50, 44, 34, 109, 115, 103, 34, 58, 34, 109, 34, 44, 34, 109, 115,
        103,
      105, 100, 34, 58, 54, 44, 34, 110, 97, 109, 101, 34, 58, 34, 98, 34, 44, 34, 116, 105, 109,
        101, 34,
      58, 34, 116, 34, 44, 34, 116, 111, 34, 58, 49, 125]
  | .registered =>
      [123, 34, 101, 114, 114, 110, 111, 34, 58, 48, 44, 34, 105, 100, 34, 58, 49, 44, 34, 109,
        115, 103,
      105, 100, 34, 58, 53, 125]

def sampleJson : Json Sample where
  dump := sampleDump
  text buf :=
    if buf = sampleDump .chat then some .chat
    else if buf = sampleDump .registered then some .registered
    else none
  msgid
    | .chat => some ONE_CHAT_MSG
    | .registered => some REG_MSG_ACK

theorem sample_refused (piece : Bytes) (other : ∀ js, piece ≠ sampleDump js) :
    sampleJson.text piece = none := by
  simp [sampleJson, other]

theorem sample_cut (js : Sample) :
    ∀ piece ∈ (sampleDump js).inits, piece ≠ sampleDump js → sampleJson.text piece = none := by
  cases js <;> decide +kernel

theorem sample_fused (js : Sample) (more : Bytes) :
    sampleJson.text (sampleDump js ++ 123 :: more) = none := by
  apply sample_refused
  rintro other same
  cases js <;> cases other <;> simp [sampleDump] at same

theorem sample_documented : Documented sampleJson fun _ => True where
  msgid js _ := by cases js <;> exact ⟨_, rfl⟩
  read js _ := by cases js <;> decide +kernel
  noNul js _ := by cases js <;> decide +kernel
  object js _ := by cases js <;> exact ⟨_, rfl⟩
  cut js _ piece part proper := sample_cut js piece ((List.mem_inits _ _).mpr part) proper
  fused js _ more := sample_fused js more

end Sample

section Client
variable (json : Json J) (message : J → Prop) (documented : Documented json message)
include documented

/-- No NUL is among the bytes that arrive, so each piece is parsed as it is. -/
theorem arrived_clean (messages : List J) (sent : ∀ js ∈ messages, message js) (pieces : List Bytes)
    (arrived : pieces.flatten = (messages.map json.dump).flatten) :
    ∀ piece ∈ pieces, 0 ∉ piece := by
  intro piece member inside
  have somewhere : (0 : UInt8) ∈ pieces.flatten := List.mem_flatten.mpr ⟨piece, member, inside⟩
  rw [arrived, List.mem_flatten] at somewhere
  obtain ⟨text, listed, found⟩ := somewhere
  obtain ⟨js, here, rfl⟩ := List.mem_map.mp listed
  exact documented.noNul js (sent js here) found

theorem messages_processed (messages : List J) (sent : ∀ js ∈ messages, message js)
    (pieces : List Bytes)
    (received : ∀ piece ∈ pieces, Received piece)
    (arrived : pieces.flatten = (messages.map json.dump).flatten) :
    readTaskHandler json pieces = (messages.filterMap (dispatch json), true) ↔
      pieces = messages.map json.dump := by
  constructor
  · intro processed
    have running := Framing.handleAll_running (readMessage json) pieces
      (congrArg Prod.snd processed)
    have clean := arrived_clean json message documented messages sent pieces arrived
    apply Framing.pieces_bodies 123 (fun piece => json.text piece ≠ none) pieces _
      fun piece member =>
      (received piece member).1
    · intro text listed
      obtain ⟨js, here, rfl⟩ := List.mem_map.mp listed
      exact documented.object js (sent js here)
    · intro text listed piece part proper
      obtain ⟨js, here, rfl⟩ := List.mem_map.mp listed
      exact not_not.mpr (documented.cut js (sent js here) piece part proper)
    · intro text listed more
      obtain ⟨js, here, rfl⟩ := List.mem_map.mp listed
      exact not_not.mpr (documented.fused js (sent js here) more)
    · intro piece member refused
      apply running piece member
      rw [readMessage, parse_buffer json piece (clean piece member), refused]
      rfl
    · exact arrived
  · rintro rfl
    have each := fun js member => readMessage_dump json message documented js (sent js member)
    rw [readTaskHandler, Framing.handleAll_some, List.filterMap_map]
    · congr 1
      exact List.filterMap_congr fun js member => (each js member).1
    · intro text listed
      obtain ⟨js, here, rfl⟩ := List.mem_map.mp listed
      rw [(each js here).1]
      exact (each js here).2

end Client

theorem messages_processed_two :
    readTaskHandler sampleJson [sampleDump .chat, sampleDump .registered] =
    ([(.oneChat, .chat), (.doRegResponse, .registered)], true) :=
  (messages_processed sampleJson (fun _ => True) sample_documented [.chat, .registered]
    (fun _ _ => trivial)
    [sampleDump .chat, sampleDump .registered] (by decide +kernel) rfl).mpr rfl

/-- Both messages in one recv, or the first one cut: the client ends. -/
theorem coalesced_messages_refused :
    readTaskHandler sampleJson [sampleDump .chat ++ sampleDump .registered] = ([], false) ∧
      readTaskHandler sampleJson [(sampleDump .chat).take 9, (sampleDump .chat).drop 9] =
        ([], false) ∧
      ¬ ∀ pieces : List Bytes, (∀ piece ∈ pieces, Received piece) →
        pieces.flatten = ([.chat, .registered].map sampleJson.dump).flatten →
        readTaskHandler sampleJson pieces = ([.chat, .registered].filterMap (dispatch sampleJson),
          true) := by
  have fused : readTaskHandler sampleJson [sampleDump .chat ++ sampleDump .registered] =
      ([], false) := by
    decide +kernel
  refine ⟨fused, by decide +kernel, fun claimed => ?_⟩
  have both := claimed [sampleDump .chat ++ sampleDump .registered] (by decide +kernel)
    (by decide +kernel)
  rw [fused] at both
  exact absurd both (by decide)

end MuduoChat.ClientFraming
