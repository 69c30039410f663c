import Mathlib.Data.List.Infix
import MuduoChat.ByteBuffer
import MuduoChat.Framing

/-!
CHAT/src/server/chatserver.cpp, onMessage, with ChatService::getHandler, and the
requests of CHAT/src/client/main.cpp as they are put on the socket. The json
library is a parameter: `dump`, the reading of one whole JSON text, and
`js["msgid"].get<int>()`. An exception that leaves onMessage ends the process.
Each delivery is what TCP brought since the last one; it is never empty, since
the library calls onMessage only after reading some bytes.
-/

namespace MuduoChat.ServerFraming
open ByteBuffer

/-! public.hpp. -/

def LOGIN_MSG : Int := 1
def LOGIN_MSG_ACK : Int := 2
def LOGINOUT_MSG : Int := 3
def REG_MSG : Int := 4
def REG_MSG_ACK : Int := 5
def ONE_CHAT_MSG : Int := 6
def ADD_FRIEND_MSG : Int := 7
def CREATE_GROUP_MSG : Int := 8
def ADD_GROUP_MSG : Int := 9
def GROUP_CHAT_MSG : Int := 10

/-- The functions of _msgHandlerMap, and the one that only logs. -/
inductive MsgHandler where
  | login
  | reg
  | oneChat
  | addFriend
  | creatGroup
  | addGroup
  | groupChat
  | loginout
  | canNotFind (msgid : Int)
  deriving DecidableEq

def msgHandlerMap : List (Int × MsgHandler) :=
  [(LOGIN_MSG, .login), (REG_MSG, .reg), (ONE_CHAT_MSG, .oneChat), (ADD_FRIEND_MSG, .addFriend),
    (CREATE_GROUP_MSG, .creatGroup), (ADD_GROUP_MSG, .addGroup), (GROUP_CHAT_MSG, .groupChat),
    (LOGINOUT_MSG, .loginout)]

def getHandler (msgid : Int) : MsgHandler := (msgHandlerMap.lookup msgid).getD (.canNotFind msgid)

/-- nlohmann::json. `text` reads a string that is one JSON text and nothing else;
none is an exception. -/
structure Json (J : Type) where
  dump : J → Bytes
  text : Bytes → Option J
  msgid : J → Option Int

variable {J : Type}

/-- json::parse takes a NUL for the end of the input. -/
def parse (json : Json J) (buf : Bytes) : Option J := json.text (Framing.firstBody 0 buf)

def dispatch (json : Json J) (js : J) : Option (MsgHandler × J) :=
  (json.msgid js).map fun msgid => (getHandler msgid, js)

def onMessage (json : Json J) (buffer : Buffer) : Option (MsgHandler × J) × Buffer :=
  let buf := retrieveAllAsString buffer
  ((parse json buf.1).bind (dispatch json), buf.2)

/-- The handlers called over a sequence of deliveries, and whether the server is
still running after it. -/
def serve (json : Json J) : Buffer → List Bytes → List (MsgHandler × J) × Bool
  | _, [] => ([], true)
  | buffer, delivery :: rest =>
      match onMessage json (append buffer delivery) with
      | (none, _) => ([], false)
      | (some called, emptied) =>
          let later := serve json emptied rest
          (called :: later.1, later.2)

/-- `send(clientfd, buffer.c_str(), strlen(buffer.c_str()) + 1, 0)`. -/
def wire (json : Json J) (js : J) : Bytes := Framing.frame 0 (json.dump js)

/-- What the json library does with the requests of the client: objects of
integers and strings, of which no proper end is a JSON text. -/
structure Documented (json : Json J) (request : J → Prop) : Prop where
  msgid : ∀ js, request js → ∃ msgid, json.msgid js = some msgid
  read : ∀ js, request js → json.text (json.dump js) = some js
  noNul : ∀ js, request js → 0 ∉ json.dump js
  closed : ∀ js, request js → ∀ rest, rest <:+ json.dump js → rest ≠ json.dump js →
    json.text rest = none

/-! Between two deliveries the buffer is empty, so serve depends on the pieces alone. -/

def serveAll (json : Json J) : List Bytes → List (MsgHandler × J) × Bool
  | [] => ([], true)
  | delivery :: rest =>
      match (parse json delivery).bind (dispatch json) with
      | none => ([], false)
      | some called =>
          let later := serveAll json rest
          (called :: later.1, later.2)

theorem onMessage_append (json : Json J) (buffer : Buffer) (delivery : Bytes) (valid : Valid buffer)
    (empty : contents buffer = []) :
    (onMessage json (append buffer delivery)).1 = (parse json delivery).bind (dispatch json) ∧
      Valid (onMessage json (append buffer delivery)).2 ∧
      contents (onMessage json (append buffer delivery)).2 = [] := by
  have filled := append_valid buffer delivery valid
  have held : contents (append buffer delivery) = delivery := by
    rw [contents_append _ _ valid, empty]; rfl
  have length := readable_eq_length _ filled
  refine ⟨?_, retrieve_valid _ _ filled, ?_⟩
  · simp only [onMessage, retrieveAllAsString, retrieveAsString]
    rw [peek_contents _ _ filled (Nat.le_refl _), length, List.take_length, held]
  · simp only [onMessage, retrieveAllAsString, retrieveAsString]
    rw [contents_retrieve _ _ filled, length, List.drop_length]

theorem serve_eq_serveAll (json : Json J) (deliveries : List Bytes) (buffer : Buffer)
    (valid : Valid buffer)
    (empty : contents buffer = []) : serve json buffer deliveries = serveAll json deliveries := by
  induction deliveries generalizing buffer with
  | nil => rfl
  | cons delivery rest ih =>
      obtain ⟨answer, stillValid, stillEmpty⟩ := onMessage_append json buffer delivery valid empty
      simp only [serve, serveAll]
      rw [← answer]
      generalize onMessage json (append buffer delivery) = result at answer stillValid stillEmpty ⊢
      obtain ⟨called, emptied⟩ := result
      cases called with
      | none => rfl
      | some called => simp only [ih emptied stillValid stillEmpty]

/-- A server that is still running has called one handler for each delivery. -/
theorem serveAll_running (json : Json J) (deliveries : List Bytes)
    (running : (serveAll json deliveries).2 = true) :
    (serveAll json deliveries).1.length = deliveries.length ∧
      ∀ delivery ∈ deliveries, parse json delivery ≠ none := by
  induction deliveries with
  | nil => exact ⟨rfl, by simp⟩
  | cons delivery rest ih =>
      simp only [serveAll] at running ⊢
      cases called : (parse json delivery).bind (dispatch json) with
      | none => simp [called] at running
      | some handler =>
          simp only [called] at running ⊢
          obtain ⟨count, accepted⟩ := ih running
          refine ⟨by simp [count], ?_⟩
          intro other member
          rcases List.mem_cons.mp member with rfl | later
          · rintro refused
            simp [refused] at called
          · exact accepted other later

section Client
variable (json : Json J) (request : J → Prop) (documented : Documented json request)
include documented

theorem serveAll_wire (requests : List J) (sent : ∀ js ∈ requests, request js) :
    serveAll json (requests.map (wire json)) = (requests.filterMap (dispatch json), true) := by
  induction requests with
  | nil => rfl
  | cons js rest ih =>
      have valid := sent js (by simp)
      obtain ⟨msgid, known⟩ := documented.msgid js valid
      have parsed : parse json (wire json js) = some js := by
        rw [parse, wire, Framing.frame, Framing.firstBody_frame 0 _ [] (documented.noNul js valid),
          documented.read js valid]
      have called : dispatch json js = some (getHandler msgid, js) := by rw [dispatch, known]; rfl
      simp only [List.map_cons, serveAll, parsed, Option.bind_some, called, List.filterMap_cons,
        ih fun other member => sent other (by simp [member])]

theorem dispatched_length (requests : List J) (sent : ∀ js ∈ requests, request js) :
    (requests.filterMap (dispatch json)).length = requests.length := by
  have whole := serveAll_wire json request documented requests sent
  have count := (serveAll_running json (requests.map (wire json)) (by rw [whole])).1
  rw [whole, List.length_map] at count
  exact count

/-- Whatever the requests and however their bytes are cut into deliveries: the
handlers called are those of the requests, each once and in order, with no
exception, iff each delivery is exactly one request with its NUL. -/
theorem dispatched_iff_one_request_each (requests : List J) (sent : ∀ js ∈ requests, request js)
    (deliveries : List Bytes) (nonempty : ∀ delivery ∈ deliveries, delivery ≠ [])
    (arrived : deliveries.flatten = (requests.map (wire json)).flatten) :
    serve json (create kInitialSize) deliveries = (requests.filterMap (dispatch json), true) ↔
      deliveries = requests.map (wire json) := by
  rw [serve_eq_serveAll json deliveries _ (create_valid _) (contents_create _)]
  constructor
  · intro served
    obtain ⟨count, accepted⟩ := serveAll_running json deliveries (by rw [served])
    rw [served, dispatched_length json request documented requests sent] at count
    have frames : requests.map (wire json) = (requests.map json.dump).map (Framing.frame 0) := by
      simp [wire, Function.comp_def]
    rw [frames] at arrived ⊢
    refine (Framing.pieces_whole 0 deliveries (requests.map json.dump) ?_ nonempty arrived ?_).2
      (by simp [count])
    · intro body member
      obtain ⟨js, inside, rfl⟩ := List.mem_map.mp member
      exact documented.noNul js (sent js inside)
    · -- a delivery that reads a proper end of a request would have raised
      intro delivery member body found suffix
      obtain ⟨js, inside, rfl⟩ := List.mem_map.mp found
      by_contra proper
      exact accepted delivery member (documented.closed js (sent js inside) _ suffix proper)
  · rintro rfl
    exact serveAll_wire json request documented requests sent

end Client

/-! Two requests of one client: add friend 2 as user 1, then log out. -/

inductive Sample where
  | addFriend
  | loginout
  deriving DecidableEq

/-- The keys friendid, id and msgid with the values 2, 1 and 7, and the keys id
and msgid with the values 1 and 3. -/
def sampleDump : Sample → Bytes
  | .addFriend =>
      [123, 34, 102, 114, 105, 101, 110, 100, 105, 100, 34, 58, 50, 44, 34, 105, 100, 34, 58, 49,
        44,
      34, 109, 115, 103, 105, 100, 34, 58, 55, 125]
  | .loginout =>
      [123, 34, 105, 100, 34, 58, 49, 44, 34, 109, 115, 103, 105, 100, 34, 58, 51, 125]

def sampleJson : Json Sample where
  dump := sampleDump
  text buf :=
    if buf = sampleDump .addFriend then some .addFriend
    else if buf = sampleDump .loginout then some .loginout
    else none
  msgid
    | .addFriend => some ADD_FRIEND_MSG
    | .loginout => some LOGINOUT_MSG

theorem sample_closed (js : Sample) :
    ∀ rest ∈ (sampleDump js).tails, rest ≠ sampleDump js → sampleJson.text rest = none := by
  cases js <;> decide +kernel

theorem sample_documented : Documented sampleJson fun _ => True where
  msgid js _ := by cases js <;> exact ⟨_, rfl⟩
  read js _ := by cases js <;> decide +kernel
  noNul js _ := by cases js <;> decide +kernel
  closed js _ rest suffix proper := sample_closed js rest ((List.mem_tails _ _).mpr suffix) proper

theorem dispatched_iff_one_request_each_sample :
    serve sampleJson (create kInitialSize) [wire sampleJson .addFriend, wire sampleJson .loginout] =
      ([(.addFriend, .addFriend), (.loginout, .loginout)], true) :=
  (dispatched_iff_one_request_each sampleJson
    (fun _ => True) sample_documented [.addFriend, .loginout]
    (fun _ _ => trivial) [wire sampleJson .addFriend, wire sampleJson .loginout] (by decide +kernel)
    (by decide +kernel)).mpr rfl

/-- Both requests in one delivery: the second is never handled. A cut inside the
first one: the server ends. -/
theorem coalesced_requests_lost :
    (serve sampleJson (create kInitialSize)
      [wire sampleJson .addFriend ++ wire sampleJson .loginout] =
        ([(.addFriend, .addFriend)], true) ∧
      serve sampleJson (create kInitialSize)
          [(wire sampleJson .addFriend).take 9,
            (wire sampleJson .addFriend).drop 9 ++ wire sampleJson .loginout] =
        ([], false)) ∧
    ¬ ∀ deliveries : List Bytes, (∀ delivery ∈ deliveries, delivery ≠ []) →
      deliveries.flatten = ([.addFriend, .loginout].map (wire sampleJson)).flatten →
      serve sampleJson (create kInitialSize) deliveries =
        ([.addFriend, .loginout].filterMap (dispatch sampleJson), true) := by
  have first : serve sampleJson (create kInitialSize)
      [wire sampleJson .addFriend ++ wire sampleJson .loginout] =
      ([(.addFriend, .addFriend)], true) := by decide +kernel
  refine ⟨⟨first, by decide +kernel⟩, ?_⟩
  intro claimed
  have both := claimed [wire sampleJson .addFriend ++ wire sampleJson .loginout] (by decide +kernel)
    (by decide +kernel)
  rw [first] at both
  exact absurd both (by decide)

end MuduoChat.ServerFraming
