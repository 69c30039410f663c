import MuduoChat.CNumbers
import MuduoChat.SqlStatements

/-!
Redis::observer_channel_message of server/redis/redis.cpp, the thread that carries the messages
of the other servers. A reply is as hiredis builds it: a confirmation and a message are arrays
of three elements, an error has a text and no array. The guard looks at the pointers inside
the third element, but takes the array itself for granted.
-/

namespace MuduoChat.RedisObserver
open SqlStatements (cString decimal digits)
open SqlText (ascii)

abbrev Bytes := List UInt8

/-- `redisReply`, with null pointers as `none`. -/
structure Reply where
  integer : Int
  str : Option Bytes
  element : Option (List (Option Reply))

/-- `reply->element[index]`; `none` is the read through a null pointer or past the array. -/
def elementAt (reply : Reply) (index : Nat) : Option (Option Reply) :=
  reply.element.bind fun elements => elements[index]?

/-- The call of _notify_message_handler for one reply, if there is one. -/
def notification (reply : Option Reply) : Option (Option (Int × Bytes)) :=
  match reply with
  | none => some none
  | some reply => do
      let third ← elementAt reply 2
      match third.bind Reply.str with
      -- a confirmation: its third element is a count
      | none => return none
      | some message =>
          let second ← elementAt reply 1
          let channel ← second.bind Reply.str
          return some (CNumbers.atoi (cString channel), cString message)

/-- The calls for the replies that redisGetReply gives until it fails, and whether the thread
gets as far as that failure. -/
def observer_channel_message : List (Option Reply) → List (Int × Bytes) × Bool
  | [] => ([], true)
  | reply :: rest =>
      match notification reply with
      | none => ([], false)
      | some call =>
          let others := observer_channel_message rest
          (call.toList ++ others.1, others.2)

/-! What Redis says on the connection. -/

/-- The channel of SUBSCRIBE and UNSUBSCRIBE: an int, printed with %d. -/
structure Channel where
  id : Int
  isInt : CNumbers.IsInt id

inductive FromRedis where
  | subscribed (channel : Channel) (count : Int)
  | unsubscribed (channel : Channel) (count : Int)
  | message (channel : Channel) (payload : Bytes)
  | error (text : Bytes)

def stringReply (str : Bytes) : Reply := ⟨0, some str, none⟩

def arrayReply (first second : Bytes) (third : Reply) : Reply :=
  ⟨0, none, some [some (stringReply first), some (stringReply second), some third]⟩

def hiredis : FromRedis → Option Reply
  | .subscribed channel count =>
      some (arrayReply (ascii "subscribe") (decimal channel.id) ⟨count, none, none⟩)
  | .unsubscribed channel count =>
      some (arrayReply (ascii "unsubscribe") (decimal channel.id) ⟨count, none, none⟩)
  | .message channel payload => some (arrayReply (ascii "message") (decimal channel.id)
      (stringReply payload))
  | .error text => some ⟨0, some text, none⟩

def published : FromRedis → Option (Int × Bytes)
  | .message channel payload => some (channel.id, payload)
  | _ => none

/-- No error, and no payload that a C string cannot hold. -/
def Foreseen : FromRedis → Prop
  | .error _ => False
  | .message _ payload => 0 ∉ payload
  | _ => True

instance : DecidablePred Foreseen
  | .error _ => .isFalse id
  | .message _ payload => inferInstanceAs (Decidable (0 ∉ payload))
  | .subscribed _ _ | .unsubscribed _ _ => .isTrue trivial

/-! The channel's name is read back. -/

def numeral (id : Int) : CNumbers.Numeral where
  mark := if id < 0 then [45] else []
  digits := digits id.natAbs
  marks := by split <;> simp [CNumbers.signs]
  nonempty := (SqlText.number_digits.mp (SqlStatements.digits_number id.natAbs)).1
  all byte member := by
    obtain ⟨low, high⟩ := (SqlText.number_digits.mp
      (SqlStatements.digits_number id.natAbs)).2 byte member
    simp [CNumbers.digit, low, high]

theorem numeral_number (id : Int) : (numeral id).number = id := by
  have negative : ((numeral id).mark == [45]) = decide (id < 0) := by
    simp only [numeral]
    split <;> simp_all
  rw [CNumbers.Numeral.number, negative]
  exact SqlStatements.digits_value id

theorem decimal_no_nul (id : Int) : 0 ∉ decimal id := by
  intro member
  obtain sign | inside := List.mem_append.mp member
  · split at sign <;> simp at sign
  · have low := ((SqlText.number_digits.mp (SqlStatements.digits_number id.natAbs)).2 0 inside).1
    exact absurd low (by decide)

theorem atoi_decimal (channel : Channel) :
    CNumbers.atoi (cString (decimal channel.id)) = channel.id := by
  rw [(SqlStatements.cString_same _).mpr (decimal_no_nul channel.id)]
  have read := CNumbers.atoi_numeral (numeral channel.id)
    (by rw [numeral_number]; exact channel.isInt)
  rw [numeral_number] at read
  exact read

/-! One reply of each kind, and all of them. -/

theorem notification_message (channel : Channel) (payload : Bytes) :
    notification (hiredis (.message channel payload)) =
      some (some (channel.id, cString payload)) := by
  have read := atoi_decimal channel
  simp [notification, hiredis, arrayReply, elementAt, stringReply, read]

theorem notification_confirmation (channel : Channel) (count : Int) :
    notification (hiredis (.subscribed channel count)) = some none ∧
      notification (hiredis (.unsubscribed channel count)) = some none := ⟨rfl, rfl⟩

theorem notification_error (text : Bytes) : notification (hiredis (.error text)) = none := rfl

/-- For every sequence of replies. -/
theorem observer_reports_iff_foreseen (replies : List FromRedis) :
    observer_channel_message (replies.map hiredis) = (replies.filterMap published, true) ↔
      ∀ reply ∈ replies, Foreseen reply := by
  induction replies with
  | nil => simp [observer_channel_message]
  | cons reply rest ih =>
      rw [List.forall_mem_cons, ← ih, List.map_cons, observer_channel_message]
      cases reply with
      | subscribed channel count =>
          simp [(notification_confirmation channel count).1, List.filterMap_cons, published,
            Foreseen]
      | unsubscribed channel count =>
          simp [(notification_confirmation channel count).2, List.filterMap_cons, published,
            Foreseen]
      | message channel payload =>
          have whole := SqlStatements.cString_same payload
          simp only [notification_message, List.filterMap_cons, published, Option.toList_some,
            List.cons_append,
            List.nil_append, Prod.ext_iff, List.cons.injEq, true_and, Foreseen, whole, and_assoc]
      | error text => simp [notification_error, Foreseen]

/-- Redis refuses a command of the connection, and nothing is reported any more. -/
theorem observer_stops_at_error :
    ¬ ∀ replies : List FromRedis,
      observer_channel_message (replies.map hiredis) = (replies.filterMap published, true) := by
  intro always
  have ran := always [.error (ascii "ERR"), .message ⟨1, by decide⟩ [104, 105]]
  have stopped : observer_channel_message
      (([.error (ascii "ERR"), .message ⟨1, by decide⟩ [104, 105]] : List FromRedis).map hiredis) =
        ([], false) := rfl
  rw [stopped] at ran
  exact absurd (congrArg Prod.snd ran) (by decide)

end MuduoChat.RedisObserver
