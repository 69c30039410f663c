import MuduoChat.JsonValue
import MuduoChat.SqlStatements

/-!
detail::serializer of CHAT/thirdparty/json.hpp as `dump()` without arguments calls it: no
indentation, no escapes for what is not ASCII, and the strict error handler. The two buffers have
their sizes, and a write beyond one is an outcome of its own. The UTF-8 machine of the source is a
table of numbers; it is the machine of the library, and what a string becomes depends on its
single bytes.
-/

namespace MuduoChat.JsonSerializer
open JsonValue
open SqlStatements (digits decimal)
open SqlText (ascii)
open Utf8 (Range continuation WellFormed)

inductive Failure where
  | type_error (id : Nat) (what : Bytes)
  | outOfBounds
  deriving DecidableEq

/-! decode. -/

def UTF8_ACCEPT : UInt8 := 0
def UTF8_REJECT : UInt8 := 1

/-- The classes of the 256 bytes, and the rows of the states s0 to s8. -/
def utf8d : List UInt8 :=
  List.replicate 0x80 0 ++ List.replicate 16 1 ++ List.replicate 16 9 ++ List.replicate 32 7 ++
    [8, 8] ++ List.replicate 30 2 ++
    [0xA, 0x3, 0x3, 0x3, 0x3, 0x3, 0x3, 0x3, 0x3, 0x3, 0x3, 0x3, 0x3, 0x4, 0x3, 0x3] ++
    [0xB, 0x6, 0x6, 0x6, 0x5, 0x8, 0x8, 0x8, 0x8, 0x8, 0x8, 0x8, 0x8, 0x8, 0x8, 0x8] ++
    [0x0, 0x1, 0x2, 0x3, 0x5, 0x8, 0x7, 0x1, 0x1, 0x1, 0x4, 0x6, 0x1, 0x1, 0x1, 0x1] ++
    [1, 1, 1, 1, 1, 1, 1, 1, 1, 1, 1, 1, 1, 1, 1, 1, 1, 0, 1, 1, 1, 1, 1, 0, 1, 0, 1, 1, 1, 1, 1,
      1] ++
    [1, 2, 1, 1, 1, 1, 1, 2, 1, 2, 1, 1, 1, 1, 1, 1, 1, 1, 1, 1, 1, 1, 1, 2, 1, 1, 1, 1, 1, 1, 1,
      1] ++
    [1, 2, 1, 1, 1, 1, 1, 1, 1, 2, 1, 1, 1, 1, 1, 1, 1, 1, 1, 1, 1, 1, 1, 3, 1, 3, 1, 1, 1, 1, 1,
      1] ++
    [1, 3, 1, 1, 1, 1, 1, 3, 1, 3, 1, 1, 1, 1, 1, 1, 1, 3, 1, 1, 1, 1, 1, 1, 1, 1, 1, 1, 1, 1, 1, 1]

/-- The next state, and the code point so far. -/
def decode (state : UInt8) (codep : UInt32) (byte : UInt8) : UInt8 × UInt32 :=
  let type := utf8d.getD byte.toNat 0
  (utf8d.getD (256 + state.toNat * 16 + type.toNat) 0,
    if state ≠ UTF8_ACCEPT then (byte.toUInt32 &&& (0x3F : UInt32)) ||| (codep <<< (6 : UInt32))
    else ((0xFF : UInt32) >>> type.toUInt32) &&& byte.toUInt32)

/-! dump_escaped. -/

def hexDigit (value : Nat) : UInt8 :=
  UInt8.ofNat (if value < 10 then 0x30 + value else 0x57 + value)

def upperHexDigit (value : Nat) : UInt8 :=
  UInt8.ofNat (if value < 10 then 0x30 + value else 0x37 + value)

/-- "\u%04x" -/
def unicodeEscape (codepoint : Nat) : Bytes :=
  [92, 117, hexDigit (codepoint / 0x1000 % 16), hexDigit (codepoint / 0x100 % 16),
    hexDigit (codepoint / 0x10 % 16),
    hexDigit (codepoint % 16)]

/-- "%.2X", printed into a string of three bytes with the NUL. -/
def shownByte (byte : UInt8) : Bytes :=
    [upperHexDigit (byte.toNat / 16), upperHexDigit (byte.toNat % 16), 0]

def kStringBuffer : Nat := 512

/-- What has been written to o, the first bytes of string_buffer, and the state of decode. -/
structure Escaping where
  written : Bytes
  string_buffer : Bytes
  state : UInt8
  codepoint : UInt32

/-- Bytes behind those of the buffer; snprintf also touches the one for its NUL. -/
def put (added : Bytes) (touched : Nat) (escaping : Escaping) : Except Failure Escaping :=
  if escaping.string_buffer.length + touched ≤ kStringBuffer then
    .ok { escaping with string_buffer := escaping.string_buffer ++ added }
  else .error .outOfBounds

def putAccepted (byte : UInt8) (escaping : Escaping) : Except Failure Escaping :=
  let codepoint := escaping.codepoint
  if codepoint = 0x08 then put (ascii "\\b") 2 escaping
  else if codepoint = 0x09 then put (ascii "\\t") 2 escaping
  else if codepoint = 0x0A then put (ascii "\\n") 2 escaping
  else if codepoint = 0x0C then put (ascii "\\f") 2 escaping
  else if codepoint = 0x0D then put (ascii "\\r") 2 escaping
  else if codepoint = 0x22 then put (ascii "\\\"") 2 escaping
  else if codepoint = 0x5C then put (ascii "\\\\") 2 escaping
  else if codepoint ≤ 0x1F then put (unicodeEscape codepoint.toNat) 7 escaping
  else put [byte] 1 escaping

-- 13 bytes are left for the next code point
def flush (escaping : Escaping) : Escaping :=
  if kStringBuffer - escaping.string_buffer.length < 13 then
    { escaping with written := escaping.written ++ escaping.string_buffer, string_buffer := [] }
  else escaping

def type_error (id : Nat) (what : Bytes) : Failure :=
  .type_error id (ascii "[json.exception.type_error." ++ digits id ++ ascii "] " ++ what)

/-- One pass of the loop. -/
def escapeByte (i : Nat) (byte : UInt8) (escaping : Escaping) : Except Failure Escaping :=
  let (state, codepoint) := decode escaping.state escaping.codepoint byte
  let decoded := { escaping with state := state, codepoint := codepoint }
  if state = UTF8_ACCEPT then (putAccepted byte decoded).map flush
  else if state = UTF8_REJECT then
    .error (type_error 316
      (ascii "invalid UTF-8 byte at index " ++ digits i ++ ascii ": 0x" ++ shownByte byte))
  else put [byte] 1 decoded

def escapeBytes (i : Nat) : Bytes → Escaping → Except Failure Escaping
  | [], escaping => .ok escaping
  | byte :: rest, escaping => escapeByte i byte escaping >>= escapeBytes (i + 1) rest

def dump_escaped (s : Bytes) : Except Failure Bytes := do
  let escaping ← escapeBytes 0 s ⟨[], [], UTF8_ACCEPT, 0⟩
  if escaping.state = UTF8_ACCEPT then .ok (escaping.written ++ escaping.string_buffer)
  else .error (type_error 316 (ascii "incomplete UTF-8 string; last byte: 0x" ++ shownByte
    (s.getLastD 0)))

/-! dump_integer. -/

def count_digits (x : Nat) (n_digits : Nat) : Nat :=
  if x < 10 then n_digits
  else if x < 100 then n_digits + 1
  else if x < 1000 then n_digits + 2
  else if x < 10000 then n_digits + 3
  else count_digits (x / 10000) (n_digits + 4)
termination_by x

def digits_to_99 : List (UInt8 × UInt8) :=
  (List.range 100).map fun n => (UInt8.ofNat (48 + n / 10), UInt8.ofNat (48 + n % 10))

structure NumberBuffer where
  cells : Bytes
  buffer_ptr : Nat

/-- `*(--buffer_ptr) = c` -/
def NumberBuffer.store (c : UInt8) (buffer : NumberBuffer) : Except Failure NumberBuffer :=
  match buffer.buffer_ptr with
  | 0 => .error .outOfBounds
  | below + 1 =>
      if below < buffer.cells.length then .ok
        { cells := buffer.cells.set below c, buffer_ptr := below }
      else .error .outOfBounds

def NumberBuffer.storePair (digits_index : Nat)
    (buffer : NumberBuffer) : Except Failure NumberBuffer := do
  let pair := digits_to_99.getD digits_index (0, 0)
  let buffer ← buffer.store pair.2
  buffer.store pair.1

def NumberBuffer.fill (abs_value : Nat) (buffer : NumberBuffer) : Except Failure NumberBuffer :=
  if 100 ≤ abs_value then buffer.storePair (abs_value % 100) >>= NumberBuffer.fill (abs_value / 100)
  else if 10 ≤ abs_value then buffer.storePair abs_value
  else buffer.store (UInt8.ofNat (48 + abs_value))
termination_by abs_value

def kNumberBuffer : Nat := 64

/-- From the sign and the absolute value of x on; the cells hold what the last number left there. -/
def dump_abs (cells : Bytes) (is_negative : Bool) (abs_value : UInt64) : Except Failure Bytes :=
  let cells := if is_negative then cells.set 0 45 else cells
  let n_chars := count_digits abs_value.toNat 1 + (if is_negative then 1 else 0)
  -- assert(n_chars < number_buffer.size() - 1)
  if n_chars < kNumberBuffer - 1 then do
    let filled ← NumberBuffer.fill abs_value.toNat ⟨cells, n_chars⟩
    .ok (filled.cells.take n_chars)
  else .error .outOfBounds

def dump_unsigned (cells : Bytes) (x : UInt64) : Except Failure Bytes :=
  if x = 0 then .ok (ascii "0") else dump_abs cells false x

/-- std::abs of the least number is that number again, and its cast is 2 to the 63. -/
def dump_integer (cells : Bytes) (x : Int64) : Except Failure Bytes :=
  if x = 0 then .ok (ascii "0") else dump_abs cells (x < 0) (if x < 0 then -x else x).toUInt64

/-! dump. -/

section Dump
variable {F : Type} (floats : Floats F)

def dump_float (x : F) : Bytes := if floats.isfinite x then floats.to_chars x else ascii "null"

def quoted (s : Bytes) : Except Failure Bytes := do
  let escaped ← dump_escaped s
  .ok (34 :: escaped ++ [34])

/-- What number_buffer holds before a number does not show in its text, so it is the one of
a new serializer here. -/
def freshCells : Bytes := List.replicate kNumberBuffer 0

mutual

def dump : Value F → Except Failure Bytes
  | .object members =>
      if members.isEmpty then .ok (ascii "\x7b\x7d")
      else do
        let members ← dumpMembers members
        .ok (123 :: members ++ [125])
  | .array values =>
      if values.isEmpty then .ok (ascii "[]")
      else do
        let values ← dumpValues values
        .ok (91 :: values ++ [93])
  | .string value => quoted value
  | .boolean value => .ok (ascii (if value then "true" else "false"))
  | .number_integer value => dump_integer freshCells value
  | .number_unsigned value => dump_unsigned freshCells value
  | .number_float value => .ok (dump_float floats value)
  | .null => .ok (ascii "null")

/-- The loop over the members, with a comma behind all but the last. -/
def dumpMembers : List (Bytes × Value F) → Except Failure Bytes
  | [] => .ok []
  | [(key, value)] => do
      let key ← quoted key
      let value ← dump value
      .ok (key ++ 58 :: value)
  | (key, value) :: next :: rest => do
      let key ← quoted key
      let value ← dump value
      let others ← dumpMembers (next :: rest)
      .ok (key ++ 58 :: value ++ 44 :: others)

def dumpValues : List (Value F) → Except Failure Bytes
  | [] => .ok []
  | [value] => dump value
  | value :: next :: rest => do
      let value ← dump value
      let others ← dumpValues (next :: rest)
      .ok (value ++ 44 :: others)

end

end Dump

/-! decode is the machine of the library. -/

/-- The states of decode inside a code point: what they owe, and the bounds of the code point so
far. -/
def stages : List (UInt8 × List Range × Nat × Nat) :=
  [(2, [continuation], 2, 32768), (3, [continuation, continuation], 1, 512),
    (4, [(0xA0, 0xBF), continuation], 0, 512),
    (5, [(0x80, 0x9F), continuation], 1, 512), (6, [(0x90, 0xBF), continuation, continuation], 0,
      8),
    (7, [continuation, continuation, continuation], 1, 8),
    (8, [(0x80, 0x8F), continuation, continuation], 1, 8)]

def Agrees (state : UInt8) (codep : UInt32) (owed : List Range) : Prop :=
  owed = [] ∧ state = UTF8_ACCEPT ∨
    ∃ stage ∈ stages, state = stage.1 ∧ owed = stage.2.1 ∧ stage.2.2.1 ≤ codep.toNat ∧
      codep.toNat < stage.2.2.2

/-- Before the first byte of a code point. -/
theorem decode_first : ∀ n < 256,
    (Utf8.step [] (UInt8.ofNat n) = none → (decode UTF8_ACCEPT 0 (UInt8.ofNat n)).1 = UTF8_REJECT) ∧
    ∀ next ∈ Utf8.step [] (UInt8.ofNat n),
      if next = [] then (decode UTF8_ACCEPT 0 (UInt8.ofNat n)).1 = UTF8_ACCEPT ∧
        (decode UTF8_ACCEPT 0 (UInt8.ofNat n)).2.toNat = n ∧ n < 128
      else 128 ≤ n ∧ ∃ stage ∈ stages, (decode UTF8_ACCEPT 0 (UInt8.ofNat n)).1 = stage.1 ∧
        next = stage.2.1 ∧ stage.2.2.1 ≤ (decode UTF8_ACCEPT 0 (UInt8.ofNat n)).2.toNat ∧
        (decode UTF8_ACCEPT 0 (UInt8.ofNat n)).2.toNat < stage.2.2.2 := by
  decide +kernel

/-- Inside one: the bounds are those that follow from the bounds of the stage. -/
theorem decode_next : ∀ stage ∈ stages, ∀ n < 256,
    (Utf8.step stage.2.1 (UInt8.ofNat n) = none →
      (decode stage.1 0 (UInt8.ofNat n)).1 = UTF8_REJECT) ∧
    ∀ next ∈ Utf8.step stage.2.1 (UInt8.ofNat n), 128 ≤ n ∧
      if next = [] then (decode stage.1 0 (UInt8.ofNat n)).1 = UTF8_ACCEPT ∧ 2 ≤ stage.2.2.1
      else ∃ after ∈ stages, (decode stage.1 0 (UInt8.ofNat n)).1 = after.1 ∧ next = after.2.1 ∧
        after.2.2.1 ≤ stage.2.2.1 * 64 + n % 64 ∧ stage.2.2.2 * 64 ≤ after.2.2.2 := by
  decide +kernel

theorem stage_owes : ∀ stage ∈ stages, stage.2.1 ≠ [] := by
  decide

theorem stage_inside : ∀ stage ∈ stages, stage.1 ≠ UTF8_ACCEPT ∧ stage.1 ≠ UTF8_REJECT := by
  decide

theorem stage_bounds : ∀ stage ∈ stages, stage.1 ≠ UTF8_ACCEPT ∧ stage.2.2.2 ≤ 32768 := by
  decide

theorem codep_value (codep : UInt32) (byte : UInt8) (small : codep.toNat < 32768) :
    ((byte.toUInt32 &&& (0x3F : UInt32)) ||| (codep <<< (6 : UInt32))).toNat = codep.toNat * 64 +
    byte.toNat % 64 := by
  rw [UInt32.toNat_or, UInt32.toNat_and, UInt32.toNat_shiftLeft, UInt8.toNat_toUInt32]
  have mask : byte.toNat &&& 63 = byte.toNat % 64 := Nat.and_two_pow_sub_one_eq_mod byte.toNat 6
  have shift : codep.toNat <<< 6 = codep.toNat * 64 := Nat.shiftLeft_eq _ _
  simp only [UInt32.reduceToNat, Nat.reduceMod, Nat.reducePow, mask]
  rw [Nat.mod_eq_of_lt (a := codep.toNat <<< 6) (by omega),
    Nat.or_comm, ← Nat.shiftLeft_add_eq_or_of_lt
    (by omega), shift]

theorem decode_agrees (state : UInt8) (codep : UInt32) (byte : UInt8) (owed : List Range)
    (agrees : Agrees state codep owed) :
    (Utf8.step owed byte = none → (decode state codep byte).1 = UTF8_REJECT) ∧
    ∀ next, Utf8.step owed byte = some next → Agrees (decode state codep byte).1
      (decode state codep byte).2 next ∧
      if next = [] then (decode state codep byte).2.toNat = byte.toNat ∧ byte.toNat < 128 ∨
        128 ≤ (decode state codep byte).2.toNat ∧ 128 ≤ byte.toNat
      else 128 ≤ byte.toNat := by
  rcases agrees with ⟨rfl, rfl⟩ | ⟨stage, member, rfl, rfl, low, high⟩
  · obtain ⟨rejects, goes⟩ := decode_first byte.toNat byte.toNat_lt
    rw [UInt8.ofNat_toNat] at rejects goes
    refine ⟨rejects, fun next stepped => ?_⟩
    have there := goes next stepped
    by_cases ended : next = []
    · rw [if_pos ended] at there ⊢
      exact ⟨.inl ⟨ended, there.1⟩, .inl there.2⟩
    · rw [if_neg ended] at there ⊢
      exact ⟨.inr there.2, there.1⟩
  · obtain ⟨rejects, goes⟩ := decode_next stage member byte.toNat byte.toNat_lt
    rw [UInt8.ofNat_toNat] at rejects goes
    refine ⟨rejects, fun next stepped => ?_⟩
    obtain ⟨large, there⟩ := goes next stepped
    obtain ⟨inside, small⟩ := stage_bounds stage member
    -- the six bits of the byte go below the code point so far
    have value : (decode stage.1 codep byte).2.toNat = codep.toNat * 64 + byte.toNat % 64 := by
      simp only [decode, if_pos inside]
      exact codep_value codep byte (by omega)
    rw [value]
    by_cases ended : next = []
    · rw [if_pos ended] at there ⊢
      exact ⟨.inl ⟨ended, there.1⟩, .inr ⟨by omega, large⟩⟩
    · rw [if_neg ended] at there ⊢
      obtain ⟨after, reached, same, rest, lower, upper⟩ := there
      exact ⟨.inr ⟨after, reached, same, rest, by omega, by omega⟩, large⟩

/-! What a string becomes. -/

def escaped (byte : UInt8) : Bytes :=
  if byte = 0x08 then ascii "\\b"
  else if byte = 0x09 then ascii "\\t"
  else if byte = 0x0A then ascii "\\n"
  else if byte = 0x0C then ascii "\\f"
  else if byte = 0x0D then ascii "\\r"
  else if byte = 0x22 then ascii "\\\""
  else if byte = 0x5C then ascii "\\\\"
  else if byte ≤ 0x1F then unicodeEscape byte.toNat
  else [byte]

theorem escaped_large (byte : UInt8) (large : 128 ≤ byte.toNat) : escaped byte = [byte] := by
  simp only [escaped, ← UInt8.toNat_inj, UInt8.le_iff_toNat_le, UInt8.reduceToNat]
  repeat rw [if_neg (by omega)]

/-- The code point that decode has found is the byte, or both are past ASCII. -/
theorem putAccepted_escaped (byte : UInt8) (escaping : Escaping)
    (found : escaping.codepoint.toNat = byte.toNat ∧ byte.toNat < 128 ∨
      128 ≤ escaping.codepoint.toNat ∧ 128 ≤ byte.toNat) :
    ∃ touched ≤ 7, putAccepted byte escaping = put (escaped byte) touched escaping := by
  rcases found with ⟨same, small⟩ | ⟨large, high⟩
  · simp only [putAccepted, escaped, ← UInt32.toNat_inj, ← UInt8.toNat_inj, UInt32.le_iff_toNat_le,
      UInt8.le_iff_toNat_le, UInt32.reduceToNat, UInt8.reduceToNat, same]
    repeat' split
    all_goals first | exact ⟨2, by decide, rfl⟩ | exact ⟨7, by decide, rfl⟩ | exact ⟨1, by decide,
      rfl⟩
  · refine ⟨1, by decide, ?_⟩
    rw [escaped_large byte high]
    simp only [putAccepted, ← UInt32.toNat_inj, UInt32.le_iff_toNat_le, UInt32.reduceToNat]
    repeat rw [if_neg (by omega)]

/-- The room in string_buffer: 13 bytes before a code point, less by one with each byte of it. -/
def Room (escaping : Escaping) (owed : List Range) : Prop :=
  escaping.string_buffer.length + owed.length ≤ if owed = [] then 499 else 503

def Escaping.text (escaping : Escaping) : Bytes := escaping.written ++ escaping.string_buffer

theorem flush_text (escaping : Escaping) : (flush escaping).text = escaping.text := by
  unfold flush Escaping.text
  split <;> simp

theorem flush_state (escaping : Escaping) :
    (flush escaping).state = escaping.state ∧ (flush escaping).codepoint = escaping.codepoint := by
  unfold flush
  split <;> exact ⟨rfl, rfl⟩

theorem flush_room (escaping : Escaping) : Room (flush escaping) [] := by
  unfold flush Room kStringBuffer
  split
  · simp
  · simp; omega

theorem escapeByte_step (i : Nat) (byte : UInt8) (escaping : Escaping) (owed : List Range)
    (agrees : Agrees escaping.state escaping.codepoint owed) (room : Room escaping owed) :
    match Utf8.step owed byte with
    | none => escapeByte i byte escaping =
        .error (type_error 316
          (ascii "invalid UTF-8 byte at index " ++ digits i ++ ascii ": 0x" ++ shownByte byte))
    | some next => ∃ after, escapeByte i byte escaping = .ok after ∧
        Agrees after.state after.codepoint next ∧
        Room after next ∧ after.text = escaping.text ++ escaped byte := by
  obtain ⟨rejects, goes⟩ := decode_agrees _ _ byte owed agrees
  cases stepped : Utf8.step owed byte with
  | none =>
      simp only [escapeByte, rejects stepped]
      rfl
  | some next =>
      obtain ⟨agreed, there⟩ := goes next stepped
      obtain ⟨first, later⟩ := Utf8.step_owed owed next byte stepped
      simp only [escapeByte]
      generalize decode escaping.state escaping.codepoint byte = decoded at agreed there ⊢
      obtain ⟨state, codepoint⟩ := decoded
      -- a code point that is complete is put, flushed and forgotten; else its byte only takes room
      by_cases ended : next = []
      · subst ended
        obtain ⟨_, rfl⟩ : ([] : List Range) = [] ∧ state = UTF8_ACCEPT := by
          rcases agreed with accepted | ⟨stage, member, _, empty, _⟩
          · exact accepted
          · exact absurd empty.symm (stage_owes stage member)
        obtain ⟨touched, few, putting⟩ :=
          putAccepted_escaped byte ⟨escaping.written, escaping.string_buffer, UTF8_ACCEPT,
            codepoint⟩ there
        have fits : escaping.string_buffer.length + touched ≤ kStringBuffer := by
          simp only [Room, kStringBuffer] at room ⊢
          split at room <;> omega
        refine ⟨flush ⟨escaping.written, escaping.string_buffer ++ escaped byte, UTF8_ACCEPT,
          codepoint⟩, ?_,
          ?_, flush_room _, ?_⟩
        · rw [if_pos rfl, putting, put, if_pos fits]
          rfl
        · rw [(flush_state _).1]
          exact .inl ⟨rfl, rfl⟩
        · rw [flush_text]
          exact (List.append_assoc _ _ _).symm
      · rw [if_neg ended] at there
        obtain ⟨notAccepted, notRejected⟩ : state ≠ UTF8_ACCEPT ∧ state ≠ UTF8_REJECT := by
          rcases agreed with ⟨empty, _⟩ | ⟨stage, member, rfl, _⟩
          · exact absurd empty ended
          · exact stage_inside stage member
        have fits : escaping.string_buffer.length + 1 ≤ kStringBuffer := by
          simp only [Room, kStringBuffer] at room ⊢
          split at room <;> omega
        refine ⟨⟨escaping.written, escaping.string_buffer ++ [byte], state, codepoint⟩, ?_, agreed,
          ?_, ?_⟩
        · rw [if_neg notAccepted, if_neg notRejected, put, if_pos fits]
        · simp only [Room, if_neg ended, List.length_append, List.length_singleton] at room ⊢
          by_cases start : owed = []
          · have := first start
            rw [if_pos start] at room
            omega
          · have := later start
            rw [if_neg start] at room
            omega
        · rw [escaped_large byte there]
          exact (List.append_assoc _ _ _).symm

/-- From any state of decode: the text goes through unless the machine stops at some byte, and that
byte is named. -/
theorem escapeBytes_run (i : Nat) (s : Bytes) (escaping : Escaping) (owed : List Range)
    (agrees : Agrees escaping.state escaping.codepoint owed) (room : Room escaping owed) :
    match Utf8.run owed s with
    | none => ∃ front byte rest, s = front ++ byte :: rest ∧
        ((Utf8.run owed front).bind fun reached => Utf8.step reached byte) = none ∧
          Utf8.run owed front ≠ none ∧
        escapeBytes i s escaping = .error (type_error 316 (ascii "invalid UTF-8 byte at index " ++
          digits (i + front.length) ++ ascii ": 0x" ++ shownByte byte))
    | some next => ∃ after, escapeBytes i s escaping = .ok after ∧
        Agrees after.state after.codepoint next ∧
        after.text = escaping.text ++ s.flatMap escaped := by
  -- on the string, from any state of decode that the machine agrees with
  induction s generalizing i escaping owed with
  | nil => exact ⟨escaping, rfl, agrees, by simp⟩
  | cons byte rest ih =>
      have stepped := escapeByte_step i byte escaping owed agrees room
      simp only [Utf8.run, escapeBytes]
      cases step : Utf8.step owed byte with
      | none =>
          rw [step] at stepped
          refine ⟨[], byte, rest, rfl, ?_, by simp [Utf8.run], ?_⟩
          · simpa [Utf8.run] using step
          · rw [stepped]
            rfl
      | some next =>
          rw [step] at stepped
          obtain ⟨after, went, agreed, roomy, text⟩ := stepped
          have later := ih (i + 1) after next agreed roomy
          rw [went, Option.bind_some]
          cases ran : Utf8.run next rest with
          | none =>
              rw [ran] at later
              obtain ⟨front, bad, others, rfl, stops, ran, failed⟩ := later
              refine ⟨byte :: front, bad, others, rfl, ?_, ?_, ?_⟩
              · simpa [Utf8.run, step] using stops
              · simpa [Utf8.run, step] using ran
              · rw [List.length_cons, Nat.add_comm front.length, ← Nat.add_assoc]
                exact failed
          | some last =>
              rw [ran] at later
              obtain ⟨final, rest_ran, agrees_final, text_final⟩ := later
              refine ⟨final, rest_ran, agrees_final, ?_⟩
              rw [text_final, text, List.flatMap_cons, List.append_assoc]

/-- The chunks of string_buffer put together are the escapes of the bytes, and no write goes past
the buffer. It is an error exactly if the string is not UTF-8. -/
theorem dump_escaped_text (s : Bytes) (formed : WellFormed s) :
    dump_escaped s = .ok (s.flatMap escaped) := by
  have ran := escapeBytes_run 0 s ⟨[], [], UTF8_ACCEPT, 0⟩ [] (.inl ⟨rfl, rfl⟩) (by simp [Room])
  rw [(Utf8.run_wellFormed s).mpr formed] at ran
  obtain ⟨after, went, agrees, text⟩ := ran
  have accepted : after.state = UTF8_ACCEPT := by
    rcases agrees with ⟨_, accepted⟩ | ⟨stage, member, _, empty, _⟩
    · exact accepted
    · exact absurd empty.symm (stage_owes stage member)
  simp only [dump_escaped, went]
  change (if after.state = UTF8_ACCEPT then Except.ok after.text else _) = _
  rw [if_pos accepted, text]
  rfl

/-- The message names the first byte at which the string stops being the beginning of a UTF-8 text,
or the last byte of one that ends within a code point. -/
theorem dump_escaped_throws (s : Bytes) (broken : ¬ WellFormed s) :
    (∃ front byte rest, s = front ++ byte :: rest ∧
      ((Utf8.run [] front).bind fun reached => Utf8.step reached byte) = none ∧
        Utf8.run [] front ≠ none ∧
      dump_escaped s = .error (type_error 316
        (ascii "invalid UTF-8 byte at index " ++ digits front.length ++
        ascii ": 0x" ++ shownByte byte))) ∨
    (∃ range rest, Utf8.run [] s = some (range :: rest)) ∧
      dump_escaped s = .error (type_error 316
        (ascii "incomplete UTF-8 string; last byte: 0x" ++ shownByte (s.getLastD 0))) := by
  have ran := escapeBytes_run 0 s ⟨[], [], UTF8_ACCEPT, 0⟩ [] (.inl ⟨rfl, rfl⟩) (by simp [Room])
  cases reached : Utf8.run [] s with
  | none =>
      rw [reached] at ran
      obtain ⟨front, byte, rest, split, stops, began, failed⟩ := ran
      rw [Nat.zero_add] at failed
      refine .inl ⟨front, byte, rest, split, stops, began, ?_⟩
      rw [dump_escaped, failed]
      rfl
  | some owed =>
      rw [reached] at ran
      obtain ⟨after, went, agrees, _⟩ := ran
      cases owed with
      | nil => exact absurd ((Utf8.run_wellFormed s).mp reached) broken
      | cons range rest =>
          refine .inr ⟨⟨range, rest, rfl⟩, ?_⟩
          have refused : after.state ≠ UTF8_ACCEPT := by
            rcases agrees with ⟨empty, _⟩ | ⟨stage, member, inside, _⟩
            · cases empty
            · rw [inside]
              exact (stage_inside stage member).1
          simp only [dump_escaped, went]
          change (if after.state = UTF8_ACCEPT then _ else _) = _
          rw [if_neg refused]

/-- Every string is written, or the exception tells where it stops being UTF-8: at the first byte
behind which no more bytes make it so, or at its end. -/
theorem dump_escaped_outcome (s : Bytes) :
    WellFormed s ∧ dump_escaped s = .ok (s.flatMap escaped) ∨
    (∃ front byte rest, s = front ++ byte :: rest ∧ Utf8.Beginning front ∧
      ¬ Utf8.Beginning (front ++ [byte]) ∧
      dump_escaped s = .error (type_error 316
        (ascii "invalid UTF-8 byte at index " ++ digits front.length ++
        ascii ": 0x" ++ shownByte byte))) ∨
    Utf8.Beginning s ∧ ¬ WellFormed s ∧
      dump_escaped s = .error (type_error 316
        (ascii "incomplete UTF-8 string; last byte: 0x" ++ shownByte (s.getLastD 0))) := by
  by_cases formed : WellFormed s
  · exact .inl ⟨formed, dump_escaped_text s formed⟩
  rcases dump_escaped_throws s formed with ⟨front, byte, rest, split, stops, began, failed⟩ |
      ⟨⟨range, rest, ran⟩, failed⟩
  · refine .inr (.inl ⟨front, byte, rest, split, (Utf8.beginning_iff front).mpr began, ?_, failed⟩)
    rw [Utf8.beginning_iff, not_not, Utf8.run_append]
    cases reached : Utf8.run [] front with
    | none => rfl
    | some owed =>
        rw [reached] at stops
        simpa [Utf8.run] using stops
  · exact .inr (.inr ⟨(Utf8.beginning_iff s).mpr (by rw [ran]; simp), formed, failed⟩)

/-! The text of a number. -/

theorem digitByte (d : Nat) (small : d < 10) :
    UInt8.ofNat (Nat.digitChar d).toNat = UInt8.ofNat (48 + d) := by
  revert d
  decide

theorem digits_small (n : Nat) (small : n < 10) : digits n = [UInt8.ofNat (48 + n)] := by
  simp [digits, Nat.toDigits_of_lt_base small, digitByte n small]

theorem digits_large (n : Nat) (large : 10 ≤ n) :
    digits n = digits (n / 10) ++ [UInt8.ofNat (48 + n % 10)] := by
  rw [digits, Nat.toDigits_of_base_le (by decide) large, List.map_append, List.map_singleton,
    digitByte _ (Nat.mod_lt _ (by decide))]
  rfl

theorem digits_pair (n : Nat) (large : 100 ≤ n) :
    digits n = digits (n / 100) ++
      [UInt8.ofNat (48 + n % 100 / 10), UInt8.ofNat (48 + n % 100 % 10)] := by
  rw [digits_large n (by omega), digits_large (n / 10) (by omega), Nat.div_div_eq_div_mul,
    List.append_assoc]
  have tens : n / 10 % 10 = n % 100 / 10 := by omega
  have ones : n % 10 = n % 100 % 10 := by omega
  rw [tens, ones]
  rfl

theorem digits_two (n : Nat) (large : 10 ≤ n) (small : n < 100) :
    digits n = [UInt8.ofNat (48 + n / 10), UInt8.ofNat (48 + n % 10)] := by
  rw [digits_large n large, digits_small (n / 10) (by omega)]
  rfl

theorem digits_length (n : Nat) (large : 10 ≤ n) :
    (digits n).length = (digits (n / 10)).length + 1 := by
  rw [digits_large n large, List.length_append, List.length_singleton]

theorem count_digits_length (x n : Nat) : count_digits x (n + 1) = n + (digits x).length := by
  induction x using Nat.strongRecOn generalizing n with
  | ind x ih =>
    have single (y : Nat) (small : y < 10) :
        (digits y).length = 1 := by rw [digits_small y small]; rfl
    rw [count_digits]
    split
    · rw [single x (by assumption)]
    · split
      · rw [digits_length x (by omega), single _ (by omega)]
      · split
        · rw [digits_length x (by omega), digits_length (x / 10) (by omega), single _ (by omega)]
        · split
          · rw [digits_length x (by omega), digits_length (x / 10) (by omega),
              digits_length (x / 10 / 10) (by omega),
              single _ (by omega)]
          · rw [Nat.add_right_comm, ih (x / 10000) (by omega), digits_length x
              (by omega), digits_length (x / 10) (by omega),
              digits_length (x / 10 / 10) (by omega), digits_length (x / 10 / 10 / 10) (by omega)]
            simp only [Nat.div_div_eq_div_mul, Nat.reduceMul]
            omega

/-- Behind the pointer stand the bytes stored last, and before it nothing has changed. -/
structure Filled (before after : NumberBuffer) (stored : Bytes) : Prop where
  pointer : after.buffer_ptr + stored.length = before.buffer_ptr
  cells : after.cells = before.cells.take after.buffer_ptr ++ stored ++
    before.cells.drop before.buffer_ptr

theorem store_filled (c : UInt8) (buffer : NumberBuffer) (room : 1 ≤ buffer.buffer_ptr)
    (inside : buffer.buffer_ptr ≤ buffer.cells.length) :
    ∃ after, buffer.store c = .ok after ∧ Filled buffer after [c] := by
  obtain ⟨cells, ptr⟩ := buffer
  obtain ⟨below, rfl⟩ := Nat.exists_eq_add_of_le' room
  refine ⟨⟨cells.set below c, below⟩, if_pos inside, rfl, ?_⟩
  simp only [List.set_eq_take_append_cons_drop, if_pos (show below < cells.length from inside),
    List.append_assoc,
    List.singleton_append]

theorem filled_trans (first second third : NumberBuffer) (tail head : Bytes)
    (inside : first.buffer_ptr ≤ first.cells.length)
    (one : Filled first second tail) (two : Filled second third head) :
    Filled first third (head ++ tail) := by
  obtain ⟨pointer, cells⟩ := one
  refine ⟨?_, ?_⟩
  · have := two.pointer
    rw [List.length_append]
    omega
  · have below : third.buffer_ptr ≤ second.buffer_ptr := by have := two.pointer; omega
    have front : (first.cells.take second.buffer_ptr).length = second.buffer_ptr := by
      rw [List.length_take]
      omega
    rw [two.cells, cells, List.append_assoc (first.cells.take _),
      List.take_append_of_le_length (by omega),
      List.drop_append_of_le_length (by omega), List.take_take, Nat.min_eq_left below,
        List.drop_eq_nil_of_le
        (by omega)]
    simp

theorem filled_length (before after : NumberBuffer) (stored : Bytes)
    (inside : before.buffer_ptr ≤ before.cells.length)
    (filled : Filled before after stored) : after.cells.length = before.cells.length := by
  have := filled.pointer
  rw [filled.cells]
  simp only [List.length_append, List.length_take, List.length_drop]
  omega

theorem digits_to_99_pair : ∀ n < 100, digits_to_99.getD n (0, 0) =
    (UInt8.ofNat (48 + n / 10), UInt8.ofNat (48 + n % 10)) := by
  decide

theorem storePair_filled (n : Nat) (small : n < 100) (buffer : NumberBuffer)
    (room : 2 ≤ buffer.buffer_ptr)
    (inside : buffer.buffer_ptr ≤ buffer.cells.length) :
    ∃ after, buffer.storePair n = .ok after ∧
      Filled buffer after [UInt8.ofNat (48 + n / 10), UInt8.ofNat (48 + n % 10)] := by
  obtain ⟨middle, one, ones⟩ := store_filled (UInt8.ofNat (48 + n % 10)) buffer (by omega) inside
  have lower := ones.pointer
  have length := filled_length _ _ _ inside ones
  obtain ⟨after, two, tens⟩ := store_filled (UInt8.ofNat (48 + n / 10)) middle
    (by simp at lower; omega)
    (by simp at lower; omega)
  refine ⟨after, ?_, filled_trans _ _ _ _ _ inside ones tens⟩
  rw [NumberBuffer.storePair, digits_to_99_pair n small]
  rw [one]
  exact two

theorem fill_filled (abs_value : Nat) (buffer : NumberBuffer)
    (room : (digits abs_value).length ≤ buffer.buffer_ptr)
    (inside : buffer.buffer_ptr ≤ buffer.cells.length) :
    ∃ after, NumberBuffer.fill abs_value buffer = .ok after ∧
      Filled buffer after (digits abs_value) := by
  induction abs_value using Nat.strongRecOn generalizing buffer with
  | ind abs_value ih =>
    rw [NumberBuffer.fill]
    by_cases large : 100 ≤ abs_value
    · rw [digits_pair abs_value large, List.length_append] at room
      obtain ⟨middle, stored, pair⟩ := storePair_filled (abs_value % 100)
        (Nat.mod_lt _ (by decide)) buffer
        (Nat.le_trans (Nat.le_add_left 2 _) room) inside
      have lower := pair.pointer
      have length := filled_length _ _ _ inside pair
      simp only [List.length_cons, List.length_nil] at room lower
      obtain ⟨after, rest, filled⟩ := ih (abs_value / 100) (by omega) middle (by omega) (by omega)
      rw [if_pos large, stored, digits_pair abs_value large]
      exact ⟨after, rest, filled_trans _ _ _ _ _ inside pair filled⟩
    · rw [if_neg large]
      by_cases two : 10 ≤ abs_value
      · rw [digits_two abs_value two (by omega)] at room ⊢
        rw [if_pos two]
        exact storePair_filled abs_value (by omega) buffer room inside
      · rw [digits_small abs_value (by omega)] at room ⊢
        rw [if_neg two]
        exact store_filled _ buffer room inside

theorem digits_fit (value : UInt64) : (digits value.toNat).length ≤ 20 := by
  have below : value.toNat < 10 ^ 20 := Nat.lt_trans value.toNat_lt (by decide)
  rw [digits, List.length_map]
  exact (Nat.length_toDigits_le_iff (by decide) (by decide)).mpr below

/-- Whatever the cells held before, the text is the sign and the digits, and no store leaves them.
-/
theorem dump_abs_text (cells : Bytes) (whole : cells.length = kNumberBuffer) (is_negative : Bool)
    (abs_value : UInt64) :
    dump_abs cells is_negative abs_value = .ok
      ((if is_negative then [45] else []) ++ digits abs_value.toNat) := by
  have short := digits_fit abs_value
  have count : count_digits abs_value.toNat 1 = (digits abs_value.toNat).length := by
    rw [count_digits_length abs_value.toNat 0, Nat.zero_add]
  cases is_negative with
  | false =>
      have fits : (digits abs_value.toNat).length < kNumberBuffer - 1 := by
        simp only [kNumberBuffer]; omega
      obtain ⟨after, filled, pointer, kept⟩ :=
        fill_filled abs_value.toNat ⟨cells, (digits abs_value.toNat).length⟩
        (Nat.le_refl _) (by simp only [whole, kNumberBuffer]; omega)
      have start : after.buffer_ptr = 0 := by simpa using pointer
      simp only [dump_abs, count, Bool.false_eq_true, if_false, Nat.add_zero, if_pos fits, filled,
        List.nil_append]
      rw [start, List.take_zero, List.nil_append] at kept
      change Except.ok (after.cells.take _) = _
      rw [kept, List.take_left]
  | true =>
      have fits : (digits abs_value.toNat).length + 1 < kNumberBuffer - 1 := by
        simp only [kNumberBuffer]; omega
      obtain ⟨after, filled, pointer, kept⟩ := fill_filled abs_value.toNat
        ⟨cells.set 0 45, (digits abs_value.toNat).length + 1⟩ (Nat.le_succ _)
        (by simp only [List.length_set, whole, kNumberBuffer]; omega)
      have start : after.buffer_ptr = 1 := by simpa [Nat.add_comm] using pointer
      simp only [dump_abs, count, if_true, if_pos fits, filled]
      change Except.ok (after.cells.take _) = _
      obtain ⟨first, rest, rfl⟩ := List.exists_cons_of_length_eq_add_one
        (show cells.length = 63 + 1 from whole)
      have signed : after.cells = (45 :: digits abs_value.toNat) ++
          rest.drop (digits abs_value.toNat).length := by simpa [start] using kept
      rw [signed, List.take_append_of_le_length (by simp), List.take_of_length_le (by simp)]
      rfl

theorem freshCells_length : freshCells.length = kNumberBuffer := List.length_replicate

theorem dump_unsigned_text (cells : Bytes) (whole : cells.length = kNumberBuffer) (x : UInt64) :
    dump_unsigned cells x = .ok (digits x.toNat) := by
  unfold dump_unsigned
  split
  · rename_i zero
    rw [zero]
    rfl
  · exact dump_abs_text cells whole false x

theorem toInt_toUInt64 (x : Int64) :
    x.toInt = if x.toUInt64.toNat < 9223372036854775808 then (x.toUInt64.toNat : Int)
      else x.toUInt64.toNat - 18446744073709551616 := by
  rw [← Int64.toNat_toBitVec, ← Int64.toInt_toBitVec, BitVec.toInt_eq_toNat_cond]
  simp only [Nat.reducePow]
  split <;> split <;> omega

theorem abs_value (x : Int64) : (if x < 0 then -x else x).toUInt64.toNat = x.toInt.natAbs := by
  have bound := x.toUInt64.toNat_lt
  have value := toInt_toUInt64 x
  simp only [Int64.lt_iff_toInt_lt, Int64.toInt_zero]
  split
  · rw [Int64.toUInt64_neg, UInt64.toNat_neg, show UInt64.size = 18446744073709551616 from rfl]
    split at value <;> omega
  · split at value <;> omega

theorem dump_integer_text (cells : Bytes) (whole : cells.length = kNumberBuffer) (x : Int64) :
    dump_integer cells x = .ok (decimal x.toInt) := by
  unfold dump_integer
  split
  · rename_i zero
    rw [zero]
    rfl
  · rw [dump_abs_text cells whole, abs_value]
    simp only [decimal, decide_eq_true_eq, Int64.lt_iff_toInt_lt, Int64.toInt_zero]

/-- The text of an integer does not depend on the numbers that were dumped before it. -/
theorem integers_written (cells : Bytes) (whole : cells.length = kNumberBuffer) :
    (∀ x : Int64, dump_integer cells x = .ok (decimal x.toInt)) ∧
    ∀ x : UInt64, dump_unsigned cells x = .ok (digits x.toNat) :=
  ⟨dump_integer_text cells whole, dump_unsigned_text cells whole⟩

theorem integers_written_stale :
    (∀ x : Int64, dump_integer (List.replicate 64 55) x = .ok (decimal x.toInt)) ∧
      ∀ x : UInt64, dump_unsigned (List.replicate 64 55) x = .ok (digits x.toNat) :=
  integers_written (List.replicate 64 55) List.length_replicate

/-! The text of a value. -/

def quote (s : Bytes) : Bytes := 34 :: s.flatMap escaped ++ [34]

section Text
variable {F : Type} (floats : Floats F)

mutual

/-- What dump writes for a value whose strings are all UTF-8. -/
def text : Value F → Bytes
  | .object members => 123 :: textMembers members ++ [125]
  | .array values => 91 :: textValues values ++ [93]
  | .string value => quote value
  | .boolean value => ascii (if value then "true" else "false")
  | .number_integer value => decimal value.toInt
  | .number_unsigned value => digits value.toNat
  | .number_float value => dump_float floats value
  | .null => ascii "null"

def textMembers : List (Bytes × Value F) → Bytes
  | [] => []
  | [(key, value)] => quote key ++ 58 :: text value
  | (key, value) :: next :: rest =>
      quote key ++ 58 :: text value ++ 44 :: textMembers (next :: rest)

def textValues : List (Value F) → Bytes
  | [] => []
  | [value] => text value
  | value :: next :: rest => text value ++ 44 :: textValues (next :: rest)

end

/-- The result for these strings: the text, or type_error.316 if one of them is not UTF-8. -/
structure Dumped (texts : List Bytes) (result : Except Failure Bytes)
    (expected : Bytes) : Prop where
  writes : (∀ text ∈ texts, WellFormed text) → result = .ok expected
  throws : (∃ text ∈ texts, ¬ WellFormed text) → ∃ what, result = .error (type_error 316 what)

theorem dumped_total (texts : List Bytes) (result : Except Failure Bytes) (expected : Bytes)
    (dumped : Dumped texts result expected) :
    result = .ok expected ∨ ∃ what, result = .error (type_error 316 what) := by
  by_cases formed : ∀ text ∈ texts, WellFormed text
  · exact .inl (dumped.writes formed)
  · exact .inr (dumped.throws (by simpa using formed))

theorem dumped_pure (expected : Bytes) : Dumped [] (.ok expected) expected :=
  ⟨fun _ => rfl, fun ⟨_, member, _⟩ => absurd member List.not_mem_nil⟩

theorem quoted_dumped (s : Bytes) : Dumped [s] (quoted s) (quote s) := by
  constructor
  · intro formed
    rw [quoted, dump_escaped_text s (formed s List.mem_cons_self)]
    rfl
  · rintro ⟨_, member, broken⟩
    obtain rfl := List.mem_singleton.mp member
    rcases dump_escaped_throws _ broken with ⟨_, _, _, _, _, _, failed⟩ | ⟨_, failed⟩
    · exact ⟨_, by rw [quoted, failed]; rfl⟩
    · exact ⟨_, by rw [quoted, failed]; rfl⟩

/-- One part after the other: the first that throws ends it. -/
theorem dumped_then (front back : List Bytes) (first : Except Failure Bytes)
    (second : Bytes → Except Failure Bytes)
    (expected : Bytes) (result : Bytes) (one : Dumped front first expected)
    (two : Dumped back (second expected) result) :
    Dumped (front ++ back) (first >>= second) result := by
  constructor
  · intro formed
    rw [one.writes fun text member => formed text (List.mem_append_left _ member)]
    exact two.writes fun text member => formed text (List.mem_append_right _ member)
  · rintro ⟨text, member, broken⟩
    rcases dumped_total _ _ _ one with written | ⟨what, failed⟩
    · rw [written]
      rcases List.mem_append.mp member with inside | outside
      · obtain ⟨what, failed⟩ := one.throws ⟨text, inside, broken⟩
        rw [written] at failed
        cases failed
      · exact two.throws ⟨text, outside, broken⟩
    · exact ⟨what, by rw [failed]; rfl⟩

theorem dumpMembers_dumped (members : List (Bytes × Value F))
    (each : ∀ entry ∈ members, Dumped entry.2.texts (dump floats entry.2) (text floats entry.2)) :
    Dumped (textsOfMembers members) (dumpMembers floats members) (textMembers floats members) := by
  induction members with
  | nil =>
      simp only [dumpMembers]
      exact dumped_pure []
  | cons entry rest ih =>
      obtain ⟨key, value⟩ := entry
      have here := each _ List.mem_cons_self
      have later := ih fun entry member => each entry (List.mem_cons_of_mem _ member)
      cases rest with
      | nil =>
          simp only [dumpMembers, textMembers, textsOfMembers]
          refine dumped_then [key] _ _ _ _ _ (quoted_dumped key)
            (dumped_then _ [] _ _ _ _ here (dumped_pure _))
      | cons next rest =>
          rw [dumpMembers, textMembers, textsOfMembers]
          refine dumped_then [key] _ _ _ _ _ (quoted_dumped key) (dumped_then _ _ _ _ _ _ here ?_)
          rw [← List.append_nil (textsOfMembers _)]
          exact dumped_then _ [] _ _ _ _ later (dumped_pure _)

theorem dumpValues_dumped (values : List (Value F))
    (each : ∀ value ∈ values, Dumped value.texts (dump floats value) (text floats value)) :
    Dumped (textsOfValues values) (dumpValues floats values) (textValues floats values) := by
  induction values with
  | nil =>
      simp only [dumpValues]
      exact dumped_pure []
  | cons value rest ih =>
      have here := each _ List.mem_cons_self
      have later := ih fun value member => each value (List.mem_cons_of_mem _ member)
      cases rest with
      | nil => simpa only [dumpValues, textValues, textsOfValues, List.append_nil] using here
      | cons next rest =>
          rw [dumpValues, textValues, textsOfValues]
          refine dumped_then _ _ _ _ _ _ here ?_
          rw [← List.append_nil (textsOfValues _)]
          exact dumped_then _ [] _ _ _ _ later (dumped_pure _)

theorem dump_dumped (value : Value F) :
    Dumped value.texts (dump floats value) (text floats value) := by
  induction value using Value.induct with
  | object members each =>
      rw [Value.texts]
      cases members with
      | nil => exact dumped_pure _
      | cons entry rest =>
          have all := dumpMembers_dumped floats _ each
          rw [dump, text, ← List.append_nil (textsOfMembers _)]
          exact dumped_then _ [] _ _ _ _ all (dumped_pure _)
  | array values each =>
      rw [Value.texts]
      cases values with
      | nil => exact dumped_pure _
      | cons value rest =>
          have all := dumpValues_dumped floats _ each
          rw [dump, text, ← List.append_nil (textsOfValues _)]
          exact dumped_then _ [] _ _ _ _ all (dumped_pure _)
  | string value =>
      rw [dump, text]
      exact quoted_dumped value
  | number_integer value =>
      rw [dump, text, dump_integer_text _ freshCells_length]
      exact dumped_pure _
  | number_unsigned value =>
      rw [dump, text, dump_unsigned_text _ freshCells_length]
      exact dumped_pure _
  | null | boolean _ | number_float _ =>
      rw [dump, text]
      exact dumped_pure _

/-- dump throws for a string or a key that is not UTF-8, and for nothing else. -/
theorem dump_throws_iff (value : Value F) :
    (dump floats value = .ok (text floats value) ↔ ∀ s ∈ value.texts, s.toByteArray.IsValidUTF8) ∧
      ((∃ what, dump floats value = .error (type_error 316 what)) ↔
        ∃ s ∈ value.texts, ¬ s.toByteArray.IsValidUTF8) := by
  have dumped := dump_dumped floats value
  simp only [← Utf8.wellFormed_valid]
  by_cases formed : ∀ s ∈ value.texts, WellFormed s
  · refine ⟨iff_of_true (dumped.writes formed) formed, iff_of_false ?_ (by simpa using formed)⟩
    rintro ⟨what, failed⟩
    cases (dumped.writes formed).symm.trans failed
  · have broken : ∃ s ∈ value.texts, ¬ WellFormed s := by simpa using formed
    obtain ⟨what, failed⟩ := dumped.throws broken
    exact ⟨iff_of_false (fun written => by cases written.symm.trans failed) formed,
      iff_of_true ⟨what, failed⟩ broken⟩

end Text

end MuduoChat.JsonSerializer
