import MuduoChat.CNumbers
import MuduoChat.JsonValue

/-!
detail::lexer of CHAT/thirdparty/json.hpp. The input is what input_buffer_adapter still has to give,
and EOF is the end of it; what unget puts back is in front of it again. A token comes with the value
that the getters would return for it. The positions and token_string, which only serve the texts of
exceptions, are left out.
-/

namespace MuduoChat.JsonLexer
open JsonValue
open Utf8 (Range within continuation Sequence WellFormed)

inductive Token (F : Type) where
  | literal_true
  | literal_false
  | literal_null
  | value_string (value : Bytes)
  | value_unsigned (value : UInt64)
  | value_integer (value : Int64)
  | value_float (value : F)
  | begin_array
  | begin_object
  | end_array
  | end_object
  | name_separator
  | value_separator
  | parse_error (error_message : String)
  | end_of_input
  deriving DecidableEq

/-! scan_string. -/

def hexValue (current : UInt8) : Option Nat :=
  if 0x30 ≤ current ∧ current ≤ 0x39 then some (current.toNat - 0x30)
  else if 0x41 ≤ current ∧ current ≤ 0x46 then some (current.toNat - 0x37)
  else if 0x61 ≤ current ∧ current ≤ 0x66 then some (current.toNat - 0x57)
  else none

def codepointFrom : List Nat → Nat → Bytes → Option (Nat × Bytes)
  | [], codepoint, input => some (codepoint, input)
  | _ :: _, _, [] => none
  | factor :: factors, codepoint, current :: input =>
      (hexValue current).bind fun digit =>
        codepointFrom factors (codepoint + digit <<< factor) input

def get_codepoint (input : Bytes) : Option (Nat × Bytes) := codepointFrom [12, 8, 4, 0] 0 input

/-- The bytes that are added for a code point, and the input behind them. -/
def next_byte_in_range : List Range → Bytes → Option (Bytes × Bytes)
  | [], input => some ([], input)
  | _ :: _, [] => none
  | range :: ranges, current :: input =>
      if within range current then (next_byte_in_range ranges input).map fun more =>
        (current :: more.1, more.2) else none

/-- The argument of next_byte_in_range for a first byte past ASCII. -/
def rangesBehind (current : UInt8) : Option (List Range) :=
  if 0xC2 ≤ current ∧ current ≤ 0xDF then some [(0x80, 0xBF)]
  else if current = 0xE0 then some [(0xA0, 0xBF), (0x80, 0xBF)]
  else if 0xE1 ≤ current ∧ current ≤ 0xEC ∨ current = 0xEE ∨ current = 0xEF then
    some [(0x80, 0xBF), (0x80, 0xBF)]
  else if current = 0xED then some [(0x80, 0x9F), (0x80, 0xBF)]
  else if current = 0xF0 then some [(0x90, 0xBF), (0x80, 0xBF), (0x80, 0xBF)]
  else if 0xF1 ≤ current ∧ current ≤ 0xF3 then some [(0x80, 0xBF), (0x80, 0xBF), (0x80, 0xBF)]
  else if current = 0xF4 then some [(0x80, 0x8F), (0x80, 0xBF), (0x80, 0xBF)]
  else none

/-- "translate codepoint into bytes" -/
def codepointBytes (codepoint : Nat) : Bytes :=
  (if codepoint < 0x80 then [codepoint]
  else if codepoint ≤ 0x7FF then [0xC0 ||| codepoint >>> 6, 0x80 ||| codepoint &&& 0x3F]
  else if codepoint ≤ 0xFFFF then
    [0xE0 ||| codepoint >>> 12, 0x80 ||| codepoint >>> 6 &&& 0x3F, 0x80 ||| codepoint &&& 0x3F]
  else
    [0xF0 ||| codepoint >>> 18, 0x80 ||| codepoint >>> 12 &&& 0x3F,
      0x80 ||| codepoint >>> 6 &&& 0x3F,
      0x80 ||| codepoint &&& 0x3F]).map UInt8.ofNat

def noHexDigits : String := "invalid string: '\\u' must be followed by 4 hex digits"
def noLowSurrogate : String :=
    "invalid string: surrogate U+DC00..U+DFFF must be followed by U+DC00..U+DFFF"
def noHighSurrogate : String :=
    "invalid string: surrogate U+DC00..U+DFFF must follow U+D800..U+DBFF"

/-- Behind a backslash and a u. -/
def scanUnicode (input : Bytes) : Except String (Bytes × Bytes) :=
  match get_codepoint input with
  | none => .error noHexDigits
  | some (codepoint1, input) =>
      if 0xD800 ≤ codepoint1 ∧ codepoint1 ≤ 0xDBFF then
        match input with
        | 92 :: 117 :: input =>
            match get_codepoint input with
            | none => .error noHexDigits
            | some (codepoint2, input) =>
                if 0xDC00 ≤ codepoint2 ∧ codepoint2 ≤ 0xDFFF then
                  .ok (codepointBytes (codepoint1 <<< 10 + codepoint2 - 0x35FDC00), input)
                else .error noLowSurrogate
        | _ => .error noLowSurrogate
      else if 0xDC00 ≤ codepoint1 ∧ codepoint1 ≤ 0xDFFF then .error noHighSurrogate
      else .ok (codepointBytes codepoint1, input)

/-- The letters behind a backslash, and what they stand for. -/
def simpleEscapes : List (UInt8 × UInt8) :=
  [(34, 34), (92, 92), (47, 47), (98, 8), (102, 12), (110, 10), (114, 13), (116, 9)]

def scanEscape : Bytes → Except String (Bytes × Bytes)
  | [] => .error "invalid string: forbidden character after backslash"
  | current :: input =>
      match simpleEscapes.lookup current with
      | some byte => .ok ([byte], input)
      | none =>
          if current = 117 then scanUnicode input
          else .error "invalid string: forbidden character after backslash"

def controlNames : List String :=
  ["NUL", "SOH", "STX", "ETX", "EOT", "ENQ", "ACK", "BEL", "BS", "HT", "LF", "VT", "FF", "CR",
    "SO", "SI", "DLE", "DC1",
    "DC2", "DC3", "DC4", "NAK", "SYN", "ETB", "CAN", "EM", "SUB", "ESC", "FS", "GS", "RS", "US"]

def shownNibble (value : Nat) : String :=
    (["0", "1", "2", "3", "4", "5", "6", "7", "8", "9", "A", "B", "C", "D", "E", "F"]).getD value ""

def controlMessage (current : UInt8) : String :=
  let code := "00" ++ shownNibble (current.toNat / 16) ++ shownNibble (current.toNat % 16)
  let short := [(8, " or \\b"), (9, " or \\t"), (10, " or \\n"), (12, " or \\f"), (13, " or \\r")]
  "invalid string: control character U+" ++ code ++ " (" ++ controlNames.getD current.toNat "" ++
    ") must be escaped to \\u" ++ code ++ (short.lookup current).getD ""

/-- One pass of the loop for a byte that is no quotation mark: what it adds to token_buffer. -/
def scanCharacter (current : UInt8) (input : Bytes) : Except String (Bytes × Bytes) :=
  if current = 92 then scanEscape input
  else if current ≤ 0x1F then .error (controlMessage current)
  else if current ≤ 0x7F then .ok ([current], input)
  else
    match (rangesBehind current).bind fun ranges => next_byte_in_range ranges input with
    | some (added, input) => .ok (current :: added, input)
    | none => .error "invalid string: ill-formed UTF-8 byte"

theorem codepointFrom_length (factors : List Nat) (codepoint value : Nat) (input rest : Bytes)
    (found : codepointFrom factors codepoint input = some (value, rest)) :
    rest.length ≤ input.length := by
  induction factors generalizing codepoint input with
  | nil =>
      cases found
      exact Nat.le_refl _
  | cons factor factors ih =>
      cases input with
      | nil => cases found
      | cons current input =>
          obtain ⟨digit, _, later⟩ := Option.bind_eq_some_iff.mp found
          exact Nat.le_succ_of_le (ih _ _ later)

theorem next_byte_in_range_length (ranges : List Range) (input added rest : Bytes)
    (found : next_byte_in_range ranges input = some (added, rest)) :
    rest.length ≤ input.length := by
  induction ranges generalizing input added with
  | nil =>
      cases found
      exact Nat.le_refl _
  | cons range ranges ih =>
      cases input with
      | nil => cases found
      | cons current input =>
          simp only [next_byte_in_range] at found
          split at found
          · obtain ⟨more, later, same⟩ := Option.map_eq_some_iff.mp found
            cases same
            exact Nat.le_succ_of_le (ih _ _ later)
          · cases found

theorem scanUnicode_length (input added rest : Bytes)
    (found : scanUnicode input = .ok (added, rest)) :
    rest.length ≤ input.length := by
  unfold scanUnicode at found
  split at found
  · cases found
  · rename_i first
    have shorter := codepointFrom_length _ _ _ _ _ first
    split at found
    · split at found
      · split at found
        · cases found
        · rename_i second
          have again := codepointFrom_length _ _ _ _ _ second
          split at found
          · simp only [Except.ok.injEq, Prod.mk.injEq] at found
            rw [← found.2]
            simp only [List.length_cons] at shorter
            omega
          · cases found
      · cases found
    · split at found
      · cases found
      · cases found
        exact shorter

theorem scanCharacter_length (current : UInt8) (input added rest : Bytes)
    (found : scanCharacter current input = .ok (added, rest)) : rest.length ≤ input.length := by
  unfold scanCharacter at found
  split at found
  · unfold scanEscape at found
    split at found
    · cases found
    · split at found
      · cases found
        exact Nat.le_succ _
      · split at found
        · exact Nat.le_succ_of_le (scanUnicode_length _ _ _ found)
        · cases found
  · split at found
    · cases found
    · split at found
      · cases found
        exact Nat.le_refl _
      · split at found
        · rename_i inside
          cases found
          obtain ⟨ranges, _, later⟩ := Option.bind_eq_some_iff.mp inside
          exact next_byte_in_range_length _ _ _ _ later
        · cases found

section Scan
variable {F : Type}

/-- Behind the opening quotation mark. -/
def scan_string (token_buffer input : Bytes) : Token F × Bytes :=
  match input with
  | [] => (.parse_error "invalid string: missing closing quote", [])
  | current :: input =>
      if current = 34 then (.value_string token_buffer, input)
      else
        match found : scanCharacter current input with
        | .error error_message => (.parse_error error_message, input)
        | .ok (added, rest) =>
            have := scanCharacter_length current input added rest found
            scan_string (token_buffer ++ added) rest
termination_by input.length
decreasing_by
  simp only [List.length_cons]
  omega

/-! scan_number. -/

/-- The labels, without the one where the number is done. -/
inductive Label where
  | minus
  | zero
  | any1
  | decimal1
  | decimal2
  | exponent
  | sign
  | any2

inductive NumberType where
  | value_unsigned
  | value_integer
  | value_float

/-- The assignment to number_type behind a label. -/
def Label.retype : Label → NumberType → NumberType
  | .minus, _ => .value_integer
  | .decimal1, _ => .value_float
  | .exponent, _ => .value_float
  | _, number_type => number_type

inductive Jump where
  | goto (label : Label)
  | done
  | error (message : String)

def isDigit (current : Option UInt8) : Bool := current.any CNumbers.digit

def isExponent (current : Option UInt8) : Bool := current == some 101 || current == some 69

/-- The switch behind each label; EOF is no byte. -/
def Label.jump (label : Label) (current : Option UInt8) : Jump :=
  match label with
  | .minus =>
      if current = some 48 then .goto .zero
      else if isDigit current then .goto .any1
      else .error "invalid number; expected digit after '-'"
  | .zero =>
      if current = some 46 then .goto .decimal1
      else if isExponent current then .goto .exponent
      else .done
  | .any1 =>
      if isDigit current then .goto .any1
      else if current = some 46 then .goto .decimal1
      else if isExponent current then .goto .exponent
      else .done
  | .decimal1 =>
      if isDigit current then .goto .decimal2
      else .error "invalid number; expected digit after '.'"
  | .decimal2 =>
      if isDigit current then .goto .decimal2
      else if isExponent current then .goto .exponent
      else .done
  | .exponent =>
      if current = some 43 ∨ current = some 45 then .goto .sign
      else if isDigit current then .goto .any2
      else .error "invalid number; expected '+', '-', or digit after exponent"
  | .sign =>
      if isDigit current then .goto .any2
      else .error "invalid number; expected digit after exponent sign"
  | .any2 =>
      if isDigit current then .goto .any2
      else .done

/-- From a label on: number_type, token_buffer and the input, to which the byte behind the
number has been put back. -/
def scanNumberFrom (label : Label) (number_type : NumberType) (token_buffer : Bytes) :
    Bytes → Except String (NumberType × Bytes × Bytes)
  | [] =>
      match label.jump none with
      | .error error_message => .error error_message
      | _ => .ok (label.retype number_type, token_buffer, [])
  | current :: input =>
      match label.jump (some current) with
      | .goto next => scanNumberFrom next (label.retype number_type)
          (token_buffer ++ [current]) input
      | .done => .ok (label.retype number_type, token_buffer, current :: input)
      | .error error_message => .error error_message

variable (floats : Floats F)

/-- Behind the label scan_number_done: an integer that does not fit is a float. -/
def convert (number_type : NumberType) (token_buffer : Bytes) : Token F :=
  match number_type with
  | .value_unsigned =>
      if CNumbers.value token_buffer < 18446744073709551616 then
        .value_unsigned (UInt64.ofNat (CNumbers.value token_buffer))
      else .value_float (floats.strtod token_buffer)
  | .value_integer =>
      if CNumbers.value token_buffer.tail ≤ 9223372036854775808 then
        .value_integer (Int64.ofInt (-CNumbers.value token_buffer.tail))
      else .value_float (floats.strtod token_buffer)
  | .value_float => .value_float (floats.strtod token_buffer)

/-- With the first byte of the number in current. -/
def scan_number (current : UInt8) (input : Bytes) : Token F × Bytes :=
  let label := if current = 45 then Label.minus else if current = 48 then .zero else .any1
  match scanNumberFrom label .value_unsigned [current] input with
  | .error error_message => (.parse_error error_message, [])
  | .ok (number_type, token_buffer, rest) => (convert floats number_type token_buffer, rest)

/-! scan. -/

/-- The letters behind the first one. -/
def scan_literal (return_type : Token F) : Bytes → Bytes → Token F × Bytes
  | [], input => (return_type, input)
  | _ :: _, [] => (.parse_error "invalid literal", [])
  | letter :: letters, current :: input =>
      if current = letter then scan_literal return_type letters input
      else (.parse_error "invalid literal", input)

def skip_bom : Bytes → Option Bytes
  | 0xEF :: 0xBB :: 0xBF :: input => some input
  | 0xEF :: _ => none
  | input => some input

def whitespace (current : UInt8) : Bool :=
    current == 32 || current == 9 || current == 10 || current == 13

/-- The switch on the first byte that is no whitespace. -/
def scanToken (current : UInt8) (input : Bytes) : Token F × Bytes :=
  if current = 91 then (.begin_array, input)
  else if current = 93 then (.end_array, input)
  else if current = 123 then (.begin_object, input)
  else if current = 125 then (.end_object, input)
  else if current = 58 then (.name_separator, input)
  else if current = 44 then (.value_separator, input)
  else if current = 116 then scan_literal .literal_true [114, 117, 101] input
  else if current = 102 then scan_literal .literal_false [97, 108, 115, 101] input
  else if current = 110 then scan_literal .literal_null [117, 108, 108] input
  else if current = 34 then scan_string [] input
  else if current = 45 ∨ CNumbers.digit current then scan_number floats current input
  else if current = 0 then (.end_of_input, input)
  else (.parse_error "invalid literal", input)

def scan (input : Bytes) : Token F × Bytes :=
  match input.dropWhile whitespace with
  | [] => (.end_of_input, [])
  | current :: input => scanToken floats current input

/-- The first call, before any byte has been read. -/
def scanFirst (input : Bytes) : Token F × Bytes :=
  match skip_bom input with
  | none => (.parse_error "invalid BOM; must be 0xEF 0xBB 0xBF if given", [])
  | some input => scan floats input

end Scan

end MuduoChat.JsonLexer
