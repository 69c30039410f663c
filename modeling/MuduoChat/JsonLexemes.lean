import MuduoChat.JsonLexer

/-!
The texts of the tokens as the grammar of JSON has them, and the lexer of CHAT/thirdparty/json.hpp
against it: what scan takes for a token is whitespace and a text of that token, and it takes every
such text, up to the longest number.
-/

namespace MuduoChat.JsonLexer
open JsonValue
open Utf8 (Range within continuation Fits Sequence WellFormed)

/-! Numbers. -/

def Many (next : Bytes → Prop) (text : Bytes) : Prop :=
  ∃ digits rest, text = digits ++ rest ∧ (∀ digit ∈ digits, CNumbers.digit digit = true) ∧ next rest

def AtLeastOne (next : Bytes → Prop) (text : Bytes) : Prop :=
  ∃ digit rest, text = digit :: rest ∧ CNumbers.digit digit = true ∧ Many next rest

def Signed (text : Bytes) : Prop :=
  AtLeastOne (· = []) text ∨ ∃ sign rest, text = sign :: rest ∧ (sign = 43 ∨ sign = 45) ∧
    AtLeastOne (· = []) rest

def Exponent (text : Bytes) : Prop :=
  text = [] ∨ ∃ letter rest, text = letter :: rest ∧ (letter = 101 ∨ letter = 69) ∧ Signed rest

def Fraction (text : Bytes) : Prop := Exponent text ∨ ∃ rest, text = 46 :: rest ∧
    AtLeastOne Exponent rest

def Unsigned (text : Bytes) : Prop :=
  (∃ rest, text = 48 :: rest ∧ Fraction rest) ∨
    ∃ digit rest, text = digit :: rest ∧ CNumbers.digit digit = true ∧ digit ≠ 48 ∧
      Many Fraction rest

def Number (text : Bytes) : Prop := Unsigned text ∨ ∃ rest, text = 45 :: rest ∧ Unsigned rest

/-- A fraction or an exponent makes it a float, else it is the sign that tells. -/
def kind (text : Bytes) : NumberType :=
  if 46 ∈ text ∨ 101 ∈ text ∨ 69 ∈ text then .value_float
  else if text.head? = some 45 then .value_integer
  else .value_unsigned

/-- What may follow behind a label. -/
def Label.Behind : Label → Bytes → Prop
  | .minus => Unsigned
  | .zero => Fraction
  | .any1 => Many Fraction
  | .decimal1 => AtLeastOne Exponent
  | .decimal2 => Many Exponent
  | .exponent => Signed
  | .sign => AtLeastOne (· = [])
  | .any2 => Many (· = [])

theorem many_nil (next : Bytes → Prop) : Many next [] ↔ next [] := by
  constructor
  · rintro ⟨digits, rest, same, _, there⟩
    obtain ⟨rfl, rfl⟩ := List.append_eq_nil_iff.mp same.symm
    exact there
  · intro there
    exact ⟨[], [], rfl, by simp, there⟩

theorem many_cons (next : Bytes → Prop) (first : UInt8) (text : Bytes) :
    Many next (first :: text) ↔ CNumbers.digit first = true ∧ Many next text ∨
      next (first :: text) := by
  constructor
  · rintro ⟨digits, rest, same, all, there⟩
    cases digits with
    | nil =>
        rw [List.nil_append] at same
        exact .inr (same ▸ there)
    | cons digit digits =>
        obtain ⟨rfl, rfl⟩ := List.cons.inj same
        exact .inl ⟨all _ List.mem_cons_self, digits, rest, rfl, fun d member => all d
          (List.mem_cons_of_mem _ member), there⟩
  · rintro (⟨isDigit, digits, rest, rfl, all, there⟩ | there)
    · exact ⟨first :: digits, rest, rfl, by simpa using ⟨isDigit, all⟩, there⟩
    · exact ⟨[], _, rfl, by simp, there⟩

theorem atLeastOne_nil (next : Bytes → Prop) : ¬ AtLeastOne next [] := by
  rintro ⟨_, _, same, _⟩
  cases same

theorem atLeastOne_cons (next : Bytes → Prop) (first : UInt8) (text : Bytes) :
    AtLeastOne next (first :: text) ↔ CNumbers.digit first = true ∧ Many next text := by
  constructor
  · rintro ⟨_, _, same, isDigit, there⟩
    obtain ⟨rfl, rfl⟩ := List.cons.inj same
    exact ⟨isDigit, there⟩
  · rintro ⟨isDigit, there⟩
    exact ⟨_, _, rfl, isDigit, there⟩

theorem signed_cons (first : UInt8) (text : Bytes) :
    Signed (first :: text) ↔ CNumbers.digit first = true ∧ Many (· = []) text ∨
      (first = 43 ∨ first = 45) ∧ AtLeastOne (· = []) text := by
  rw [Signed, atLeastOne_cons]
  exact or_congr_right ⟨fun ⟨_, _, same, rest⟩ => by cases same; exact rest,
    fun rest => ⟨_, _, rfl, rest⟩⟩

theorem exponent_cons (first : UInt8) (text : Bytes) :
    Exponent (first :: text) ↔ (first = 101 ∨ first = 69) ∧ Signed text := by
  constructor
  · rintro (empty | ⟨_, _, same, rest⟩)
    · cases empty
    · cases same
      exact rest
  · intro rest
    exact .inr ⟨_, _, rfl, rest⟩

theorem fraction_cons (first : UInt8) (text : Bytes) :
    Fraction (first :: text) ↔ (first = 101 ∨ first = 69) ∧ Signed text ∨ first = 46 ∧
      AtLeastOne Exponent text := by
  rw [Fraction, exponent_cons]
  exact or_congr_right ⟨fun ⟨_, same, rest⟩ => by cases same; exact ⟨rfl, rest⟩,
    fun ⟨same, rest⟩ => ⟨_, by rw [same], rest⟩⟩

theorem unsigned_cons (first : UInt8) (text : Bytes) :
    Unsigned (first :: text) ↔ first = 48 ∧ Fraction text ∨
      CNumbers.digit first = true ∧ first ≠ 48 ∧ Many Fraction text := by
  constructor
  · rintro (⟨_, same, rest⟩ | ⟨_, _, same, rest⟩)
    · cases same
      exact .inl ⟨rfl, rest⟩
    · cases same
      exact .inr rest
  · rintro (⟨rfl, rest⟩ | rest)
    · exact .inl ⟨_, rfl, rest⟩
    · exact .inr ⟨_, _, rfl, rest⟩

theorem behind_nil (label : Label) : label.Behind [] ↔ label.jump none = .done := by
  have exponent : Exponent [] := .inl rfl
  have fraction : Fraction [] := .inl exponent
  cases label with
  | minus => simp [Label.Behind, Label.jump, isDigit, Unsigned]
  | zero => simpa [Label.Behind, Label.jump, isExponent] using fraction
  | any1 => simpa [Label.Behind, Label.jump, isDigit, isExponent, many_nil] using fraction
  | decimal1 => simp [Label.Behind, Label.jump, isDigit, atLeastOne_nil]
  | decimal2 => simpa [Label.Behind, Label.jump, isDigit, isExponent, many_nil] using exponent
  | exponent => simp [Label.Behind, Label.jump, isDigit, Signed, atLeastOne_nil]
  | sign => simp [Label.Behind, Label.jump, isDigit, atLeastOne_nil]
  | any2 => simp [Label.Behind, Label.jump, isDigit, many_nil]

@[simp] theorem behind_minus (text : Bytes) : Label.minus.Behind text = Unsigned text := rfl
@[simp] theorem behind_zero (text : Bytes) : Label.zero.Behind text = Fraction text := rfl
@[simp] theorem behind_any1 (text : Bytes) : Label.any1.Behind text = Many Fraction text := rfl
@[simp] theorem behind_decimal1 (text : Bytes) :
  Label.decimal1.Behind text = AtLeastOne Exponent text := rfl
@[simp] theorem behind_decimal2 (text : Bytes) :
  Label.decimal2.Behind text = Many Exponent text := rfl
@[simp] theorem behind_exponent (text : Bytes) : Label.exponent.Behind text = Signed text := rfl
@[simp] theorem behind_sign (text : Bytes) :
  Label.sign.Behind text = AtLeastOne (· = []) text := rfl
@[simp] theorem behind_any2 (text : Bytes) : Label.any2.Behind text = Many (· = []) text := rfl

/-- The digits are none of the other bytes of a number. -/
theorem digit_other (first : UInt8) (isDigit : CNumbers.digit first = true) :
    first ≠ 43 ∧ first ≠ 45 ∧ first ≠ 46 ∧ first ≠ 101 ∧ first ≠ 69 := by
  refine ⟨?_, ?_, ?_, ?_, ?_⟩ <;>
  · rintro rfl
    cases isDigit

theorem behind_cons (label : Label) (first : UInt8) (text : Bytes) :
    label.Behind (first :: text) ↔ ∃ next, label.jump (some first) = .goto next ∧
      next.Behind text := by
  by_cases digit : CNumbers.digit first = true
  · obtain ⟨plus, minus, dot, small, capital⟩ := digit_other first digit
    cases label with
    | minus => by_cases zero : first = 48 <;> simp [unsigned_cons, Label.jump, isDigit, digit, zero]
    | zero => simp [fraction_cons, Label.jump, isExponent, dot, small, capital]
    | any1 => simp [many_cons, fraction_cons, Label.jump, isDigit, digit, dot, small, capital]
    | decimal1 => simp [atLeastOne_cons, Label.jump, isDigit, digit]
    | decimal2 => simp [many_cons, exponent_cons, Label.jump, isDigit, digit, small, capital]
    | exponent => simp [signed_cons, Label.jump, isDigit, digit, plus, minus]
    | sign => simp [atLeastOne_cons, Label.jump, isDigit, digit]
    | any2 => simp [many_cons, Label.jump, isDigit, digit]
  · have zero : first ≠ 48 := by
      rintro rfl
      exact digit rfl
    cases label with
    | minus => simp [unsigned_cons, Label.jump, isDigit, digit, zero]
    | zero =>
        by_cases letter : first = 101 ∨ first = 69
        · have dot : first ≠ 46 := by rcases letter with rfl | rfl <;> decide
          simp [fraction_cons, Label.jump, isExponent, dot, letter]
        · by_cases dot : first = 46 <;> simp [fraction_cons, Label.jump, isExponent, dot, letter]
    | any1 =>
        by_cases letter : first = 101 ∨ first = 69
        · have dot : first ≠ 46 := by rcases letter with rfl | rfl <;> decide
          simp [many_cons, fraction_cons, Label.jump, isDigit, isExponent, digit, dot, letter]
        · by_cases dot : first = 46
          · subst dot
            simp [many_cons, fraction_cons, Label.jump, isDigit, digit]
          · simp [many_cons, fraction_cons, Label.jump, isDigit, isExponent, digit, dot, letter]
    | decimal2 =>
        by_cases letter : first = 101 ∨ first = 69
        · simp [many_cons, exponent_cons, Label.jump, isDigit, isExponent, digit, letter]
        · simp [many_cons, exponent_cons, Label.jump, isDigit, isExponent, digit, letter]
    | exponent =>
        by_cases sign : first = 43 ∨ first = 45
        · simp [signed_cons, Label.jump, digit, sign]
        · simp [signed_cons, Label.jump, isDigit, digit, sign]
    | decimal1 | sign => simp [atLeastOne_cons, Label.jump, isDigit, digit]
    | any2 => simp [many_cons, Label.jump, isDigit, digit]

/-- What a jump can do with a byte. -/
theorem jump_cases (label next : Label) (current : UInt8)
    (jumps : label.jump (some current) = .goto next) :
    CNumbers.digit current = true ∧ next ∈ [Label.zero, .any1, .decimal2, .any2] ∨ current = 46 ∧
      next = .decimal1 ∨
      (current = 101 ∨ current = 69) ∧ next = .exponent ∨ (current = 43 ∨ current = 45) ∧
        next = .sign := by
  cases label <;>
    simp only [Label.jump, isDigit, isExponent, Option.any_some, Option.some.injEq, beq_iff_eq,
    Bool.or_eq_true] at jumps
  case minus =>
    split at jumps
    · rename_i zero
      cases jumps
      exact .inl ⟨by rw [zero]; rfl, by simp⟩
    · grind
  all_goals grind

/-- The label has set number_type to what the bytes so far tell, and goes on doing so. -/
theorem jump_kind (label next : Label) (number_type : NumberType) (token_buffer : Bytes)
    (current : UInt8)
    (began : token_buffer ≠ []) (known : label.retype number_type = kind token_buffer)
    (jumps : label.jump (some current) = .goto next) :
    next.retype (label.retype number_type) = kind (token_buffer ++ [current]) := by
  have head : (token_buffer ++ [current]).head? = token_buffer.head? := by
    cases token_buffer with
    | nil => exact absurd rfl began
    | cons first rest => rfl
  -- a point or an exponent makes it a float; a digit and the sign of an exponent change nothing
  have float (made : current = 46 ∨ current = 101 ∨ current = 69) :
      kind (token_buffer ++ [current]) = .value_float := by
    rw [kind, if_pos]
    rcases made with rfl | rfl | rfl <;> simp
  have same (other : current ≠ 46 ∧ current ≠ 101 ∧ current ≠ 69) :
      kind (token_buffer ++ [current]) = kind token_buffer := by
    simp [kind, head, other.1.symm, other.2.1.symm, other.2.2.symm]
  rw [known]
  rcases jump_cases label next current jumps with ⟨digit, inside⟩ | ⟨dot, rfl⟩ | ⟨letter, rfl⟩ |
      ⟨sign, rfl⟩
  · rw [same (digit_other current digit).2.2]
    simp only [List.mem_cons, List.not_mem_nil, or_false] at inside
    rcases inside with rfl | rfl | rfl | rfl <;> rfl
  · exact (float (.inl dot)).symm
  · exact (float (.inr letter)).symm
  · rw [same (by rcases sign with rfl | rfl <;> decide)]
    rfl

/-- The byte behind a number that may not belong to it. -/
def Stops (rest : Bytes) : Prop :=
  ∀ byte ∈ rest.head?, CNumbers.digit byte = false ∧ byte ≠ 46 ∧ byte ≠ 101 ∧ byte ≠ 69

theorem jump_stops (label : Label) (rest : Bytes) (stops : Stops rest)
    (done : label.jump none = .done) :
    label.jump rest.head? = .done := by
  cases rest with
  | nil => exact done
  | cons byte rest =>
      obtain ⟨digit, dot, small, capital⟩ := stops byte rfl
      cases label <;> simp [Label.jump, isDigit, isExponent, digit, dot, small, capital] at done ⊢

theorem scanNumberFrom_sound (label : Label) (number_type : NumberType) (token_buffer input : Bytes)
    (began : token_buffer ≠ []) (known : label.retype number_type = kind token_buffer)
    (type : NumberType) (buffer rest : Bytes)
    (scanned : scanNumberFrom label number_type token_buffer input = .ok (type, buffer, rest)) :
    ∃ text, input = text ++ rest ∧ buffer = token_buffer ++ text ∧ label.Behind text ∧
      type = kind buffer := by
  induction input generalizing label number_type token_buffer with
  | nil =>
      simp only [scanNumberFrom] at scanned
      -- at the end of the input a label is done or an error, never on the way
      have ended : label.jump none = .done := by
        cases jumps : label.jump none with
        -- unget: the byte stays in the input
        | done => rfl
        | error message => simp [jumps] at scanned
        | goto next =>
            cases label <;> simp [Label.jump, isDigit, isExponent] at jumps
      rw [ended] at scanned
      cases scanned
      exact ⟨[], rfl, (List.append_nil _).symm, (behind_nil label).mpr ended, known⟩
  | cons current input ih =>
      simp only [scanNumberFrom] at scanned
      cases jumps : label.jump (some current) with
      | error message => simp [jumps] at scanned
      | goto next =>
          simp only [jumps] at scanned
          obtain ⟨text, rfl, rfl, behind, same⟩ :=
            ih next _ _ (by simp) (jump_kind _ _ _ _ _ began known jumps) scanned
          exact ⟨current :: text, rfl, by simp,
            (behind_cons label current text).mpr ⟨next, jumps, behind⟩, same⟩
      | done =>
          simp only [jumps] at scanned
          cases scanned
          have ended : label.jump none = .done := by
            cases label <;> grind [Label.jump, isDigit, isExponent]
          exact ⟨[], rfl, (List.append_nil _).symm, (behind_nil label).mpr ended, known⟩

theorem scanNumberFrom_complete (label : Label) (number_type : NumberType)
    (token_buffer text rest : Bytes)
    (began : token_buffer ≠ []) (known : label.retype number_type = kind token_buffer)
    (behind : label.Behind text)
    (stops : Stops rest) :
    scanNumberFrom label number_type token_buffer (text ++ rest) =
      .ok (kind (token_buffer ++ text), token_buffer ++ text, rest) := by
  induction text generalizing label number_type token_buffer with
  | nil =>
      -- behind the number the scan must not go on
      have ended := jump_stops label rest stops ((behind_nil label).mp behind)
      rw [List.append_nil, List.nil_append]
      cases rest with
      | nil =>
          simp only [List.head?_nil] at ended
          simp only [scanNumberFrom, ended, known]
      | cons byte rest =>
          simp only [List.head?_cons] at ended
          simp only [scanNumberFrom, ended, known]
  | cons current text ih =>
      obtain ⟨next, jumps, there⟩ := (behind_cons label current text).mp behind
      have later := ih next _ _ (by simp) (jump_kind _ _ _ _ _ began known jumps) there
      simp only [List.cons_append, scanNumberFrom, jumps]
      rw [later, List.append_assoc]
      rfl

section Numbers
variable {F : Type} (floats : Floats F)

theorem scan_number_sound (current : UInt8) (input rest : Bytes) (token : Token F)
    (began : current = 45 ∨ CNumbers.digit current = true)
    (scanned : scan_number floats current input = (token, rest))
    (good : ∀ message, token ≠ .parse_error message) :
    ∃ text, current :: input = text ++ rest ∧ text ≠ [] ∧ Number text ∧
      token = convert floats (kind text) text := by
  simp only [scan_number] at scanned
  generalize start : (if current = 45 then Label.minus else if current = 48 then
    .zero else .any1) = label at scanned
  have known : label.retype .value_unsigned = kind [current] := by
    rw [← start]
    split
    · rename_i minus
      rw [minus]
      rfl
    · rename_i other
      have digit := began.resolve_left other
      obtain ⟨_, _, dot, small, capital⟩ := digit_other current digit
      split <;> simp [kind, Label.retype, other, dot.symm, small.symm, capital.symm]
  split at scanned
  · cases scanned
    exact absurd rfl (good _)
  · rename_i type buffer remaining found
    cases scanned
    obtain ⟨text, rfl, rfl, behind, rfl⟩ := scanNumberFrom_sound _ _ _ _ (by simp) known _ _ _ found
    refine ⟨current :: text, rfl, by simp, ?_, rfl⟩
    rw [← start] at behind
    split at behind
    · rename_i minus
      exact .inr ⟨text, by rw [minus], behind⟩
    · rename_i other
      refine .inl ((unsigned_cons current text).mpr ?_)
      split at behind
      · rename_i zero
        exact .inl ⟨zero, behind⟩
      · rename_i some_
        exact .inr ⟨began.resolve_left other, some_, behind⟩

theorem scan_number_complete (text rest : Bytes) (number : Number text) (stops : Stops rest) :
    ∃ current more, text = current :: more ∧ (current = 45 ∨ CNumbers.digit current = true) ∧
      scan_number floats current (more ++ rest) = (convert floats (kind text) text, rest) := by
  have from_label (label : Label) (current : UInt8) (more : Bytes)
      (start : (if current = 45 then Label.minus else if current = 48 then
        .zero else .any1) = label)
      (known : label.retype .value_unsigned = kind [current]) (behind : label.Behind more) :
      scan_number floats current (more ++ rest) =
        (convert floats (kind (current :: more)) (current :: more), rest) := by
    simp only [scan_number, start]
    rw [scanNumberFrom_complete label _ [current] more rest (by simp) known behind stops]
    rfl
  rcases number with (⟨more, rfl, fraction⟩ | ⟨digit, more, rfl, isDigit, some_, many⟩) |
      ⟨more, rfl, unsigned⟩
  · exact ⟨48, more, rfl, .inr rfl, from_label .zero 48 more rfl rfl fraction⟩
  · obtain ⟨_, minus, dot, small, capital⟩ := digit_other digit isDigit
    refine ⟨digit, more, rfl, .inr isDigit,
      from_label .any1 digit more (by simp [minus, some_]) ?_ many⟩
    simp [kind, Label.retype, minus, dot.symm, small.symm, capital.symm]
  · exact ⟨45, more, rfl, .inl rfl, from_label .minus 45 more rfl rfl unsigned⟩

end Numbers

/-! Strings. -/

/-- Four hexadecimal digits, and the number they write. -/
def HexDigits (digits : Bytes) (codepoint : Nat) : Prop :=
  ∃ a b c d w x y z, digits = [a, b, c, d] ∧ hexValue a = some w ∧ hexValue b = some x ∧
    hexValue c = some y ∧
    hexValue d = some z ∧ codepoint = w * 4096 + x * 256 + y * 16 + z

/-- One character between the quotation marks, and the bytes that it stands for. -/
inductive Character : Bytes → Bytes → Prop where
  | plain (unit : Bytes) : Sequence unit → (∀ byte ∈ unit, 0x1F < byte ∧ byte ≠ 34 ∧ byte ≠ 92) →
      Character unit unit
  | simple (letter byte : UInt8) : (letter, byte) ∈ simpleEscapes → Character [92, letter] [byte]
  | unicode (digits : Bytes) (codepoint : Nat) : HexDigits digits codepoint →
      ¬ (0xD800 ≤ codepoint ∧ codepoint ≤ 0xDFFF) →
        Character (92 :: 117 :: digits) (codepointBytes codepoint)
  | surrogates (first second : Bytes) (high low : Nat) : HexDigits first high →
      HexDigits second low →
      0xD800 ≤ high ∧ high ≤ 0xDBFF → 0xDC00 ≤ low ∧ low ≤ 0xDFFF →
      Character (92 :: 117 :: first ++ 92 :: 117 :: second)
        (codepointBytes (high <<< 10 + low - 0x35FDC00))

/-- The text between the quotation marks, and the string. -/
inductive Body : Bytes → Bytes → Prop where
  | nil : Body [] []
  | cons (raw decoded raws rest : Bytes) : Character raw decoded → Body raws rest →
      Body (raw ++ raws) (decoded ++ rest)

theorem hexValue_lt (current : UInt8) (digit : Nat) (found : hexValue current = some digit) :
    digit < 16 := by
  simp only [hexValue, UInt8.le_iff_toNat_le, UInt8.reduceToNat] at found
  repeat' split at found
  all_goals cases found
  all_goals omega

theorem get_codepoint_iff (input rest : Bytes) (codepoint : Nat) :
    get_codepoint input = some (codepoint, rest) ↔ ∃ digits, input = digits ++ rest ∧
      HexDigits digits codepoint := by
  constructor
  · intro found
    obtain _ | ⟨a, _ | ⟨b, _ | ⟨c, _ | ⟨d, input⟩⟩⟩⟩ := input
    iterate 4 simp [get_codepoint, codepointFrom] at found
    simp only [get_codepoint, codepointFrom] at found
    obtain ⟨w, first, found⟩ := Option.bind_eq_some_iff.mp found
    obtain ⟨x, second, found⟩ := Option.bind_eq_some_iff.mp found
    obtain ⟨y, third, found⟩ := Option.bind_eq_some_iff.mp found
    obtain ⟨z, fourth, found⟩ := Option.bind_eq_some_iff.mp found
    cases found
    refine ⟨[a, b, c, d], rfl, a, b, c, d, w, x, y, z, rfl, first, second, third, fourth, ?_⟩
    simp only [Nat.shiftLeft_eq, Nat.reducePow]
    omega
  · rintro ⟨_, rfl, a, b, c, d, w, x, y, z, rfl, first, second, third, fourth, rfl⟩
    simp only [get_codepoint, codepointFrom, List.cons_append, List.nil_append, first, second,
      third, fourth,
      Option.bind_some, Nat.shiftLeft_eq, Nat.reducePow]
    congr 2
    omega

theorem next_byte_in_range_iff (ranges : List Range) (input added rest : Bytes) :
    next_byte_in_range ranges input = some (added, rest) ↔ input = added ++ rest ∧
      Fits ranges added := by
  induction ranges generalizing input added with
  | nil =>
      constructor
      · intro found
        cases found
        exact ⟨rfl, .nil⟩
      · rintro ⟨rfl, fits⟩
        cases fits
        rfl
  | cons range ranges ih =>
      constructor
      · intro found
        cases input with
        | nil => cases found
        | cons current input =>
            simp only [next_byte_in_range] at found
            split at found
            · rename_i inside
              obtain ⟨⟨more, last⟩, later, same⟩ := Option.map_eq_some_iff.mp found
              cases same
              obtain ⟨rfl, fits⟩ := (ih _ _).mp later
              exact ⟨rfl, .cons inside fits⟩
            · cases found
      · rintro ⟨rfl, fits⟩
        cases fits with
        | cons inside fits =>
            simp only [List.cons_append, next_byte_in_range, if_pos inside]
            rw [(ih _ _).mpr ⟨rfl, fits⟩]
            rfl

/-- The switch of scan_string has the rows of the table. -/
theorem rangesBehind_owed (current : UInt8) (large : ¬ current ≤ 0x7F) :
    rangesBehind current = Utf8.owed current := by
  have all : ∀ n < 256, ¬ n ≤ 127 → rangesBehind (UInt8.ofNat n) = Utf8.owed (UInt8.ofNat n) := by
    decide +kernel
  have here := all current.toNat current.toNat_lt
  rw [UInt8.ofNat_toNat] at here
  exact here (by simpa [UInt8.le_iff_toNat_le] using large)

theorem owed_small (current : UInt8) (small : current ≤ 0x7F) : Utf8.owed current = some [] := by
  have all : ∀ n < 128, Utf8.owed (UInt8.ofNat n) = some [] := by
    decide +kernel
  have here := all current.toNat (by simpa [UInt8.le_iff_toNat_le, Nat.lt_succ_iff] using small)
  rwa [UInt8.ofNat_toNat] at here

/-! The bytes of a code point are those of the character. -/

theorem or_low (high low shift : Nat) (small : low < 1 <<< shift) :
    high <<< shift ||| low = high <<< shift + low := by
  rw [Nat.one_shiftLeft] at small
  rw [Nat.shiftLeft_add_eq_or_of_lt small]

theorem codepointBytes_char (codepoint : Nat) (valid : codepoint.isValidChar) :
    codepointBytes codepoint = String.utf8EncodeChar (Char.ofNat codepoint) := by
  have bound : codepoint < 1114112 := by
    rcases valid with small | large <;> omega
  have mask (value : Nat) : value &&& 0x3F = value % 64 := Nat.and_two_pow_sub_one_eq_mod value 6
  have tail (value : Nat) : 0x80 ||| value % 64 = value % 64 + 128 :=
    (or_low 2 (value % 64) 6 (Nat.mod_lt _ (by decide))).trans (Nat.add_comm _ _)
  simp only [codepointBytes, String.utf8EncodeChar, Utf8.toNat_ofNat codepoint valid,
    Nat.shiftRight_eq_div_pow,
    Nat.reducePow, mask, tail]
  by_cases one : codepoint < 0x80
  · have same : codepoint ≤ 127 := by omega
    simp only [one, same, if_true]
    rfl
  · have same : ¬ codepoint ≤ 127 := by omega
    simp only [one, same, if_false]
    by_cases two : codepoint ≤ 0x7FF
    · have lead : 0xC0 ||| codepoint / 64 = 192 + codepoint / 64 := or_low 6 _ 5 (by omega)
      have whole : codepoint / 64 % 32 + 192 = 192 + codepoint / 64 := by omega
      simp only [two, if_true, lead, whole]
      rfl
    · simp only [two, if_false]
      by_cases three : codepoint ≤ 0xFFFF
      · have lead : 0xE0 ||| codepoint / 4096 = 224 + codepoint / 4096 := or_low 14 _ 4 (by omega)
        have whole : codepoint / 4096 % 16 + 224 = 224 + codepoint / 4096 := by omega
        simp only [three, if_true, lead, whole]
        rfl
      · have lead : 0xF0 ||| codepoint / 262144 = 240 + codepoint / 262144 :=
          or_low 30 _ 3 (by omega)
        have whole : codepoint / 262144 % 8 + 240 = 240 + codepoint / 262144 := by omega
        simp only [three, if_false, lead, whole]
        rfl

theorem hexDigits_lt (digits : Bytes) (codepoint : Nat) (hex : HexDigits digits codepoint) :
    codepoint < 65536 := by
  obtain ⟨_, _, _, _, _, _, _, _, _, first, second, third, fourth, rfl⟩ := hex
  have := hexValue_lt _ _ first
  have := hexValue_lt _ _ second
  have := hexValue_lt _ _ third
  have := hexValue_lt _ _ fourth
  omega

/-- What a character stands for is a code point. -/
theorem character_sequence (raw decoded : Bytes) (character : Character raw decoded) :
    Sequence decoded := by
  cases character with
  | plain unit sequence _ => exact sequence
  | simple letter byte known =>
      have ascii : ∀ pair ∈ simpleEscapes, pair.2 ≤ 0x7F := by simp [simpleEscapes]
      have small := ascii _ known
      exact (Utf8.sequence_iff _).mpr ⟨byte, [], [], rfl, owed_small byte small, .nil⟩
  | unicode digits codepoint hex plain =>
      have small := hexDigits_lt _ _ hex
      rw [codepointBytes_char codepoint (by simp only [Nat.isValidChar]; omega)]
      exact Utf8.sequence_encode _
  | surrogates first second high low _ _ inHigh inLow =>
      rw [codepointBytes_char _ (by simp only [Nat.isValidChar, Nat.shiftLeft_eq]; omega)]
      exact Utf8.sequence_encode _

theorem body_wellFormed (raw decoded : Bytes) (body : Body raw decoded) : WellFormed decoded := by
  induction body with
  | nil => exact .nil
  | cons _ decoded _ _ character _ ih => exact .cons decoded _ (character_sequence _ _ character) ih

/-! scan_string reads the grammar. -/

theorem scanUnicode_sound (input added rest : Bytes)
    (scanned : scanUnicode input = .ok (added, rest)) :
    ∃ raw, input = raw ++ rest ∧ Character (92 :: 117 :: raw) added := by
  unfold scanUnicode at scanned
  split at scanned
  · cases scanned
  · rename_i codepoint1 behind first
    obtain ⟨digits, rfl, hex⟩ := (get_codepoint_iff _ _ _).mp first
    split at scanned
    · rename_i inHigh
      split at scanned
      · split at scanned
        · cases scanned
        · rename_i codepoint2 remaining second
          obtain ⟨digits2, rfl, hex2⟩ := (get_codepoint_iff _ _ _).mp second
          split at scanned
          · rename_i inLow
            simp only [Except.ok.injEq, Prod.mk.injEq] at scanned
            obtain ⟨rfl, rfl⟩ := scanned
            exact ⟨digits ++ 92 :: 117 :: digits2, by simp,
              .surrogates digits digits2 _ _ hex hex2 inHigh inLow⟩
          · cases scanned
      · cases scanned
    · rename_i notHigh
      split at scanned
      · cases scanned
      · rename_i notLow
        simp only [Except.ok.injEq, Prod.mk.injEq] at scanned
        obtain ⟨rfl, rfl⟩ := scanned
        exact ⟨digits, rfl, .unicode digits _ hex (by omega)⟩

theorem lookup_mem {K V : Type} [BEq K] [LawfulBEq K] (key : K) (value : V) (entries : List (K × V))
    (found : entries.lookup key = some value) : (key, value) ∈ entries := by
  induction entries with
  | nil => cases found
  | cons entry rest ih =>
      obtain ⟨first, held⟩ := entry
      simp only [List.lookup_cons] at found
      split at found
      · rename_i same
        cases found
        rw [eq_of_beq same]
        exact List.mem_cons_self
      · exact List.mem_cons_of_mem _ (ih found)

theorem scanCharacter_sound (current : UInt8) (input added rest : Bytes) (inside : current ≠ 34)
    (scanned : scanCharacter current input = .ok (added, rest)) :
    ∃ raw, input = raw ++ rest ∧ Character (current :: raw) added := by
  unfold scanCharacter at scanned
  split at scanned
  · rename_i escape
    subst escape
    cases input with
    | nil => cases scanned
    | cons letter input =>
        simp only [scanEscape] at scanned
        split at scanned
        · rename_i byte known
          cases scanned
          exact ⟨[letter], rfl, .simple letter byte (lookup_mem _ _ _ known)⟩
        · split at scanned
          · rename_i unicode
            subst unicode
            obtain ⟨raw, rfl, character⟩ := scanUnicode_sound _ _ _ scanned
            exact ⟨117 :: raw, rfl, character⟩
          · cases scanned
  · rename_i escape
    split at scanned
    · cases scanned
    · rename_i control
      have visible : 0x1F < current := UInt8.not_le.mp control
      split at scanned
      · rename_i small
        cases scanned
        have unit : Sequence [current] :=
          (Utf8.sequence_iff _).mpr ⟨current, [], [], rfl, owed_small current small, .nil⟩
        exact ⟨[], rfl, .plain [current] unit (by simpa using ⟨visible, inside, escape⟩)⟩
      · rename_i large
        rw [rangesBehind_owed current large] at scanned
        split at scanned
        · rename_i more remaining found
          cases scanned
          obtain ⟨ranges, owes, later⟩ := Option.bind_eq_some_iff.mp found
          obtain ⟨rfl, fits⟩ := (next_byte_in_range_iff _ _ _ _).mp later
          have unit : Sequence (current :: more) :=
            (Utf8.sequence_iff _).mpr ⟨current, ranges, more, rfl, owes, fits⟩
          refine ⟨more, rfl, .plain _ unit fun byte member => ?_⟩
          rcases List.mem_cons.mp member with rfl | member
          · exact ⟨visible, inside, escape⟩
          · have low := Utf8.owed_low current ranges more owes fits byte member
            simp only [UInt8.lt_iff_toNat_lt, ne_eq, ← UInt8.toNat_inj, UInt8.reduceToNat]
            omega
        · cases scanned

theorem scanUnicode_complete (raw added rest : Bytes)
    (character : Character (92 :: 117 :: raw) added) :
    scanUnicode (raw ++ rest) = .ok (added, rest) := by
  generalize whole : (92 :: 117 :: raw : Bytes) = text at character
  cases character with
  | plain unit _ visible =>
      subst whole
      -- a plain character has no backslash
      exact absurd rfl (visible 92 List.mem_cons_self).2.2
  | simple letter byte known =>
      have letters : ∀ pair ∈ simpleEscapes, pair.1 ≠ 117 := by simp [simpleEscapes]
      cases whole
      exact absurd rfl (letters _ known)
  | unicode digits codepoint hex plain =>
      cases whole
      have found : get_codepoint (raw ++ rest) = some (codepoint, rest) :=
        (get_codepoint_iff _ _ _).mpr ⟨raw, rfl, hex⟩
      simp only [scanUnicode, found]
      rw [if_neg (by omega), if_neg (by omega)]
  | surrogates first second high low hex hex2 inHigh inLow =>
      simp only [List.cons_append, List.cons.injEq, true_and] at whole
      subst whole
      have found : get_codepoint (first ++ 92 :: 117 :: second ++ rest) =
          some (high, 92 :: 117 :: (second ++ rest)) :=
        (get_codepoint_iff _ _ _).mpr ⟨first, by simp, hex⟩
      have found2 : get_codepoint (second ++ rest) = some (low, rest) :=
        (get_codepoint_iff _ _ _).mpr ⟨second, rfl, hex2⟩
      simp only [scanUnicode, found, found2]
      rw [if_pos inHigh, if_pos inLow]

theorem scanCharacter_complete (raw added rest : Bytes) (character : Character raw added) :
    ∃ current more, raw = current :: more ∧ current ≠ 34 ∧
      scanCharacter current (more ++ rest) = .ok (added, rest) := by
  cases character with
  | plain unit sequence visible =>
      obtain ⟨first, ranges, more, rfl, owes, fits⟩ := (Utf8.sequence_iff _).mp sequence
      obtain ⟨control, quote, escape⟩ := visible first List.mem_cons_self
      refine ⟨first, more, rfl, quote, ?_⟩
      rw [scanCharacter, if_neg escape, if_neg (UInt8.not_le.mpr control)]
      split
      · rename_i small
        -- an ASCII byte owes no further ones
        rw [owed_small first small] at owes
        cases owes
        cases fits
        rfl
      · rename_i large
        rw [rangesBehind_owed first large, owes, Option.bind_some,
          (next_byte_in_range_iff _ _ _ _).mpr ⟨rfl, fits⟩]
  | simple letter byte known =>
      have all : ∀ pair ∈ simpleEscapes, simpleEscapes.lookup pair.1 = some pair.2 := by
        simp [simpleEscapes, List.lookup_cons]
      refine ⟨92, [letter], rfl, by decide, ?_⟩
      rw [scanCharacter, if_pos rfl]
      simp only [List.cons_append, List.nil_append, scanEscape, all _ known]
  | unicode digits codepoint hex plain =>
      exact ⟨92, 117 :: digits, rfl, by decide, scanUnicode_complete digits _ rest
        (.unicode digits codepoint hex plain)⟩
  | surrogates first second high low hex hex2 inHigh inLow =>
      exact ⟨92, 117 :: (first ++ 92 :: 117 :: second), rfl, by decide,
        scanUnicode_complete _ _ rest (.surrogates first second high low hex hex2 inHigh inLow)⟩

section Strings
variable {F : Type}

theorem scan_string_sound (token_buffer input rest : Bytes) (token : Token F)
    (scanned : scan_string token_buffer input = (token, rest))
    (good : ∀ message, token ≠ .parse_error message) :
    ∃ raw decoded, input = raw ++ 34 :: rest ∧ Body raw decoded ∧
      token = .value_string (token_buffer ++ decoded) := by
  fun_induction scan_string token_buffer input with
  | case1 token_buffer =>
      cases scanned
      exact absurd rfl (good _)
  | case2 token_buffer input =>
      cases scanned
      exact ⟨[], [], rfl, .nil, by rw [List.append_nil]⟩
  | case3 token_buffer current input _ message =>
      cases scanned
      exact absurd rfl (good _)
  | case4 token_buffer current input inside added remaining found _ ih =>
      obtain ⟨raw, rfl, character⟩ := scanCharacter_sound current input added remaining inside found
      obtain ⟨raws, decoded, rfl, body, rfl⟩ := ih scanned
      exact ⟨current :: raw ++ raws, added ++ decoded, by simp, .cons _ _ _ _ character body,
        by rw [List.append_assoc]⟩

theorem scan_string_complete (token_buffer raw decoded rest : Bytes) (body : Body raw decoded) :
    scan_string token_buffer (raw ++ 34 :: rest) =
      ((.value_string (token_buffer ++ decoded) : Token F), rest) := by
  induction body generalizing token_buffer with
  | nil =>
      rw [List.nil_append, scan_string, if_pos rfl, List.append_nil]
  | cons raw decoded raws others character _ ih =>
      obtain ⟨current, more, rfl, inside, found⟩ := scanCharacter_complete raw decoded
        (raws ++ 34 :: rest) character
      rw [List.append_assoc, List.cons_append, scan_string, if_neg inside]
      split
      · rename_i failed
        rw [found] at failed
        cases failed
      · rename_i added remaining went
        rw [found] at went
        cases went
        rw [ih, List.append_assoc]

end Strings

/-! Tokens. -/

section Lexemes
variable {F : Type} (floats : Floats F)

inductive Lexeme : Bytes → Token F → Prop where
  | begin_array : Lexeme [91] .begin_array
  | end_array : Lexeme [93] .end_array
  | begin_object : Lexeme [123] .begin_object
  | end_object : Lexeme [125] .end_object
  | name_separator : Lexeme [58] .name_separator
  | value_separator : Lexeme [44] .value_separator
  | literal_true : Lexeme [116, 114, 117, 101] .literal_true
  | literal_false : Lexeme [102, 97, 108, 115, 101] .literal_false
  | literal_null : Lexeme [110, 117, 108, 108] .literal_null
  | value_string (raw decoded : Bytes) : Body raw decoded →
      Lexeme (34 :: raw ++ [34]) (.value_string decoded)
  | number (text : Bytes) : Number text → Lexeme text (convert floats (kind text) text)

def Blank (text : Bytes) : Prop := ∀ byte ∈ text, whitespace byte = true

/-- The tokens that a lexeme may have: neither an error nor the end. -/
def Token.Proper : Token F → Prop
  | .parse_error _ => False
  | .end_of_input => False
  | _ => True

instance : DecidablePred (Token.Proper (F := F))
  | .parse_error _ | .end_of_input => .isFalse id
  | .literal_true | .literal_false | .literal_null | .value_string _ | .value_unsigned _
  | .value_integer _ | .value_float _
  | .begin_array | .begin_object | .end_array | .end_object | .name_separator | .value_separator =>
      .isTrue trivial

theorem proper_good (token : Token F) (proper : token.Proper) :
    ∀ message, token ≠ .parse_error message := by
  rintro message rfl
  exact proper

theorem proper_end (token : Token F) (proper : token.Proper) : token ≠ .end_of_input := by
  rintro rfl
  exact proper

theorem convert_proper (number_type : NumberType) (text : Bytes) :
    (convert floats number_type text).Proper := by
  cases number_type <;> simp only [convert]
  · split <;> exact trivial
  · split <;> exact trivial
  · exact trivial

theorem scan_literal_sound (return_type token : Token F) (letters input rest : Bytes)
    (scanned : scan_literal return_type letters input = (token, rest)) (proper : token.Proper) :
    input = letters ++ rest ∧ token = return_type := by
  induction letters generalizing input with
  | nil =>
      cases scanned
      exact ⟨rfl, rfl⟩
  | cons letter letters ih =>
      cases input with
      | nil =>
          cases scanned
          exact absurd proper id
      | cons current input =>
          simp only [scan_literal] at scanned
          split at scanned
          · rename_i same
            obtain ⟨rfl, rfl⟩ := ih _ scanned
            exact ⟨by rw [same]; rfl, rfl⟩
          · cases scanned
            exact absurd proper id

theorem scan_literal_complete (return_type : Token F) (letters rest : Bytes) :
    scan_literal return_type letters (letters ++ rest) = (return_type, rest) := by
  induction letters with
  | nil => rfl
  | cons letter letters ih => simpa [scan_literal] using ih

theorem scanToken_sound (current : UInt8) (input rest : Bytes) (token : Token F)
    (scanned : scanToken floats current input = (token, rest)) (proper : token.Proper) :
    ∃ text, current :: input = text ++ rest ∧ text ≠ [] ∧ Lexeme floats text token := by
  by_cases is_begin_array : current = 91
  · subst current
    cases scanned
    exact ⟨[91], rfl, by simp, .begin_array⟩
  by_cases is_end_array : current = 93
  · subst current
    cases scanned
    exact ⟨[93], rfl, by simp, .end_array⟩
  by_cases is_begin_object : current = 123
  · subst current
    cases scanned
    exact ⟨[123], rfl, by simp, .begin_object⟩
  by_cases is_end_object : current = 125
  · subst current
    cases scanned
    exact ⟨[125], rfl, by simp, .end_object⟩
  by_cases is_name_separator : current = 58
  · subst current
    cases scanned
    exact ⟨[58], rfl, by simp, .name_separator⟩
  by_cases is_value_separator : current = 44
  · subst current
    cases scanned
    exact ⟨[44], rfl, by simp, .value_separator⟩
  by_cases is_literal_true : current = 116
  · subst current
    obtain ⟨rfl, rfl⟩ := scan_literal_sound _ _ _ _ _ scanned proper
    exact ⟨[116, 114, 117, 101], rfl, by simp, .literal_true⟩
  by_cases is_literal_false : current = 102
  · subst current
    obtain ⟨rfl, rfl⟩ := scan_literal_sound _ _ _ _ _ scanned proper
    exact ⟨[102, 97, 108, 115, 101], rfl, by simp, .literal_false⟩
  by_cases is_literal_null : current = 110
  · subst current
    obtain ⟨rfl, rfl⟩ := scan_literal_sound _ _ _ _ _ scanned proper
    exact ⟨[110, 117, 108, 108], rfl, by simp, .literal_null⟩
  by_cases is_string : current = 34
  · subst current
    obtain ⟨raw, decoded, rfl, body, rfl⟩ := scan_string_sound _ _ _ _ scanned
      (proper_good token proper)
    exact ⟨34 :: raw ++ [34], by simp, by simp, .value_string raw decoded body⟩
  rw [scanToken, if_neg is_begin_array, if_neg is_end_array, if_neg is_begin_object,
    if_neg is_end_object,
    if_neg is_name_separator, if_neg is_value_separator, if_neg is_literal_true,
      if_neg is_literal_false,
    if_neg is_literal_null, if_neg is_string] at scanned
  by_cases began : current = 45 ∨ CNumbers.digit current = true
  · rw [if_pos began] at scanned
    obtain ⟨text, same, some_, number, rfl⟩ := scan_number_sound floats _ _ _ _ began scanned
      (proper_good token proper)
    exact ⟨text, same, some_, .number text number⟩
  · -- the end of the input, and what begins no token
    rw [if_neg began] at scanned
    split at scanned <;>
    · cases scanned
      exact absurd proper id

/-- A number begins with none of the bytes that the switch knows. -/
theorem number_first (current : UInt8) (began : current = 45 ∨ CNumbers.digit current = true) :
    whitespace current = false ∧ current ∉
      ([91, 93, 123, 125, 58, 44, 116, 102, 110, 34, 0] : Bytes) := by
  have all : ∀ n < 256, (UInt8.ofNat n = 45 ∨ CNumbers.digit (UInt8.ofNat n) = true) →
      whitespace (UInt8.ofNat n) = false ∧
        UInt8.ofNat n ∉ ([91, 93, 123, 125, 58, 44, 116, 102, 110, 34, 0] : Bytes) := by
    decide +kernel
  have here := all current.toNat current.toNat_lt
  rw [UInt8.ofNat_toNat] at here
  exact here began

theorem scanToken_complete (text rest : Bytes) (token : Token F) (lexeme : Lexeme floats text token)
    (stops : Number text → Stops rest) :
    ∃ current more, text = current :: more ∧ whitespace current = false ∧
      scanToken floats current (more ++ rest) = (token, rest) := by
  cases lexeme with
  | begin_array | end_array | begin_object | end_object | name_separator | value_separator =>
      exact ⟨_, [], rfl, rfl, rfl⟩
  | literal_true =>
      exact ⟨116, [114, 117, 101], rfl, rfl, scan_literal_complete _ [114, 117, 101] rest⟩
  | literal_false =>
      exact ⟨102, [97, 108, 115, 101], rfl, rfl, scan_literal_complete _ [97, 108, 115, 101] rest⟩
  | literal_null =>
      exact ⟨110, [117, 108, 108], rfl, rfl, scan_literal_complete _ [117, 108, 108] rest⟩
  | value_string raw decoded body =>
      refine ⟨34, raw ++ [34], rfl, rfl, ?_⟩
      rw [List.append_assoc]
      exact scan_string_complete [] raw decoded rest body
  | number text number =>
      obtain ⟨current, more, rfl, began, scanned⟩ := scan_number_complete floats text rest number
        (stops number)
      obtain ⟨blank, others⟩ := number_first current began
      refine ⟨current, more, rfl, blank, ?_⟩
      simp only [List.mem_cons, List.not_mem_nil, or_false, not_or] at others
      obtain ⟨one, two, three, four, five, six, seven, eight, nine, ten, _⟩ := others
      rw [scanToken, if_neg one, if_neg two, if_neg three, if_neg four, if_neg five, if_neg six,
        if_neg seven,
        if_neg eight,
        if_neg nine, if_neg ten, if_pos began]
      exact scanned

theorem dropWhile_blank (input : Bytes) :
    ∃ blank, input = blank ++ input.dropWhile whitespace ∧ Blank blank :=
  ⟨input.takeWhile whitespace, (List.takeWhile_append_dropWhile).symm,
    fun _ member => List.mem_takeWhile_imp member⟩

theorem scan_blank (blank input : Bytes) (isBlank : Blank blank) :
    scan floats (blank ++ input) = scan floats input := by
  rw [scan, List.dropWhile_append_of_pos isBlank]
  rfl

/-- What scan takes is whitespace and a lexeme. -/
theorem scan_sound (input rest : Bytes) (token : Token F)
    (scanned : scan floats input = (token, rest))
    (proper : token.Proper) :
    ∃ blank text, input = blank ++ text ++ rest ∧ Blank blank ∧ text ≠ [] ∧
      Lexeme floats text token := by
  obtain ⟨blank, whole, isBlank⟩ := dropWhile_blank input
  unfold scan at scanned
  split at scanned
  · cases scanned
    exact absurd proper id
  · rename_i current behind split
    obtain ⟨text, same, some_, lexeme⟩ :=
      scanToken_sound floats current behind rest token scanned proper
    refine ⟨blank, text, ?_, isBlank, some_, lexeme⟩
    rw [List.append_assoc, ← same, ← split]
    exact whole

/-- It takes every one, if a number ends where its text does. -/
theorem scan_complete (blank text rest : Bytes) (token : Token F) (isBlank : Blank blank)
    (lexeme : Lexeme floats text token)
    (stops : Number text → Stops rest) : scan floats (blank ++ text ++ rest) = (token, rest) := by
  obtain ⟨current, more, rfl, visible, scanned⟩ :=
    scanToken_complete floats text rest token lexeme stops
  rw [List.append_assoc, scan_blank floats blank _ isBlank]
  simpa [scan, List.dropWhile_cons, visible] using scanned

theorem scan_shorter (input : Bytes) (proper : (scan floats input).1.Proper) :
    (scan floats input).2.length < input.length := by
  obtain ⟨blank, text, whole, _, some_, _⟩ := scan_sound floats input (scan floats input).2
    (scan floats input).1 rfl proper
  have positive := List.length_pos_iff.mpr some_
  have lengths := congrArg List.length whole
  simp only [List.length_append] at lengths
  omega

theorem scan_literal_end (return_type : Token F) (letters input : Bytes)
    (other : return_type ≠ .end_of_input) :
    (scan_literal return_type letters input).1 ≠ .end_of_input := by
  induction letters generalizing input with
  | nil => exact other
  | cons letter letters ih =>
      cases input with
      | nil => simp [scan_literal]
      | cons current input =>
          simp only [scan_literal]
          split
          · exact ih input
          · simp

theorem scan_string_end (token_buffer input : Bytes) :
    (scan_string token_buffer input).1 ≠ (.end_of_input : Token F) := by
  fun_induction scan_string (F := F) token_buffer input with
  | case1 | case2 | case3 => simp
  | case4 _ _ _ _ _ _ _ _ ih => exact ih

theorem scan_number_end (current : UInt8) (input : Bytes) :
    (scan_number floats current input).1 ≠ .end_of_input := by
  simp only [scan_number]
  split
  · simp
  · exact proper_end _ (convert_proper floats _ _)

theorem ite_other (c : Prop) [Decidable c] (yes no : Token F × Bytes)
    (first : yes.1 ≠ .end_of_input)
    (second : no.1 ≠ .end_of_input) : (if c then yes else no).1 ≠ .end_of_input := by
  split
  · exact first
  · exact second

theorem scanToken_end (current : UInt8) (input : Bytes)
    (ended : (scanToken floats current input).1 = .end_of_input) :
    current = 0 := by
  by_contra other
  revert ended
  rw [scanToken]
  iterate 6 refine ite_other _ _ _ (by simp) ?_
  iterate 3 refine ite_other _ _ _ (scan_literal_end _ _ _ (by simp)) ?_
  refine ite_other _ _ _ (scan_string_end _ _) (ite_other _ _ _ (scan_number_end floats _ _) ?_)
  rw [if_neg other]
  simp

/-- The end of the input is the end of the bytes or a NUL, behind nothing but whitespace. -/
theorem scan_end_iff (input : Bytes) :
    (scan floats input).1 = .end_of_input ↔ ∃ blank rest, input = blank ++ rest ∧ Blank blank ∧
    (rest = [] ∨ rest.head? = some 0) := by
  constructor
  · intro ended
    obtain ⟨blank, whole, isBlank⟩ := dropWhile_blank input
    refine ⟨blank, _, whole, isBlank, ?_⟩
    unfold scan at ended
    split at ended
    · rename_i empty
      exact .inl empty
    · rename_i current behind split
      rw [split, scanToken_end floats current behind ended]
      exact .inr rfl
  · rintro ⟨blank, rest, rfl, isBlank, ended⟩
    rw [scan_blank floats blank rest isBlank]
    cases rest with
    | nil => rfl
    | cons first rest =>
        have zero : first = 0 := by simpa using ended
        subst zero
        rfl

end Lexemes

end MuduoChat.JsonLexer
