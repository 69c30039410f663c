import MuduoChat.JsonGrammar
import MuduoChat.JsonSerializer

/-!
What json::parse makes of the text that dump has written: the value itself, up to the numbers that
have two representations. A number_integer that is not negative comes back as a number_unsigned,
and a float that is not finite has been written as null.
-/

namespace MuduoChat.JsonRoundTrip
open JsonValue
open JsonGrammar (Derives Phrase Mark Text)
open JsonLexer (Body Blank Character HexDigits Lexeme Number Unsigned Fraction Exponent Many convert kind hexValue)
open JsonSerializer (escaped quote text textMembers textValues dump_float hexDigit unicodeEscape)
open SortedMap (Sorted assignAll)
open SqlStatements (digits decimal)
open SqlText (ascii)
open Utf8 (Sequence WellFormed)

/-! Strings. -/

theorem hexValue_hexDigit : ∀ digit < 16, hexValue (hexDigit digit) = some digit := by
  decide

theorem unicodeEscape_character (codepoint : Nat) (small : codepoint < 0x80) :
    Character (unicodeEscape codepoint) [UInt8.ofNat codepoint] := by
  have hex : HexDigits [hexDigit (codepoint / 0x1000 % 16), hexDigit (codepoint / 0x100 % 16),
      hexDigit
      (codepoint / 0x10 % 16),
      hexDigit (codepoint % 16)] codepoint :=
    ⟨_, _, _, _, _, _, _, _, rfl, hexValue_hexDigit _ (Nat.mod_lt _ (by decide)),
      hexValue_hexDigit _
      (Nat.mod_lt _ (by decide)),
      hexValue_hexDigit _ (Nat.mod_lt _ (by decide)), hexValue_hexDigit _
        (Nat.mod_lt _ (by decide)), by omega⟩
  have character := Character.unicode _ codepoint hex (by omega)
  rwa [JsonLexer.codepointBytes, if_pos small] at character

theorem escaped_character (byte : UInt8) (small : byte ≤ 0x7F) :
    Character (escaped byte) [byte] := by
  have simple (letter : UInt8) (known : (letter, byte) ∈ JsonLexer.simpleEscapes) :
      Character [92, letter] [byte] :=
    .simple letter byte known
  unfold escaped
  split
  · subst byte
    exact simple 98 (by decide)
  split
  · subst byte
    exact simple 116 (by decide)
  split
  · subst byte
    exact simple 110 (by decide)
  split
  · subst byte
    exact simple 102 (by decide)
  split
  · subst byte
    exact simple 114 (by decide)
  split
  · subst byte
    exact simple 34 (by decide)
  split
  · subst byte
    exact simple 92 (by decide)
  rename_i quotation backslash
  split
  · rename_i control
    have character := unicodeEscape_character byte.toNat
      (by simp only [UInt8.le_iff_toNat_le, UInt8.reduceToNat] at control; omega)
    rwa [UInt8.ofNat_toNat] at character
  · rename_i visible
    have unit : Sequence [byte] :=
      (Utf8.sequence_iff _).mpr ⟨byte, [], [], rfl, JsonLexer.owed_small byte small, .nil⟩
    exact .plain [byte] unit (by simpa using ⟨UInt8.not_le.mp visible, quotation, backslash⟩)

theorem escaped_large_unit (unit : Bytes) (large : ∀ byte ∈ unit, 128 ≤ byte.toNat) :
    unit.flatMap escaped = unit := by
  induction unit with
  | nil => rfl
  | cons byte rest ih =>
      rw [List.flatMap_cons, JsonSerializer.escaped_large byte (large byte List.mem_cons_self),
        ih fun other member => large other (List.mem_cons_of_mem _ member)]
      rfl

theorem sequence_character (unit : Bytes) (sequence : Sequence unit) :
    Character (unit.flatMap escaped) unit := by
  obtain ⟨first, ranges, rest, rfl, owes, fits⟩ := (Utf8.sequence_iff _).mp sequence
  by_cases small : first ≤ 0x7F
  · rw [JsonLexer.owed_small first small] at owes
    cases owes
    cases fits
    rw [List.flatMap_cons, List.flatMap_nil, List.append_nil]
    exact escaped_character first small
  · have large : ∀ byte ∈ first :: rest, 128 ≤ byte.toNat := by
      intro byte member
      rcases List.mem_cons.mp member with rfl | member
      · simp only [UInt8.le_iff_toNat_le, UInt8.reduceToNat] at small
        omega
      · exact Utf8.owed_low first ranges rest owes fits byte member
    rw [escaped_large_unit _ large]
    refine .plain _ sequence fun byte member => ?_
    have := large byte member
    simp only [UInt8.lt_iff_toNat_lt, ne_eq, ← UInt8.toNat_inj, UInt8.reduceToNat]
    omega

/-- The escapes of a UTF-8 string stand for that string. -/
theorem escaped_body (s : Bytes) (formed : WellFormed s) : Body (s.flatMap escaped) s := by
  induction formed with
  | nil => exact .nil
  | cons unit rest sequence _ ih =>
      rw [List.flatMap_append]
      exact .cons _ _ _ _ (sequence_character unit sequence) ih

/-! Numbers. -/

theorem digits_all (n : Nat) : ∀ byte ∈ digits n, CNumbers.digit byte = true := by
  intro byte member
  have bounds := (SqlText.number_digits.mp (SqlStatements.digits_number n)).2 byte member
  simpa [CNumbers.digit] using bounds

theorem digits_value (n : Nat) : CNumbers.value (digits n) = n := by
  have back := SqlStatements.digits_value n
  have positive : decide ((n : Int) < 0) = false := by simp
  rw [positive, Int.natAbs_natCast] at back
  exact Int.ofNat_inj.mp back

theorem digits_first (n : Nat) (positive : 0 < n) :
    ∃ first rest, digits n = first :: rest ∧ first ≠ 48 := by
  induction n using Nat.strongRecOn with
  | ind n ih =>
    by_cases small : n < 10
    · refine ⟨UInt8.ofNat (48 + n), [], JsonSerializer.digits_small n small, ?_⟩
      simp only [ne_eq, ← UInt8.toNat_inj, UInt8.toNat_ofNat', UInt8.reduceToNat]
      omega
    · obtain ⟨first, rest, same, other⟩ := ih (n / 10) (by omega) (by omega)
      exact ⟨first, rest ++ [UInt8.ofNat (48 + n % 10)],
        by rw [JsonSerializer.digits_large n (by omega), same]; rfl, other⟩

theorem digits_unsigned (n : Nat) : Unsigned (digits n) := by
  have fraction : Fraction [] := .inl (.inl rfl)
  by_cases zero : n = 0
  · subst zero
    exact .inl ⟨[], by decide, fraction⟩
  · obtain ⟨first, rest, same, other⟩ := digits_first n (Nat.pos_of_ne_zero zero)
    have all := digits_all n
    rw [same] at all ⊢
    exact .inr ⟨first, rest, rfl, all first List.mem_cons_self, other, rest, [],
      (List.append_nil rest).symm,
      fun byte member => all byte (List.mem_cons_of_mem _ member), fraction⟩

theorem digits_plain (n : Nat) :
    46 ∉ digits n ∧ 101 ∉ digits n ∧ 69 ∉ digits n ∧ 45 ∉ digits n := by
  have all := digits_all n
  refine ⟨?_, ?_, ?_, ?_⟩ <;>
  · intro member
    exact absurd (all _ member) (by decide)

theorem digits_kind (n : Nat) : kind (digits n) = .value_unsigned := by
  obtain ⟨dot, small, capital, minus⟩ := digits_plain n
  have head : (digits n).head? ≠ some 45 := fun same => minus (List.mem_of_head? same)
  simp [kind, dot, small, capital, head]

theorem negative_kind (n : Nat) : kind (45 :: digits n) = .value_integer := by
  obtain ⟨dot, small, capital, _⟩ := digits_plain n
  simp [kind, dot, small, capital]

section Values
variable {F : Type} (floats : Floats F)

theorem convert_digits (x : UInt64) :
    convert floats (kind (digits x.toNat)) (digits x.toNat) = .value_unsigned x := by
  have bound := x.toNat_lt
  simp only [digits_kind, convert, digits_value]
  rw [if_pos (by omega), UInt64.ofNat_toNat]

theorem convert_negative (x : Int64) (negative : x.toInt < 0) :
    convert floats (kind (45 :: digits x.toInt.natAbs))
      (45 :: digits x.toInt.natAbs) = .value_integer x := by
  have bound := x.le_toInt
  simp only [negative_kind, convert, List.tail_cons, digits_value]
  rw [if_pos (by omega)]
  have back : (-(x.toInt.natAbs : Int)) = x.toInt := by omega
  rw [back, Int64.ofInt_toInt]

/-! The value that comes back. -/

mutual

def reread : Value F → Value F
  | .object members => .object (rereadMembers members)
  | .array values => .array (rereadValues values)
  | .number_integer value =>
      if 0 ≤ value.toInt then .number_unsigned value.toUInt64 else .number_integer value
  | .number_float value => if floats.isfinite value then .number_float value else .null
  | value => value

def rereadMembers : List (Bytes × Value F) → List (Bytes × Value F)
  | [] => []
  | (key, value) :: rest => (key, reread value) :: rereadMembers rest

def rereadValues : List (Value F) → List (Value F)
  | [] => []
  | value :: rest => reread value :: rereadValues rest

end

/-- to_chars writes a number with a fraction or an exponent, and strtod reads that number again. -/
def RoundTrips (value : Value F) : Prop :=
  ∀ x ∈ value.doubles, floats.isfinite x = true →
    Number (floats.to_chars x) ∧ kind (floats.to_chars x) = .value_float ∧
      floats.strtod (floats.to_chars x) = x

/-- The texts behind a value of an array, up to its bracket. -/
def closingValues : List (Value F) → Bytes
  | [] => [93]
  | value :: rest => 44 :: (text floats value ++ closingValues rest)

def closingMembers : List (Bytes × Value F) → Bytes
  | [] => [125]
  | (key, value) :: rest => 44 :: (quote key ++ 58 :: (text floats value ++ closingMembers rest))

theorem textValues_closing (value : Value F) (rest : List (Value F)) :
    textValues floats (value :: rest) ++ [93] = text floats value ++ closingValues floats rest := by
  induction rest generalizing value with
  | nil => simp only [textValues, closingValues]
  | cons next rest ih =>
      simp only [textValues, closingValues, List.append_assoc, List.cons_append]
      rw [ih]

theorem textMembers_closing (key : Bytes) (value : Value F) (rest : List (Bytes × Value F)) :
    textMembers floats ((key, value) :: rest) ++ [125] = quote key ++ 58 ::
      (text floats value ++ closingMembers floats rest) := by
  induction rest generalizing key value with
  | nil => simp only [textMembers, closingMembers, List.append_assoc, List.cons_append]
  | cons next rest ih =>
      obtain ⟨next_key, next_value⟩ := next
      simp only [textMembers, closingMembers, List.append_assoc, List.cons_append]
      rw [ih]

theorem blank_nil : Blank [] := fun _ member => absurd member List.not_mem_nil

theorem atom_derives (text : Bytes) (token : JsonLexer.Token F) (v : Value F)
    (lexeme : Lexeme floats text token)
    (known : JsonGrammar.atom floats token = some v) : Derives floats (.value v) text :=
  .atom [] text token v blank_nil lexeme known

theorem number_derives (text : Bytes) (v : Value F) (number : Number text)
    (known : JsonGrammar.atom floats (convert floats (kind text) text) = some v) :
    Derives floats (.value v) text :=
  atom_derives floats text _ v (.number text number) known

theorem integer_derives (x : Int64) :
    Derives floats (.value (reread floats (.number_integer x))) (decimal x.toInt) := by
  rw [reread, decimal]
  by_cases positive : 0 ≤ x.toInt
  · rw [if_pos positive, if_neg (by omega), List.nil_append]
    have value := JsonSerializer.toInt_toUInt64 x
    have same : x.toInt.natAbs = x.toUInt64.toNat := by
      have := x.toUInt64.toNat_lt
      split at value <;> omega
    rw [same]
    exact number_derives floats _ _ (.inl (digits_unsigned _)) (by rw [convert_digits]; rfl)
  · rw [if_neg positive, if_pos (by omega)]
    exact number_derives floats _ _ (.inr ⟨_, rfl, digits_unsigned _⟩)
      (by rw [List.singleton_append, convert_negative floats x (by omega)]; rfl)

theorem float_derives (x : F) (roundTrips : RoundTrips floats (.number_float x)) :
    Derives floats (.value (reread floats (.number_float x))) (dump_float floats x) := by
  rw [reread, dump_float]
  by_cases finite : floats.isfinite x = true
  · obtain ⟨number, float, back⟩ := roundTrips x List.mem_cons_self finite
    rw [if_pos finite, if_pos finite]
    refine number_derives floats _ _ number ?_
    rw [float, convert, back, JsonGrammar.atom, if_pos finite]
  · rw [if_neg finite, if_neg finite]
    exact atom_derives floats _ _ _ .literal_null rfl

theorem values_derive (values : List (Value F))
    (each : ∀ value ∈ values, Derives floats (.value (reread floats value)) (text floats value)) :
    Derives floats (.elements (rereadValues floats values)) (closingValues floats values) := by
  induction values with
  | nil => exact .endArray [] blank_nil
  | cons value rest ih =>
      exact .element [] _ _ _ _ blank_nil (each _ List.mem_cons_self)
        (ih fun other member => each other (List.mem_cons_of_mem _ member))

theorem members_derive (members : List (Bytes × Value F))
    (keys : ∀ entry ∈ members, WellFormed entry.1)
    (each : ∀ entry ∈ members, Derives floats (.value (reread floats entry.2))
      (text floats entry.2)) :
    Derives floats (.members (rereadMembers floats members)) (closingMembers floats members) := by
  induction members with
  | nil => exact .endObject [] blank_nil
  | cons entry rest ih =>
      have others := ih (fun other member => keys other (List.mem_cons_of_mem _ member))
        (fun other member => each other (List.mem_cons_of_mem _ member))
      have derived := Derives.member [] [] _ [] _ _ _ _ _ blank_nil blank_nil
        (escaped_body entry.1 (keys _ List.mem_cons_self))
        blank_nil (each _ List.mem_cons_self) others
      simpa only [closingMembers, rereadMembers, quote, List.nil_append, List.cons_append,
        List.append_assoc] using derived

theorem rereadMembers_map (members : List (Bytes × Value F)) :
    rereadMembers floats members = members.map fun entry => (entry.1, reread floats entry.2) := by
  induction members with
  | nil => rfl
  | cons entry rest ih => rw [rereadMembers, ih, List.map_cons]

theorem rereadMembers_sorted (members : List (Bytes × Value F)) (sorted : Sorted members) :
    Sorted (rereadMembers floats members) := by
  rw [rereadMembers_map]
  exact List.pairwise_map.mpr sorted

/-- The text that dump writes is a JSON text for the value that comes back. -/
theorem text_derives (value : Value F) (roundTrips : RoundTrips floats value)
    (formed : ∀ s ∈ value.texts, WellFormed s)
    (ordered : value.Ordered) : Derives floats (.value (reread floats value))
    (text floats value) := by
  induction value using Value.induct with
  | null => exact atom_derives floats _ _ _ .literal_null rfl
  | boolean value =>
      cases value with
      | true => exact atom_derives floats _ _ _ .literal_true rfl
      | false => exact atom_derives floats _ _ _ .literal_false rfl
  | string s =>
      have body := escaped_body s (formed s List.mem_cons_self)
      exact atom_derives floats _ _ _ (.value_string _ s body) rfl
  | number_integer x => exact integer_derives floats x
  | number_unsigned x =>
      exact number_derives floats _ _ (.inl (digits_unsigned _)) (by rw [text, convert_digits]; rfl)
  | number_float x => exact float_derives floats x roundTrips
  | array values each =>
      simp only [Value.texts, mem_textsOfValues] at formed
      simp only [RoundTrips, Value.doubles, mem_doublesOfValues] at roundTrips
      simp only [Value.Ordered, orderedValues_iff] at ordered
      have derived : ∀ value ∈ values, Derives floats (.value (reread floats value))
          (text floats value) :=
        fun value member => each value member (fun x inside => roundTrips x ⟨value, member, inside⟩)
          (fun s inside => formed s ⟨value, member, inside⟩) (ordered value member)
      cases values with
      | nil => exact .emptyArray [] [] blank_nil blank_nil
      | cons value rest =>
          rw [text, List.cons_append, textValues_closing]
          exact .array [] _ _ _ _ blank_nil (derived _ List.mem_cons_self)
            (values_derive floats rest fun other member => derived other
              (List.mem_cons_of_mem _ member))
  | object members each =>
      simp only [Value.texts, mem_textsOfMembers] at formed
      simp only [RoundTrips, Value.doubles, mem_doublesOfMembers] at roundTrips
      simp only [Value.Ordered, orderedMembers_iff] at ordered
      obtain ⟨sorted, ordered⟩ := ordered
      have keys : ∀ entry ∈ members, WellFormed entry.1 := fun entry member =>
        formed _ ⟨entry, member, .inl rfl⟩
      have derived : ∀ entry ∈ members, Derives floats (.value (reread floats entry.2))
          (text floats entry.2) :=
        fun entry member => each entry member (fun x inside => roundTrips x ⟨entry, member, inside⟩)
          (fun s inside => formed s ⟨entry, member, .inr inside⟩) (ordered entry member)
      -- the members are sorted, so assigning them one after the other builds the same map
      have back := SortedMap.assignAll_sorted _ (rereadMembers_sorted floats members sorted)
      rw [reread]
      cases members with
      | nil => exact .emptyObject [] [] blank_nil blank_nil
      | cons entry rest =>
          obtain ⟨key, value⟩ := entry
          rw [text, List.cons_append, textMembers_closing, ← back]
          have whole := Derives.object [] [] _ [] _ _ _ _ _ blank_nil blank_nil
            (escaped_body key (keys _ List.mem_cons_self)) blank_nil
            (derived _ List.mem_cons_self)
              (members_derive floats rest (fun other member => keys other
                (List.mem_cons_of_mem _ member))
              (fun other member => derived other (List.mem_cons_of_mem _ member)))
          simpa only [rereadMembers, quote, List.nil_append, List.cons_append,
            List.append_assoc] using whole

theorem parse_written (value : Value F) (roundTrips : RoundTrips floats value)
    (formed : ∀ s ∈ value.texts, WellFormed s)
    (ordered : value.Ordered) : JsonParser.parse floats
    (text floats value) = .ok (reread floats value) := by
  rw [JsonGrammar.parse_text]
  exact ⟨[], _, [], [], by simp, .inl rfl, text_derives floats value roundTrips formed ordered,
    blank_nil, .inl rfl⟩

/-! A value that comes back is dumped as before. -/

theorem rereadValues_map (values : List (Value F)) :
    rereadValues floats values = values.map (reread floats) := by
  induction values with
  | nil => rfl
  | cons value rest ih => rw [rereadValues, ih, List.map_cons]

theorem textMembers_congr (members : List (Bytes × Value F)) (change : Value F → Value F)
    (each : ∀ entry ∈ members, text floats (change entry.2) = text floats entry.2) :
    textMembers floats (members.map fun entry => (entry.1, change entry.2)) =
      textMembers floats members := by
  induction members with
  | nil => rfl
  | cons entry rest ih =>
      obtain ⟨here, others⟩ := List.forall_mem_cons.mp each
      have later := ih others
      cases rest with
      | nil => simp only [List.map_cons, List.map_nil, textMembers, here]
      | cons next rest =>
          simp only [List.map_cons] at later
          simp only [List.map_cons, textMembers, here, later]

theorem textValues_congr (values : List (Value F)) (change : Value F → Value F)
    (each : ∀ value ∈ values, text floats (change value) = text floats value) :
    textValues floats (values.map change) = textValues floats values := by
  induction values with
  | nil => rfl
  | cons value rest ih =>
      obtain ⟨here, others⟩ := List.forall_mem_cons.mp each
      have later := ih others
      cases rest with
      | nil => simp only [List.map_cons, List.map_nil, textValues, here]
      | cons next rest =>
          simp only [List.map_cons] at later
          simp only [List.map_cons, textValues, here, later]

/-- A signed number that is not negative, as an unsigned one. -/
theorem toUInt64_value (x : Int64) (positive : 0 ≤ x.toInt) :
    (x.toUInt64.toNat : Int) = x.toInt := by
  have value := JsonSerializer.toInt_toUInt64 x
  have := x.toUInt64.toNat_lt
  split at value <;> omega

theorem text_reread (value : Value F) : text floats (reread floats value) = text floats value := by
  induction value using Value.induct with
  | object members each =>
      rw [reread, rereadMembers_map, text, text,
        textMembers_congr floats members (reread floats) each]
  | array values each =>
      rw [reread, rereadValues_map, text, text, textValues_congr floats values (reread floats) each]
  | number_integer x =>
      rw [reread]
      split
      · rename_i positive
        have value := toUInt64_value x positive
        -- a positive signed number comes back unsigned, with the same digits
        have same : x.toInt.natAbs = x.toUInt64.toNat := by omega
        rw [text, text, SqlStatements.decimal, if_neg (by omega), List.nil_append, same]
      · rfl
  | number_float x =>
      rw [reread]
      split
      · rfl
      · rename_i infinite
        rw [text, text, JsonSerializer.dump_float, if_neg infinite]
  | null | string _ | boolean _ | number_unsigned _ => rfl

theorem reread_reread (value : Value F) :
    reread floats (reread floats value) = reread floats value := by
  induction value using Value.induct with
  | object members each =>
      simp only [reread, rereadMembers_map, List.map_map]
      exact congrArg Value.object (List.map_congr_left
        fun entry member => by simp [each entry member])
  | array values each =>
      simp only [reread, rereadValues_map, List.map_map]
      exact congrArg Value.array (List.map_congr_left
        fun value member => by simp [each value member])
  | number_integer x =>
      rw [reread]
      split
      · rfl
      · rename_i negative
        rw [reread, if_neg negative]
  | number_float x =>
      rw [reread]
      split
      · rename_i finite
        rw [reread, if_pos finite]
      · rfl
  | null | string _ | boolean _ | number_unsigned _ => rfl

theorem reread_texts (value : Value F) : (reread floats value).texts = value.texts := by
  induction value using Value.induct with
  | object members each =>
      rw [reread, rereadMembers_map, Value.texts, Value.texts]
      induction members with
      | nil => rfl
      | cons entry rest ih =>
          obtain ⟨here, others⟩ := List.forall_mem_cons.mp each
          simp only [List.map_cons, textsOfMembers, here, ih others]
  | array values each =>
      rw [reread, rereadValues_map, Value.texts, Value.texts]
      induction values with
      | nil => rfl
      | cons value rest ih =>
          obtain ⟨here, others⟩ := List.forall_mem_cons.mp each
          simp only [List.map_cons, textsOfValues, here, ih others]
  | number_integer x =>
      rw [reread]
      split <;> rfl
  | number_float x =>
      rw [reread]
      split <;> rfl
  | null | string _ | boolean _ | number_unsigned _ => rfl

theorem reread_ordered (value : Value F) (ordered : value.Ordered) :
    (reread floats value).Ordered := by
  induction value using Value.induct with
  | object members each =>
      obtain ⟨sorted, ordered⟩ := ordered
      refine ⟨rereadMembers_sorted floats members sorted, ?_⟩
      rw [orderedMembers_iff] at ordered ⊢
      rw [rereadMembers_map, List.forall_mem_map]
      exact fun entry member => each entry member (ordered entry member)
  | array values each =>
      rw [Value.Ordered, orderedValues_iff] at ordered
      rw [reread, Value.Ordered, orderedValues_iff, rereadValues_map, List.forall_mem_map]
      exact fun value member => each value member (ordered value member)
  | number_integer x =>
      rw [reread]
      split <;> trivial
  | number_float x =>
      rw [reread]
      split <;> trivial
  | null | string _ | boolean _ | number_unsigned _ => trivial

theorem reread_doubles (value : Value F) (x : F) (member : x ∈ (reread floats value).doubles) :
    x ∈ value.doubles := by
  induction value using Value.induct with
  | object members each =>
      simp only [reread, Value.doubles, mem_doublesOfMembers, rereadMembers_map,
        List.mem_map] at member ⊢
      obtain ⟨_, ⟨entry, inside, rfl⟩, here⟩ := member
      exact ⟨entry, inside, each entry inside here⟩
  | array values each =>
      simp only [reread, Value.doubles, mem_doublesOfValues, rereadValues_map,
        List.mem_map] at member ⊢
      obtain ⟨_, ⟨value, inside, rfl⟩, here⟩ := member
      exact ⟨value, inside, each value inside here⟩
  | number_integer y =>
      rw [reread] at member
      split at member <;> cases member
  | number_float y =>
      rw [reread] at member
      split at member
      · exact member
      · cases member
  | null | string _ | boolean _ | number_unsigned _ => cases member

theorem reread_roundTrips (value : Value F) (roundTrips : RoundTrips floats value) :
    RoundTrips floats (reread floats value) :=
  fun x member => roundTrips x (reread_doubles floats value x member)

end Values

theorem dump_written {F : Type} (floats : Floats F) (value : Value F)
    (formed : ∀ s ∈ value.texts, WellFormed s) :
    JsonSerializer.dump floats value = .ok (text floats value) :=
  (JsonSerializer.dump_dumped floats value).writes formed

/-- The text of dump is a JSON text; the value that it is read as is dumped to the same text, and
read as itself. -/
theorem written_read {F : Type} (floats : Floats F) (value : Value F)
    (roundTrips : RoundTrips floats value)
    (formed : ∀ s ∈ value.texts, WellFormed s) (ordered : value.Ordered) :
    ∃ written, JsonSerializer.dump floats value = .ok written ∧
      JsonParser.parse floats written = .ok (reread floats value) ∧
      JsonSerializer.dump floats (reread floats value) = .ok written ∧
        reread floats (reread floats value) = reread floats value := by
  refine ⟨text floats value, dump_written floats value formed,
    parse_written floats value roundTrips formed ordered, ?_,
    reread_reread floats value⟩
  rw [dump_written floats _ (by rw [reread_texts]; exact formed), text_reread]

/-- Doubles that are kept as their text. -/
def keptTexts : Floats Bytes where
  strtod text := text
  isfinite _ := true
  to_chars text := text

def report : Value Bytes :=
  .object [(ascii "a", .array [.number_integer (-7), .number_integer 7, .null]),
    (ascii "b", .string (ascii "\"\n"))]

theorem report_ordered : report.Ordered := by
  refine ⟨.cons (fun entry member => ?_)
    (.cons (fun _ member => absurd member List.not_mem_nil) .nil),
    ⟨trivial, trivial, trivial, trivial⟩, trivial, trivial⟩
  obtain rfl := List.mem_singleton.mp member
  decide

theorem written_read_report :
    ∃ written, JsonSerializer.dump keptTexts report = .ok written ∧
      JsonParser.parse keptTexts written = .ok (reread keptTexts report) ∧
      JsonSerializer.dump keptTexts (reread keptTexts report) = .ok written ∧
      reread keptTexts (reread keptTexts report) = reread keptTexts report :=
  written_read keptTexts report (fun _ member => absurd member List.not_mem_nil)
    (by decide) report_ordered

end MuduoChat.JsonRoundTrip
