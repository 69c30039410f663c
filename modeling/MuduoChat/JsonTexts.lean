import MuduoChat.Framing
import MuduoChat.JsonRoundTrip
import MuduoChat.Nesting

/-!
What every text that json::parse accepts has in common, and every value that it returns. The value
can be dumped again; the text is over at its first NUL; and the text of an object or an array is
neither the beginning nor the end of another.
-/

namespace MuduoChat.JsonTexts
open JsonValue
open Framing (firstBody)
open JsonGrammar (Derives Phrase Mark Text)
open JsonRoundTrip (reread RoundTrips)
open JsonSerializer (text)
open JsonLexer (Blank Body Character HexDigits Lexeme Number Unsigned Fraction Exponent Signed AtLeastOne Many
  whitespace hexValue)
open Nesting (walk Balanced Closed)
open SortedMap (Sorted assignAll)
open Utf8 (WellFormed)

variable {F : Type} (floats : Floats F)

/-! The values. -/

/-- What dump and the map of an object need. -/
structure Proper (value : Value F) : Prop where
  formed : ∀ s ∈ value.texts, WellFormed s
  ordered : value.Ordered

def ProperPhrase : Phrase F → Prop
  | .value v => Proper v
  | .elements values => ∀ value ∈ values, Proper value
  | .members assignments => ∀ entry ∈ assignments, WellFormed entry.1 ∧ Proper entry.2

theorem proper_array (values : List (Value F)) (each : ∀ value ∈ values, Proper value) :
    Proper (.array values) := by
  constructor
  · intro s member
    obtain ⟨value, inside, here⟩ := (mem_textsOfValues values s).mp member
    exact (each value inside).formed s here
  · exact (orderedValues_iff values).mpr fun value member => (each value member).ordered

theorem proper_object (members : List (Bytes × Value F)) (sorted : Sorted members)
    (each : ∀ entry ∈ members, WellFormed entry.1 ∧ Proper entry.2) : Proper (.object members) := by
  constructor
  · intro s member
    obtain ⟨entry, inside, rfl | here⟩ := (mem_textsOfMembers members s).mp member
    · exact (each entry inside).1
    · exact (each entry inside).2.formed s here
  · exact ⟨sorted, (orderedMembers_iff members).mpr
      fun entry member => (each entry member).2.ordered⟩

theorem assignAll_proper (assignments : List (Bytes × Value F))
    (each : ∀ entry ∈ assignments, WellFormed entry.1 ∧ Proper entry.2) :
    Proper (.object (assignAll assignments [])) := by
  refine proper_object _ (SortedMap.sorted_assignAll _ _ .nil) fun entry member => ?_
  rcases SortedMap.mem_assignAll _ _ _ member with inside | outside
  · exact each entry inside
  · exact absurd outside List.not_mem_nil

theorem lexeme_formed (text s : Bytes) (lexeme : Lexeme floats text (.value_string s)) :
    WellFormed s := by
  obtain ⟨raw, _, body⟩ := JsonGrammar.lexeme_string floats text s lexeme
  exact JsonLexer.body_wellFormed raw s body

theorem atom_proper (text : Bytes) (token : JsonLexer.Token F) (v : Value F)
    (lexeme : Lexeme floats text token)
    (known : JsonGrammar.atom floats token = some v) : Proper v := by
  cases token with
  | value_string s =>
      cases known
      exact ⟨fun other member => List.mem_singleton.mp member ▸ lexeme_formed floats text s lexeme,
        trivial⟩
  | value_float res =>
      simp only [JsonGrammar.atom] at known
      split at known
      · cases known
        exact ⟨fun _ member => absurd member List.not_mem_nil, trivial⟩
      · cases known
  | literal_true | literal_false | literal_null | value_unsigned _ | value_integer _ =>
      cases known
      exact ⟨fun _ member => absurd member List.not_mem_nil, trivial⟩
  | _ => cases known

theorem derives_proper (phrase : Phrase F) (text : Bytes) (derived : Derives floats phrase text) :
    ProperPhrase phrase := by
  induction derived with
  | atom blank text token v _ lexeme known => exact atom_proper floats text token v lexeme known
  | emptyArray => exact proper_array [] fun _ member => absurd member List.not_mem_nil
  | array _ _ _ v values _ _ _ one others =>
      exact proper_array _ (List.forall_mem_cons.mpr ⟨one, others⟩)
  | endArray => exact fun _ member => absurd member List.not_mem_nil
  | element _ _ _ v values _ _ _ one others => exact List.forall_mem_cons.mpr ⟨one, others⟩
  | emptyObject => exact proper_object [] .nil fun _ member => absurd member List.not_mem_nil
  | object _ _ raw _ _ _ key v assignments _ _ body _ _ _ one others =>
      exact assignAll_proper _ (List.forall_mem_cons.mpr
        ⟨⟨JsonLexer.body_wellFormed raw key body, one⟩, others⟩)
  | endObject => exact fun _ member => absurd member List.not_mem_nil
  | member _ _ raw _ _ _ key v assignments _ _ body _ _ _ one others =>
      exact List.forall_mem_cons.mpr ⟨⟨JsonLexer.body_wellFormed raw key body, one⟩, others⟩

theorem parse_proper (text : Bytes) (v : Value F) (parsed : JsonParser.parse floats text = .ok v) :
    Proper v := by
  obtain ⟨_, core, _, _, _, _, derived, _⟩ := (JsonGrammar.parse_text floats text v).mp parsed
  exact derives_proper floats _ core derived

/-- json::parse throws at a double that is not finite. -/
def FinitePhrase : Phrase F → Prop
  | .value v => ∀ x ∈ v.doubles, floats.isfinite x = true
  | .elements values => ∀ value ∈ values, ∀ x ∈ value.doubles, floats.isfinite x = true
  | .members assignments => ∀ entry ∈ assignments, ∀ x ∈ entry.2.doubles, floats.isfinite x = true

theorem atom_finite (token : JsonLexer.Token F) (v : Value F)
    (known : JsonGrammar.atom floats token = some v) :
    FinitePhrase floats (.value v) := by
  cases token with
  | value_float res =>
      simp only [JsonGrammar.atom] at known
      split at known
      · rename_i finite
        cases known
        exact fun x member => List.mem_singleton.mp member ▸ finite
      · cases known
  | literal_true | literal_false | literal_null | value_string _ | value_unsigned _
  | value_integer _ =>
      cases known
      exact fun _ member => absurd member List.not_mem_nil
  | _ => cases known

theorem array_finite (values : List (Value F)) (each : FinitePhrase floats (.elements values)) :
    FinitePhrase floats (.value (.array values)) := by
  intro x member
  obtain ⟨value, inside, here⟩ := (mem_doublesOfValues values x).mp member
  exact each value inside x here

theorem assignAll_finite (assignments : List (Bytes × Value F))
    (each : FinitePhrase floats (.members assignments)) :
    FinitePhrase floats (.value (.object (assignAll assignments []))) := by
  intro x member
  obtain ⟨entry, inside, here⟩ := (mem_doublesOfMembers _ x).mp member
  rcases SortedMap.mem_assignAll _ _ _ inside with added | outside
  · exact each entry added x here
  · exact absurd outside List.not_mem_nil

theorem derives_finite (phrase : Phrase F) (text : Bytes) (derived : Derives floats phrase text) :
    FinitePhrase floats phrase := by
  induction derived with
  | atom _ _ token v _ _ known => exact atom_finite floats token v known
  | emptyArray | emptyObject | endArray | endObject =>
      exact fun _ member => absurd member List.not_mem_nil
  | array _ _ _ v values _ _ _ one others =>
      exact array_finite floats _ (List.forall_mem_cons.mpr ⟨one, others⟩)
  | element _ _ _ v values _ _ _ one others => exact List.forall_mem_cons.mpr ⟨one, others⟩
  | object _ _ _ _ _ _ key v assignments _ _ _ _ _ _ one others =>
      exact assignAll_finite floats _ (List.forall_mem_cons.mpr ⟨one, others⟩)
  | member _ _ _ _ _ _ key v assignments _ _ _ _ _ _ one others =>
      exact List.forall_mem_cons.mpr ⟨one, others⟩

theorem parse_finite (text : Bytes) (v : Value F) (parsed : JsonParser.parse floats text = .ok v)
    (x : F)
    (member : x ∈ v.doubles) : floats.isfinite x = true := by
  obtain ⟨_, core, _, _, _, _, derived, _⟩ := (JsonGrammar.parse_text floats text v).mp parsed
  exact derives_finite floats _ core derived x member

/-! The bytes. -/

/-- A byte that may stand anywhere in a text. -/
def Plain (byte : UInt8) : Prop := byte ≠ 0 ∧ byte ≤ 0x7F

/-- A byte that changes nothing outside of the strings. -/
def Neutral (byte : UInt8) : Prop :=
  Plain byte ∧ ∀ depth, Nesting.step ⟨depth, .outside⟩ byte = some ⟨depth, .outside⟩

theorem neutral (byte : UInt8)
    (known : byte ≠ 0 ∧ byte ≠ 34 ∧ Nesting.opening byte = false ∧ Nesting.closing byte = false ∧
    byte ≠ 92 ∧ ¬ 127 < byte) : Neutral byte := by
  obtain ⟨zero, quote, opens, closes, backslash, large⟩ := known
  refine ⟨⟨zero, UInt8.not_lt.mp large⟩, fun depth => ?_⟩
  simp only [Nesting.step, if_neg quote, opens, closes, Bool.false_eq_true, if_false]
  rw [if_neg (by simp [backslash, large])]

theorem neutral_bytes : ∀ n < 256,
    (CNumbers.digit (UInt8.ofNat n) = true ∨ whitespace (UInt8.ofNat n) = true ∨
    UInt8.ofNat n ∈ ([43, 45, 46, 69, 101, 44, 58, 97, 102, 108, 110, 114, 115, 116,
      117] : Bytes)) →
    (UInt8.ofNat n ≠ 0 ∧ UInt8.ofNat n ≠ 34 ∧ Nesting.opening (UInt8.ofNat n) = false ∧
      Nesting.closing (UInt8.ofNat n) = false ∧ UInt8.ofNat n ≠ 92 ∧ ¬ 127 < UInt8.ofNat n) := by
  decide +kernel

theorem neutral_byte (byte : UInt8) (known : CNumbers.digit byte = true ∨ whitespace byte = true ∨
    byte ∈ ([43, 45, 46, 69, 101, 44, 58, 97, 102, 108, 110, 114, 115, 116,
      117] : Bytes)) : Neutral byte := by
  have here := neutral_bytes byte.toNat byte.toNat_lt
  rw [UInt8.ofNat_toNat] at here
  exact neutral byte (here known)

theorem many_neutral (next : Bytes → Prop) (text : Bytes)
    (behind : ∀ rest, next rest → ∀ byte ∈ rest, Neutral byte)
    (many : Many next text) : ∀ byte ∈ text, Neutral byte := by
  obtain ⟨digits, rest, rfl, all, there⟩ := many
  intro byte member
  rcases List.mem_append.mp member with inside | outside
  · exact neutral_byte byte (.inl (all byte inside))
  · exact behind rest there byte outside

theorem atLeastOne_neutral (next : Bytes → Prop) (text : Bytes)
    (behind : ∀ rest, next rest → ∀ byte ∈ rest, Neutral byte)
    (some_ : AtLeastOne next text) : ∀ byte ∈ text, Neutral byte := by
  obtain ⟨digit, rest, rfl, isDigit, many⟩ := some_
  exact List.forall_mem_cons.mpr
    ⟨neutral_byte digit (.inl isDigit), many_neutral next rest behind many⟩

theorem signed_neutral (text : Bytes) (signed : Signed text) : ∀ byte ∈ text, Neutral byte := by
  have nothing (rest : Bytes) (empty : rest = []) : ∀ byte ∈ rest, Neutral byte := by simp [empty]
  rcases signed with some_ | ⟨sign, rest, rfl, isSign, some_⟩
  · exact atLeastOne_neutral _ text nothing some_
  · refine List.forall_mem_cons.mpr
      ⟨neutral_byte sign (.inr (.inr ?_)), atLeastOne_neutral _ rest nothing some_⟩
    rcases isSign with rfl | rfl <;> decide

theorem exponent_neutral (text : Bytes) (exponent : Exponent text) :
    ∀ byte ∈ text, Neutral byte := by
  rcases exponent with rfl | ⟨letter, rest, rfl, isLetter, signed⟩
  · simp
  · refine List.forall_mem_cons.mpr
      ⟨neutral_byte letter (.inr (.inr ?_)), signed_neutral rest signed⟩
    rcases isLetter with rfl | rfl <;> decide

theorem fraction_neutral (text : Bytes) (fraction : Fraction text) :
    ∀ byte ∈ text, Neutral byte := by
  rcases fraction with exponent | ⟨rest, rfl, some_⟩
  · exact exponent_neutral text exponent
  · exact List.forall_mem_cons.mpr
      ⟨neutral_byte 46 (.inr (.inr (by decide))), atLeastOne_neutral _ rest exponent_neutral some_⟩

theorem unsigned_neutral (text : Bytes) (unsigned : Unsigned text) :
    ∀ byte ∈ text, Neutral byte := by
  rcases unsigned with ⟨rest, rfl, fraction⟩ | ⟨digit, rest, rfl, isDigit, _, many⟩
  · exact List.forall_mem_cons.mpr ⟨neutral_byte 48 (.inl rfl), fraction_neutral rest fraction⟩
  · exact List.forall_mem_cons.mpr
      ⟨neutral_byte digit (.inl isDigit), many_neutral _ rest fraction_neutral many⟩

theorem number_neutral (text : Bytes) (number : Number text) : ∀ byte ∈ text, Neutral byte := by
  rcases number with unsigned | ⟨rest, rfl, unsigned⟩
  · exact unsigned_neutral text unsigned
  · exact List.forall_mem_cons.mpr
      ⟨neutral_byte 45 (.inr (.inr (by decide))), unsigned_neutral rest unsigned⟩

theorem blank_neutral (blank : Bytes) (isBlank : Blank blank) : ∀ byte ∈ blank, Neutral byte :=
  fun byte member => neutral_byte byte (.inr (.inl (isBlank byte member)))

/-- A piece of a text: no NUL, valid UTF-8, and a walk from one state to another that never goes
below the bound. -/
structure Piece (low : Int) (before : Nesting.State) (text : Bytes)
    (after : Nesting.State) : Prop where
  noNul : 0 ∉ text
  formed : WellFormed text
  walked : walk low before text = some after

theorem piece_nil (low : Int) (state : Nesting.State) : Piece low state [] state :=
  ⟨List.not_mem_nil, .nil, rfl⟩

theorem piece_append (low : Int) (before middle after : Nesting.State) (left right : Bytes)
    (one : Piece low before left middle)
    (two : Piece low middle right after) : Piece low before (left ++ right) after := by
  constructor
  · intro member
    exact (List.mem_append.mp member).elim one.noNul two.noNul
  · exact Utf8.wellFormed_append left right one.formed two.formed
  · rw [Nesting.walk_append, one.walked]
    exact two.walked

theorem piece_cons (low : Int) (before middle after : Nesting.State) (byte : UInt8) (rest : Bytes)
    (plain : Plain byte)
    (high : low ≤ before.depth) (stepped : Nesting.step before byte = some middle)
    (two : Piece low middle rest after) :
    Piece low before (byte :: rest) after := by
  constructor
  · intro member
    exact (List.mem_cons.mp member).elim (fun same => plain.1 same.symm) two.noNul
  · exact Utf8.wellFormed_ascii byte rest plain.2 two.formed
  · rw [walk, if_pos high, stepped]
    exact two.walked

theorem piece_neutral (low depth : Int) (text : Bytes) (high : low ≤ depth)
    (all : ∀ byte ∈ text, Neutral byte) :
    Piece low ⟨depth, .outside⟩ text ⟨depth, .outside⟩ := by
  induction text with
  | nil => exact piece_nil _ _
  | cons byte rest ih =>
      obtain ⟨plain, stepped⟩ := all byte List.mem_cons_self
      exact piece_cons low _ _ _ byte rest plain high (stepped depth)
        (ih fun other member => all other (List.mem_cons_of_mem _ member))

/-- Bytes inside of a string that are neither a quotation mark nor a backslash. -/
theorem walk_inside (low depth : Int) (text : Bytes) (high : low ≤ depth)
    (all : ∀ byte ∈ text, byte ≠ 0 ∧ byte ≠ 34 ∧ byte ≠ 92) :
    walk low ⟨depth, .inside⟩ text = some ⟨depth, .inside⟩ := by
  induction text with
  | nil => rfl
  | cons byte rest ih =>
      obtain ⟨_, quote, backslash⟩ := all byte List.mem_cons_self
      have stepped : Nesting.step ⟨depth, .inside⟩ byte = some ⟨depth, .inside⟩ := by
        simp [Nesting.step, quote, backslash]
      rw [walk, if_pos high, stepped]
      exact ih fun other member => all other (List.mem_cons_of_mem _ member)

theorem piece_inside (low depth : Int) (text : Bytes) (high : low ≤ depth)
    (formed : WellFormed text)
    (all : ∀ byte ∈ text, byte ≠ 0 ∧ byte ≠ 34 ∧ byte ≠ 92) :
    Piece low ⟨depth, .inside⟩ text ⟨depth, .inside⟩ :=
  ⟨fun member => (all 0 member).1 rfl, formed, walk_inside low depth text high all⟩

theorem hexValue_ascii (byte : UInt8) (value : Nat) (found : hexValue byte = some value) :
    byte ≤ 0x7F := by
  simp only [hexValue, UInt8.le_iff_toNat_le, UInt8.reduceToNat] at found ⊢
  repeat' split at found
  all_goals first | omega | cases found

theorem hexDigits_piece (low depth : Int) (digits : Bytes) (codepoint : Nat) (high : low ≤ depth)
    (hex : HexDigits digits codepoint) : Piece low ⟨depth, .inside⟩ digits ⟨depth, .inside⟩ := by
  have digit (byte : UInt8) (value : Nat) (found : hexValue byte = some value) :
      byte ≠ 0 ∧ byte ≠ 34 ∧ byte ≠ 92 := by
    refine ⟨?_, ?_, ?_⟩ <;>
    · rintro rfl
      cases found
  obtain ⟨a, b, c, d, _, _, _, _, rfl, first, second, third, fourth, _⟩ := hex
  refine piece_inside low depth _ high ?_ ?_
  · exact Utf8.wellFormed_ascii a _ (hexValue_ascii a _ first)
      (Utf8.wellFormed_ascii b _ (hexValue_ascii b _ second)
      (Utf8.wellFormed_ascii c _ (hexValue_ascii c _ third)
        (Utf8.wellFormed_ascii d _ (hexValue_ascii d _ fourth) .nil)))
  · simp only [List.forall_mem_cons, List.not_mem_nil, false_implies, implies_true, and_true]
    exact ⟨digit a _ first, digit b _ second, digit c _ third, digit d _ fourth⟩

theorem sequence_formed (unit : Bytes) (sequence : Utf8.Sequence unit) : WellFormed unit := by
  have whole := WellFormed.cons unit [] sequence .nil
  rwa [List.append_nil] at whole

theorem piece_escape (low depth : Int) (letter : UInt8) (rest : Bytes) (after : Nesting.State)
    (high : low ≤ depth)
    (known : letter ∈ Nesting.letters) (two : Piece low ⟨depth, .inside⟩ rest after) :
    Piece low ⟨depth, .inside⟩ (92 :: letter :: rest) after := by
  have all : ∀ letter ∈ Nesting.letters, letter ≠ 0 ∧ letter ≤ 0x7F := by decide +kernel
  refine piece_cons low _ ⟨depth, .escaped⟩ _ 92 _ ⟨by decide, by decide⟩ high rfl
    (piece_cons low _ ⟨depth, .inside⟩ _ letter _ (all letter known) high ?_ two)
  simp [Nesting.step, known]

theorem character_piece (low depth : Int) (raw decoded : Bytes) (high : low ≤ depth)
    (character : Character raw decoded) :
    Piece low ⟨depth, .inside⟩ raw ⟨depth, .inside⟩ := by
  cases character with
  | plain unit sequence visible =>
      refine piece_inside low depth _ high (sequence_formed _ sequence) fun byte member => ?_
      obtain ⟨control, quote, backslash⟩ := visible byte member
      refine ⟨?_, quote, backslash⟩
      rintro rfl
      exact absurd control (by decide)
  | simple letter byte known =>
      have all : ∀ pair ∈ JsonLexer.simpleEscapes, pair.1 ∈ Nesting.letters := by
        simp [JsonLexer.simpleEscapes, Nesting.letters]
      exact piece_escape low depth letter [] _ high (all _ known) (piece_nil _ _)
  | unicode digits codepoint hex _ =>
      exact piece_escape low depth 117 digits _ high (by decide)
        (hexDigits_piece low depth digits codepoint high hex)
  | surrogates first second high_ low_ hex hex2 _ _ =>
      refine piece_escape low depth 117 _ _ high (by decide)
        (piece_append low _ ⟨depth, .inside⟩ _ first _
        (hexDigits_piece low depth first _ high hex) ?_)
      exact piece_escape low depth 117 second _ high (by decide)
        (hexDigits_piece low depth second _ high hex2)

theorem body_piece (low depth : Int) (raw decoded : Bytes) (high : low ≤ depth)
    (body : Body raw decoded) :
    Piece low ⟨depth, .inside⟩ raw ⟨depth, .inside⟩ := by
  induction body with
  | nil => exact piece_nil _ _
  | cons raw decoded raws rest character _ ih =>
      exact piece_append _ _ _ _ _ _ (character_piece low depth raw decoded high character) ih

theorem quoted_piece (low depth : Int) (raw decoded rest : Bytes) (after : Nesting.State)
    (high : low ≤ depth)
    (body : Body raw decoded)
    (two : Piece low ⟨depth, .outside⟩ rest after) :
    Piece low ⟨depth, .outside⟩ (34 :: (raw ++ 34 :: rest)) after := by
  refine piece_cons low _ ⟨depth, .inside⟩ _ 34 _ ⟨by decide, by decide⟩ high rfl ?_
  exact piece_append low _ _ _ _ _ (body_piece low depth raw decoded high body)
    (piece_cons low _ ⟨depth, .outside⟩ _ 34 _ ⟨by decide, by decide⟩ high rfl two)

theorem piece_lower (low below : Int) (before after : Nesting.State) (text : Bytes)
    (less : below ≤ low)
    (piece : Piece low before text after) : Piece below before text after :=
  ⟨piece.noNul, piece.formed, Nesting.walk_lower low below _ _ text less piece.walked⟩

theorem piece_opening (depth : Int) (byte : UInt8) (rest : Bytes) (after : Nesting.State)
    (opens : Nesting.opening byte = true)
    (two : Piece depth ⟨depth + 1, .outside⟩ rest after) :
    Piece depth ⟨depth, .outside⟩ (byte :: rest) after := by
  simp only [Nesting.opening, Bool.or_eq_true, beq_iff_eq] at opens
  rcases opens with rfl | rfl <;>
    exact piece_cons depth _ _ _ _ rest ⟨by decide, by decide⟩ (Int.le_refl _) rfl two

theorem piece_closing (depth : Int) (byte : UInt8) (closes : Nesting.closing byte = true) :
    Piece (depth + 1) ⟨depth + 1, .outside⟩ [byte] ⟨depth, .outside⟩ := by
  have back : depth + 1 - 1 = depth := by omega
  simp only [Nesting.closing, Bool.or_eq_true, beq_iff_eq] at closes
  rcases closes with rfl | rfl <;>
  · refine piece_cons (depth + 1) _ ⟨depth + 1 - 1, .outside⟩ _ _ [] ⟨by decide, by decide⟩
      (Int.le_refl _) rfl ?_
    rw [back]
    exact piece_nil _ _

theorem atom_piece (depth : Int) (text : Bytes) (token : JsonLexer.Token F) (v : Value F)
    (lexeme : Lexeme floats text token)
    (known : JsonGrammar.atom floats token = some v) :
    Piece depth ⟨depth, .outside⟩ text ⟨depth, .outside⟩ := by
  cases lexeme with
  | number text number =>
      exact piece_neutral depth depth _ (Int.le_refl _) (number_neutral _ number)
  | value_string raw decoded body =>
      exact quoted_piece depth depth raw decoded [] _ (Int.le_refl _) body (piece_nil _ _)
  | literal_true | literal_false | literal_null =>
      refine piece_neutral depth depth _ (Int.le_refl _) fun byte member =>
        neutral_byte byte (.inr (.inr ?_))
      simp only [List.mem_cons, List.not_mem_nil, or_false] at member ⊢
      tauto
  | begin_array | end_array | begin_object | end_object | name_separator | value_separator =>
      cases known

/-- The walk along a phrase: a value ends at the depth where it begins, and what closes a bracket
one below. -/
def Walks (text : Bytes) : Phrase F → Prop
  | .value _ => ∀ depth, Piece depth ⟨depth, .outside⟩ text ⟨depth, .outside⟩
  | _ => ∀ depth, Piece (depth + 1) ⟨depth + 1, .outside⟩ text ⟨depth, .outside⟩

theorem member_piece (low depth : Int) (before raw behind first others key : Bytes)
    (after : Nesting.State)
    (high : low ≤ depth)
    (isBefore : Blank before) (body : Body raw key) (isBehind : Blank behind)
    (one : Piece low ⟨depth, .outside⟩ first ⟨depth, .outside⟩)
    (more : Piece low ⟨depth, .outside⟩ others after) :
    Piece low ⟨depth, .outside⟩ (before ++ 34 ::
      (raw ++ 34 :: (behind ++ 58 :: (first ++ others)))) after := by
  have colon : Neutral 58 := neutral_byte 58 (.inr (.inr (by decide)))
  refine piece_append low _ _ _ _ _
    (piece_neutral low depth before high (blank_neutral before isBefore)) ?_
  refine quoted_piece low depth raw key _ after high body ?_
  refine piece_append low _ _ _ _ _
    (piece_neutral low depth behind high (blank_neutral behind isBehind)) ?_
  exact piece_cons low _ _ _ 58 _ colon.1 high (colon.2 depth) (piece_append low _ _ _ _ _ one more)

theorem derives_walks (phrase : Phrase F) (text : Bytes) (derived : Derives floats phrase text) :
    Walks text phrase := by
  have white (low depth : Int) (blank : Bytes) (high : low ≤ depth) (isBlank : Blank blank) :=
    piece_neutral low depth blank high (blank_neutral blank isBlank)
  have comma : Neutral 44 := neutral_byte 44 (.inr (.inr (by decide)))
  induction derived with
  | atom blank text token v isBlank lexeme known =>
      exact fun depth => piece_append depth _ _ _ _ _
        (white depth depth blank (Int.le_refl _) isBlank)
        (atom_piece floats depth text token v lexeme known)
  | emptyArray blank inner isBlank isInner | emptyObject blank inner isBlank isInner =>
      refine fun depth => piece_append depth _ _ _ _ _
        (white depth depth blank (Int.le_refl _) isBlank)
        (piece_opening depth _ _ _ rfl ?_)
      exact piece_append depth _ _ _ _ _ (white depth (depth + 1) inner (by omega) isInner)
        (piece_lower _ _ _ _ _ (by omega) (piece_closing depth _ rfl))
  | array blank first others v values isBlank _ _ one more =>
      refine fun depth => piece_append depth _ _ _ _ _
        (white depth depth blank (Int.le_refl _) isBlank)
        (piece_opening depth _ _ _ rfl ?_)
      exact piece_lower (depth + 1) depth _ _ _ (by omega)
        (piece_append _ _ _ _ _ _ (one (depth + 1)) (more depth))
  | endArray blank isBlank | endObject blank isBlank =>
      exact fun depth => piece_append _ _ _ _ _ _ (white _ _ blank (Int.le_refl _) isBlank)
        (piece_closing depth _ rfl)
  | element blank first others v values isBlank _ _ one more =>
      refine fun depth => piece_append _ _ _ _ _ _ (white _ _ blank (Int.le_refl _) isBlank) ?_
      exact piece_cons _ _ _ _ 44 _ comma.1 (Int.le_refl _) (comma.2 _)
        (piece_append _ _ _ _ _ _ (one (depth + 1)) (more depth))
  | object blank before raw behind first others key v assignments isBlank isBefore body isBehind _ _ one more =>
      refine fun depth => piece_append depth _ _ _ _ _
        (white depth depth blank (Int.le_refl _) isBlank)
        (piece_opening depth _ _ _ rfl ?_)
      exact piece_lower (depth + 1) depth _ _ _ (by omega)
        (member_piece _ _ before raw behind first others key _
          (Int.le_refl _) isBefore body isBehind
          (one (depth + 1)) (more depth))
  | member blank before raw behind first others key v assignments isBlank isBefore body isBehind _ _ one more =>
      refine fun depth => piece_append _ _ _ _ _ _ (white _ _ blank (Int.le_refl _) isBlank) ?_
      exact piece_cons _ _ _ _ 44 _ comma.1 (Int.le_refl _) (comma.2 _)
        (member_piece _ _ before raw behind first others key _
          (Int.le_refl _) isBefore body isBehind
          (one (depth + 1)) (more depth))

/-! Texts of arrays and objects. -/

theorem opening_visible (byte : UInt8) (opens : Nesting.opening byte = true) :
    whitespace byte = false ∧ byte ≠ 0 ∧ byte ≠ 0xEF ∧ ¬ Neutral byte := by
  have moves (n : Int) : ¬ n + 1 = n := by omega
  simp only [Nesting.opening, Bool.or_eq_true, beq_iff_eq] at opens
  rcases opens with rfl | rfl <;>
  · refine ⟨by decide, by decide, by decide, fun neutral => ?_⟩
    have stays := neutral.2 0
    simp [Nesting.step, Nesting.opening] at stays

/-- No whitespace stands before a byte that comes first. -/
theorem blank_first (blank text : Bytes) (isBlank : Blank blank) (first : UInt8) (rest : Bytes)
    (whole : blank ++ text = first :: rest)
    (visible : whitespace first = false) : blank = [] ∧ text = first :: rest := by
  cases blank with
  | nil => exact ⟨rfl, whole⟩
  | cons byte blank =>
      obtain ⟨rfl, _⟩ := List.cons.inj whole
      have white := isBlank byte List.mem_cons_self
      rw [visible] at white
      cases white

theorem lexeme_opens (first : UInt8) (text rest : Bytes) (token : JsonLexer.Token F)
    (lexeme : Lexeme floats text token)
    (whole : text = first :: rest) (opens : Nesting.opening first = true) :
    JsonGrammar.atom floats token = none := by
  obtain ⟨_, _, _, moves⟩ := opening_visible first opens
  cases lexeme with
  | number text number =>
      subst whole
      exact absurd (number_neutral _ number first List.mem_cons_self) moves
  | begin_array | end_array | begin_object | end_object | name_separator | value_separator => rfl
  | literal_true | literal_false | literal_null | value_string _ _ _ =>
      obtain ⟨rfl, _⟩ := List.cons.inj whole
      cases opens

theorem derives_closed (v : Value F) (first : UInt8) (rest : Bytes)
    (opens : Nesting.opening first = true)
    (derived : Derives floats (.value v) (first :: rest)) : Closed (first :: rest) := by
  obtain ⟨visible, _⟩ := opening_visible first opens
  generalize whole : first :: rest = text at derived
  cases derived with
  | atom blank text token v isBlank lexeme known =>
      obtain ⟨rfl, same⟩ := blank_first blank text isBlank first rest whole.symm visible
      rw [lexeme_opens floats first text rest token lexeme same opens] at known
      cases known
  | emptyArray blank inner isBlank isInner | emptyObject blank inner isBlank isInner =>
      obtain ⟨rfl, same⟩ := blank_first blank _ isBlank first rest whole.symm visible
      cases same
      refine ⟨_, _, rfl, rfl, ?_⟩
      exact (piece_append 1 _ _ _ _ _
        (piece_neutral 1 1 inner (Int.le_refl _) (blank_neutral inner isInner))
        (piece_closing 0 _ rfl)).walked
  | array blank one others v values isBlank derived closing =>
      obtain ⟨rfl, same⟩ := blank_first blank _ isBlank first rest whole.symm visible
      cases same
      refine ⟨91, _, rfl, rfl, ?_⟩
      exact (piece_append 1 _ _ _ _ _ (derives_walks floats _ _ derived 1)
        (derives_walks floats _ _ closing 0)).walked
  | object blank before raw behind one others key v assignments isBlank isBefore body isBehind derived closing =>
      obtain ⟨rfl, same⟩ := blank_first blank _ isBlank first rest whole.symm visible
      cases same
      refine ⟨123, _, rfl, rfl, ?_⟩
      exact (member_piece 1 1 before raw behind one others key _
        (Int.le_refl _) isBefore body isBehind
        (derives_walks floats _ _ derived 1) (derives_walks floats _ _ closing 0)).walked

/-! Where a text is over. -/

theorem firstBody_append (text rest : Bytes) (noNul : 0 ∉ text) :
    firstBody 0 (text ++ rest) = text ++ firstBody 0 rest :=
  List.takeWhile_append_of_pos fun _ member => decide_eq_true fun same => noNul (same ▸ member)

theorem firstBody_split (text : Bytes) :
    0 ∉ firstBody 0 text ∧ ∃ tail, text = firstBody 0 text ++ tail ∧
      (tail = [] ∨ tail.head? = some 0) := by
  constructor
  · intro member
    have kept := List.all_takeWhile (l := text) (p := fun byte => decide (byte ≠ 0))
    rw [List.all_eq_true] at kept
    exact absurd (kept 0 member) (by decide)
  · refine ⟨text.dropWhile fun byte => decide (byte ≠ 0), (List.takeWhile_append_dropWhile).symm,
      ?_⟩
    cases left : text.dropWhile fun byte => decide (byte ≠ 0) with
    | nil => exact .inl rfl
    | cons first rest =>
        have stopped := List.head?_dropWhile_not (fun byte : UInt8 => decide (byte ≠ 0)) text
        rw [left] at stopped
        simp only [List.head?_cons, decide_not, Bool.not_eq_false', decide_eq_true_eq] at stopped
        exact .inr (by rw [stopped, List.head?_cons])

theorem firstBody_ended (tail : Bytes) (ended : tail = [] ∨ tail.head? = some 0) :
    firstBody 0 tail = [] := by
  rcases ended with rfl | zero
  · rfl
  · cases tail with
    | nil => rfl
    | cons first rest =>
        obtain rfl : first = 0 := Option.some.inj zero
        rfl

theorem derives_noNul (v : Value F) (core : Bytes) (derived : Derives floats (.value v) core) :
    0 ∉ core :=
  (derives_walks floats _ core derived 0).noNul

theorem derives_formed (v : Value F) (core : Bytes) (derived : Derives floats (.value v) core) :
    WellFormed core :=
  (derives_walks floats _ core derived 0).formed

theorem blank_noNul (blank : Bytes) (isBlank : Blank blank) : 0 ∉ blank :=
  fun member => (blank_neutral blank isBlank 0 member).1.1 rfl

theorem mark_noNul (mark : Bytes) (isMark : Mark mark) : 0 ∉ mark := by
  rcases isMark with rfl | rfl <;> decide

theorem text_firstBody (text : Bytes) (v : Value F) :
    Text floats text v ↔ Text floats (firstBody 0 text) v := by
  constructor
  · rintro ⟨mark, core, blank, tail, rfl, isMark, derived, isBlank, ended⟩
    refine ⟨mark, core, blank, [], ?_, isMark, derived, isBlank, .inl rfl⟩
    rw [firstBody_append _ _ (mark_noNul mark isMark),
      firstBody_append _ _ (derives_noNul floats v core derived),
      firstBody_append _ _ (blank_noNul blank isBlank), firstBody_ended tail ended]
  · rintro ⟨mark, core, blank, tail, whole, isMark, derived, isBlank, ended⟩
    obtain ⟨noNul, behind, same, stopped⟩ := firstBody_split text
    have clean : tail = [] := by
      rcases ended with rfl | zero
      · rfl
      · refine absurd ?_ noNul
        rw [whole]
        simp [List.mem_of_mem_head? zero]
    subst clean
    rw [whole] at same
    exact ⟨mark, core, blank, behind, by simpa using same, isMark, derived, isBlank, stopped⟩

/-- json::parse takes nothing from the first NUL on. -/
theorem parse_firstBody (text : Bytes) (v : Value F) :
    JsonParser.parse floats text = .ok v ↔ JsonParser.parse floats (firstBody 0 text) = .ok v := by
  rw [JsonGrammar.parse_text, JsonGrammar.parse_text, text_firstBody]

/-! Beginnings and ends of accepted texts. -/

theorem derives_nonempty (v : Value F) (core : Bytes) (derived : Derives floats (.value v) core) :
    core ≠ [] := by
  cases derived with
  | atom blank text token _ _ lexeme _ =>
      obtain ⟨first, rest, rfl, _⟩ := JsonGrammar.lexeme_ascii floats text token lexeme
      simp
  | emptyArray | array | emptyObject | object => simp

/-- Without a NUL an accepted text is a mark and a balanced text. -/
theorem text_balanced (text : Bytes) (v : Value F) (noNul : 0 ∉ text)
    (accepted : Text floats text v) :
    ∃ mark balanced, text = mark ++ balanced ∧ Mark mark ∧ Balanced balanced ∧ balanced ≠ [] := by
  obtain ⟨mark, core, blank, tail, rfl, isMark, derived, isBlank, ended⟩ := accepted
  have clean : tail = [] := by
    rcases ended with rfl | zero
    · rfl
    · exact absurd (by simp [List.mem_of_mem_head? zero]) noNul
  subst clean
  have balanced : Piece 0 Nesting.start (core ++ blank) Nesting.start :=
    piece_append 0 _ _ _ _ _ (derives_walks floats _ core derived 0)
      (piece_neutral 0 0 blank (Int.le_refl _) (blank_neutral blank isBlank))
  refine ⟨mark, core ++ blank, by simp, isMark, Nesting.walk_run _ _ _ _ balanced.walked, ?_⟩
  simp [derives_nonempty floats v core derived]

/-- A text of an object or an array, with nothing before or behind it. -/
structure Bracketed (text : Bytes) (v : Value F) : Prop where
  derived : Derives floats (.value v) text
  opened : ∃ first rest, text = first :: rest ∧ Nesting.opening first = true

theorem bracketed_closed (text : Bytes) (v : Value F) (bracketed : Bracketed floats text v) :
    Closed text := by
  obtain ⟨derived, first, rest, rfl, opens⟩ := bracketed
  exact derives_closed floats v first rest opens derived

theorem bracketed_begins (text more mark core : Bytes) (v : Value F)
    (bracketed : Bracketed floats text v)
    (whole : text ++ more = mark ++ core) (isMark : Mark mark) : mark = [] := by
  obtain ⟨_, first, rest, rfl, opens⟩ := bracketed
  rcases isMark with rfl | rfl
  · rfl
  · obtain ⟨rfl, _⟩ := List.cons.inj whole
    exact absurd rfl (opening_visible _ opens).2.2.1

theorem cut_refused (front rest : Bytes) (v other : Value F)
    (bracketed : Bracketed floats (front ++ rest) v)
    (more : rest ≠ []) :
    ¬ Text floats front other := by
  intro accepted
  have noNul : 0 ∉ front := fun member => derives_noNul floats v _ bracketed.derived
    (List.mem_append_left _ member)
  -- an accepted text is balanced, and a front of a closed one is not
  obtain ⟨mark, balanced, rfl, isMark, walks, some_⟩ :=
    text_balanced floats front other noNul accepted
  obtain rfl := bracketed_begins floats _ [] mark (balanced ++ rest) v bracketed (by simp) isMark
  exact Nesting.cut_unbalanced balanced rest some_ more
    (bracketed_closed floats _ v bracketed) walks

theorem end_refused (front rest : Bytes) (v other : Value F)
    (bracketed : Bracketed floats (front ++ rest) v)
    (some_ : front ≠ []) :
    ¬ Text floats rest other := by
  intro accepted
  have noNul : 0 ∉ rest := fun member => derives_noNul floats v _ bracketed.derived
    (List.mem_append_right _ member)
  obtain ⟨mark, balanced, rfl, isMark, walks, more⟩ :=
    text_balanced floats rest other noNul accepted
  have closed := bracketed_closed floats _ v bracketed
  -- the end may begin with the three bytes of a mark, as part of a string
  rcases isMark with rfl | rfl
  · exact Nesting.end_unbalanced front balanced some_ more closed walks
  · exact Nesting.marked_end_unbalanced front balanced some_ closed walks

/-- Behind an object or an array only whitespace is accepted, up to the end or to a NUL. -/
theorem behind_accepted (text more : Bytes) (v other : Value F)
    (bracketed : Bracketed floats text v) :
    Text floats (text ++ more) other ↔
      other = v ∧ ∃ blank tail, more = blank ++ tail ∧ Blank blank ∧
        (tail = [] ∨ tail.head? = some 0) := by
  constructor
  · rintro ⟨mark, core, blank, tail, whole, isMark, derived, isBlank, ended⟩
    obtain rfl := bracketed_begins floats _ _ mark _ v bracketed whole isMark
    obtain ⟨first, rest, same, opens⟩ := bracketed.opened
    rw [List.nil_append] at whole
    have some_ := derives_nonempty floats other core derived
    have closed : Closed core := by
      cases core with
      | nil => exact absurd rfl some_
      | cons byte core =>
          rw [same] at whole
          obtain ⟨rfl, _⟩ := List.cons.inj whole
          exact derives_closed floats other _ core opens derived
    -- both are closed and begin the same text, so they are the same
    have alike : text = core := by
      rcases List.append_eq_append_iff.mp whole with ⟨behind, longer, _⟩ | ⟨behind, longer, _⟩
      · rw [longer, Nesting.closed_prefix text core behind
          (bracketed_closed floats text v bracketed) closed longer, List.append_nil]
      · rw [longer, Nesting.closed_prefix core text behind closed
          (bracketed_closed floats text v bracketed) longer, List.append_nil]
    subst alike
    refine ⟨?_, blank, tail, List.append_cancel_left whole, isBlank, ended⟩
    -- one text has one value, since parse is a function
    have one := (JsonGrammar.parse_text floats text other).mpr
      ⟨[], text, [], [], by simp, .inl rfl, derived, by simp [Blank], .inl rfl⟩
    have two := (JsonGrammar.parse_text floats text v).mpr
      ⟨[], text, [], [], by simp, .inl rfl, bracketed.derived, by simp [Blank], .inl rfl⟩
    rw [one] at two
    exact Except.ok.inj two
  · rintro ⟨rfl, blank, tail, rfl, isBlank, ended⟩
    exact ⟨[], text, blank, tail, rfl, .inl rfl, bracketed.derived, isBlank, ended⟩

/-! Texts that dump has written. -/

/-- The values whose text begins with a bracket. -/
def Compound : Value F → Prop
  | .object _ => True
  | .array _ => True
  | _ => False

theorem refused_error (input : Bytes) (never : ∀ w, ¬ Text floats input w) :
    ∃ failure, JsonParser.parse floats input = .error failure := by
  cases parsed : JsonParser.parse floats input with
  | error failure => exact ⟨failure, rfl⟩
  | ok w => exact absurd ((JsonGrammar.parse_text floats input w).mp parsed) (never w)

section Written
variable (v : Value F) (compound : Compound v) (proper : Proper v)
    (roundTrips : RoundTrips floats v)
include compound proper roundTrips

theorem written_bracketed : Bracketed floats (text floats v) (reread floats v) := by
  refine ⟨JsonRoundTrip.text_derives floats v roundTrips proper.formed proper.ordered, ?_⟩
  cases v with
  | object members => exact ⟨123, _, by rw [text, List.cons_append], rfl⟩
  | array values => exact ⟨91, _, by rw [text, List.cons_append], rfl⟩
  | _ => exact compound.elim

/-- The text of an object or an array tells its own length: json::parse throws for all that is cut
off of it, at the end or at the beginning, and takes nothing behind it but whitespace, up to a NUL.
-/
theorem written_delimited :
    (∀ front rest, text floats v = front ++ rest → front ≠ [] → rest ≠ [] →
      (∃ failure, JsonParser.parse floats front = .error failure) ∧
        ∃ failure, JsonParser.parse floats rest = .error failure) ∧
    ∀ more w, JsonParser.parse floats (text floats v ++ more) = .ok w ↔
      w = reread floats v ∧ ∃ blank tail, more = blank ++ tail ∧ Blank blank ∧
        (tail = [] ∨ tail.head? = some 0) := by
  have bracketed := written_bracketed floats v compound proper roundTrips
  constructor
  · intro front rest whole some_ more
    rw [whole] at bracketed
    exact ⟨refused_error floats front fun w => cut_refused floats front rest _ w bracketed more,
      refused_error floats rest fun w => end_refused floats front rest _ w bracketed some_⟩
  · intro more w
    rw [JsonGrammar.parse_text]
    exact behind_accepted floats _ more _ w bracketed

end Written

theorem written_delimited_report :
    (∀ front rest, text JsonRoundTrip.keptTexts JsonRoundTrip.report = front ++ rest → front ≠ [] →
      rest ≠ [] →
      (∃ failure, JsonParser.parse JsonRoundTrip.keptTexts front = .error failure) ∧
        ∃ failure, JsonParser.parse JsonRoundTrip.keptTexts rest = .error failure) ∧
    ∀ more w, JsonParser.parse JsonRoundTrip.keptTexts
      (text JsonRoundTrip.keptTexts JsonRoundTrip.report ++ more) = .ok w ↔
      w = reread JsonRoundTrip.keptTexts JsonRoundTrip.report ∧
        ∃ blank tail, more = blank ++ tail ∧ Blank blank ∧ (tail = [] ∨ tail.head? = some 0) :=
  written_delimited JsonRoundTrip.keptTexts JsonRoundTrip.report trivial
    ⟨by decide, JsonRoundTrip.report_ordered⟩ (fun _ member => absurd member List.not_mem_nil)

end MuduoChat.JsonTexts
