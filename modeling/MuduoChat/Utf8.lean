import Mathlib.Data.List.Forall2

/-!
UTF-8 as a machine over single bytes. Its state is the list of ranges in which the next bytes
must lie to complete a code point; the empty state is the one between two code points. A text
is well formed if the machine ends there, and this is what the library means by valid UTF-8.
Nothing here names a program.
-/

namespace MuduoChat.Utf8

/-- The first and the last byte of a range. -/
abbrev Range := UInt8 × UInt8

def within (range : Range) (byte : UInt8) : Bool := range.1 ≤ byte && byte ≤ range.2

def continuation : Range := (0x80, 0xBF)

/-- The bytes of one code point, first byte first. -/
def table : List (List Range) :=
  [[(0x00, 0x7F)],
    [(0xC2, 0xDF), continuation],
    [(0xE0, 0xE0), (0xA0, 0xBF), continuation],
    [(0xE1, 0xEC), continuation, continuation],
    [(0xED, 0xED), (0x80, 0x9F), continuation],
    [(0xEE, 0xEF), continuation, continuation],
    [(0xF0, 0xF0), (0x90, 0xBF), continuation, continuation],
    [(0xF1, 0xF3), continuation, continuation, continuation],
    [(0xF4, 0xF4), (0x80, 0x8F), continuation, continuation]]

def begins (first : UInt8) : List Range → Bool
  | [] => false
  | range :: _ => within range first

/-- What must follow the first byte of a code point. -/
def owed (first : UInt8) : Option (List Range) := (table.find? (begins first)).map List.tail

def step (state : List Range) (byte : UInt8) : Option (List Range) :=
  match state with
  | [] => owed byte
  | range :: rest => if within range byte then some rest else none

def run : List Range → List UInt8 → Option (List Range)
  | state, [] => some state
  | state, byte :: rest => (step state byte).bind fun next => run next rest

theorem step_owed (state next : List Range) (byte : UInt8) (stepped : step state byte = some next) :
    (state = [] → next.length ≤ 3) ∧ (state ≠ [] → next.length + 1 = state.length) := by
  cases state with
  | nil =>
      obtain ⟨row, found, rfl⟩ := Option.map_eq_some_iff.mp stepped
      have short : ∀ row ∈ table, row.tail.length ≤ 3 := by decide
      exact ⟨fun _ => short row (List.mem_of_find?_eq_some found), fun other => absurd rfl other⟩
  | cons range rest =>
      simp only [step] at stepped
      split at stepped
      · cases stepped
        simp
      · cases stepped

/-- Bytes that lie in these ranges, one in each. -/
def Fits (ranges : List Range) (bytes : List UInt8) : Prop :=
  List.Forall₂ (fun range byte => within range byte = true) ranges bytes

def Sequence (unit : List UInt8) : Prop := ∃ row ∈ table, Fits row unit

inductive WellFormed : List UInt8 → Prop where
  | nil : WellFormed []
  | cons (unit rest : List UInt8) : Sequence unit → WellFormed rest → WellFormed (unit ++ rest)

/-! The machine and the code points. -/

theorem run_append (state : List Range) (left right : List UInt8) :
    run state (left ++ right) = (run state left).bind fun next => run next right := by
  induction left generalizing state with
  | nil => rfl
  | cons byte rest ih =>
      cases stepped : step state byte with
      | none => simp [run, stepped]
      | some next => simpa [run, stepped] using ih next

theorem run_fits (ranges : List Range) (bytes : List UInt8) (fits : Fits ranges bytes) :
    run ranges bytes = some [] := by
  induction fits with
  | nil => rfl
  | cons inside _ ih => simpa [run, step, inside] using ih

/-- The rows begin with different bytes. -/
theorem owed_row (first : UInt8) (range : Range) (rest : List Range) (row : range :: rest ∈ table)
    (inside : within range first = true) : owed first = some rest := by
  -- all first bytes are tried
  have all : ∀ n < 256, ∀ row ∈ table, begins (UInt8.ofNat n) row = true →
      owed (UInt8.ofNat n) = some row.tail := by
    decide +kernel
  have here := all first.toNat first.toNat_lt (range :: rest) row
  rw [UInt8.ofNat_toNat] at here
  exact here inside

theorem sequence_iff (unit : List UInt8) :
    Sequence unit ↔ ∃ first ranges rest, unit = first :: rest ∧ owed first = some ranges ∧
      Fits ranges rest := by
  constructor
  · rintro ⟨row, member, fits⟩
    cases fits with
    | nil => exact absurd member (by decide)
    | cons inside others => exact ⟨_, _, _, rfl, owed_row _ _ _ member inside, others⟩
  · rintro ⟨first, ranges, rest, rfl, owes, fits⟩
    obtain ⟨row, found, rfl⟩ := Option.map_eq_some_iff.mp owes
    have member := List.mem_of_find?_eq_some found
    have starts := List.find?_some found
    cases row with
    | nil => cases starts
    | cons range others => exact ⟨range :: others, member, .cons starts fits⟩

theorem fits_low (ranges : List Range) (bytes : List UInt8)
    (low : ∀ range ∈ ranges, 128 ≤ range.1.toNat)
    (fits : Fits ranges bytes) : ∀ byte ∈ bytes, 128 ≤ byte.toNat := by
  induction fits with
  | nil => exact fun _ member => absurd member List.not_mem_nil
  | cons inside _ ih =>
      simp only [within, Bool.and_eq_true, decide_eq_true_eq, UInt8.le_iff_toNat_le] at inside
      have first := low _ List.mem_cons_self
      have others := ih fun range member => low range (List.mem_cons_of_mem _ member)
      intro byte member
      rcases List.mem_cons.mp member with rfl | member
      · omega
      · exact others byte member

theorem table_tails (row : List Range) (member : row ∈ table) (range : Range)
    (inside : range ∈ row.tail) :
    128 ≤ range.1.toNat ∧ range.1 ≤ range.2 := by
  have all : (table.all fun row => row.tail.all fun range => decide
      (128 ≤ range.1.toNat ∧ range.1 ≤ range.2)) =
      true := by decide
  exact of_decide_eq_true (List.all_eq_true.mp (List.all_eq_true.mp all row member) range inside)

/-- Only the first byte of a code point can be ASCII. -/
theorem owed_low (first : UInt8) (ranges : List Range) (bytes : List UInt8)
    (owes : owed first = some ranges)
    (fits : Fits ranges bytes) : ∀ byte ∈ bytes, 128 ≤ byte.toNat := by
  obtain ⟨row, found, rfl⟩ := Option.map_eq_some_iff.mp owes
  exact fits_low _ bytes (fun range inside => (table_tails row
    (List.mem_of_find?_eq_some found) range inside).1) fits

theorem run_sequence (unit : List UInt8) (sequence : Sequence unit) : run [] unit = some [] := by
  obtain ⟨first, ranges, rest, rfl, owes, fits⟩ := (sequence_iff unit).mp sequence
  simpa [run, step, owes] using run_fits ranges rest fits

/-- From any state: the bytes that are owed, and whole code points behind them. -/
theorem run_empty_iff (state : List Range) (text : List UInt8) :
    run state text = some [] ↔ ∃ bytes rest, text = bytes ++ rest ∧ Fits state bytes ∧
      WellFormed rest := by
  constructor
  · intro ran
    induction text generalizing state with
    | nil =>
        cases ran
        exact ⟨[], [], rfl, .nil, .nil⟩
    | cons byte others ih =>
        obtain ⟨next, stepped, tail⟩ := Option.bind_eq_some_iff.mp ran
        obtain ⟨bytes, rest, rfl, fits, formed⟩ := ih next tail
        cases state with
        | nil =>
            have unit : Sequence (byte :: bytes) :=
              (sequence_iff _).mpr ⟨byte, next, bytes, rfl, stepped, fits⟩
            exact ⟨[], byte :: (bytes ++ rest), rfl, .nil, .cons (byte :: bytes) rest unit formed⟩
        | cons range ranges =>
            simp only [step] at stepped
            split at stepped
            · rename_i inside
              cases stepped
              exact ⟨byte :: bytes, rest, rfl, .cons inside fits, formed⟩
            · cases stepped
  · rintro ⟨bytes, rest, rfl, fits, formed⟩
    rw [run_append, run_fits state bytes fits, Option.bind_some]
    induction formed with
    | nil => rfl
    | cons unit others sequence _ ih =>
        rw [run_append, run_sequence unit sequence, Option.bind_some, ih]

theorem run_wellFormed (text : List UInt8) : run [] text = some [] ↔ WellFormed text := by
  rw [run_empty_iff]
  constructor
  · rintro ⟨bytes, rest, rfl, fits, formed⟩
    cases fits
    exact formed
  · intro formed
    exact ⟨[], text, rfl, .nil, formed⟩

theorem wellFormed_append (left right : List UInt8) (one : WellFormed left)
    (two : WellFormed right) :
    WellFormed (left ++ right) := by
  induction one with
  | nil => exact two
  | cons unit rest sequence _ ih =>
      rw [List.append_assoc]
      exact .cons unit _ sequence ih

theorem wellFormed_ascii (byte : UInt8) (rest : List UInt8) (ascii : byte ≤ 0x7F)
    (two : WellFormed rest) :
    WellFormed (byte :: rest) :=
  .cons [byte] rest ⟨[(0x00, 0x7F)], List.mem_cons_self, .cons (by simp [within, ascii]) .nil⟩ two

instance (text : List UInt8) :
    Decidable (WellFormed text) := decidable_of_iff _ (run_wellFormed text)

/-! The characters of the library. -/

theorem within_iff (range : Range) (byte : UInt8) :
    within range byte = true ↔ range.1.toNat ≤ byte.toNat ∧ byte.toNat ≤ range.2.toNat := by
  simp [within, UInt8.le_iff_toNat_le]

theorem toNat_ofNat (v : Nat) (valid : v.isValidChar) : (Char.ofNat v).val.toNat = v := by
  rw [Char.ofNat, dif_pos valid]
  rfl

theorem byte_eq (n : Nat) (byte : UInt8) (same : n % 256 = byte.toNat) : UInt8.ofNat n = byte := by
  rw [← UInt8.toNat_inj, UInt8.toNat_ofNat']
  exact same

theorem within_ofNat (range : Range) (n : Nat) (low : range.1.toNat ≤ n % 256)
    (high : n % 256 ≤ range.2.toNat) :
    within range (UInt8.ofNat n) = true := by
  rw [within_iff, UInt8.toNat_ofNat']
  exact ⟨low, high⟩

theorem within_tail (n : Nat) : within continuation (UInt8.ofNat (n % 64 + 128)) = true := by
  apply within_ofNat <;> simp only [continuation, UInt8.reduceToNat] <;> omega

/-- The library writes a character as one code point of the table. The rows split the lengths at
the characters where the range of the second byte changes. -/
theorem sequence_encode (c : Char) : Sequence (String.utf8EncodeChar c) := by
  have valid : c.val.toNat < 55296 ∨ 57343 < c.val.toNat ∧ c.val.toNat < 1114112 := c.valid
  simp only [String.utf8EncodeChar]
  generalize c.val.toNat = v at valid
  have fits1 (range : Range) (row : [range] ∈ table) (first : within range (UInt8.ofNat v) = true) :
      Sequence [UInt8.ofNat v] := ⟨_, row, .cons first .nil⟩
  split
  · exact fits1 (0x00, 0x7F) (by decide)
      (by apply within_ofNat <;> simp only [UInt8.reduceToNat] <;> omega)
  split
  · refine ⟨[(0xC2, 0xDF), continuation], by decide, .cons ?_ (.cons (within_tail v) .nil)⟩
    apply within_ofNat <;> simp only [UInt8.reduceToNat] <;> omega
  split
  · have three (first second : Range) (row : [first, second, continuation] ∈ table)
        (one : within first (UInt8.ofNat (v / 4096 % 16 + 224)) = true)
        (two : within second (UInt8.ofNat (v / 64 % 64 + 128)) = true) :
        Sequence [UInt8.ofNat (v / 4096 % 16 + 224), UInt8.ofNat (v / 64 % 64 + 128),
          UInt8.ofNat (v % 64 + 128)] :=
      ⟨_, row, .cons one (.cons two (.cons (within_tail v) .nil))⟩
    -- the range of the second byte changes at 0x1000, 0xD000 and 0xE000
    obtain below | below | below | below :
        v < 0x1000 ∨ (0x1000 ≤ v ∧ v < 0xD000) ∨ (0xD000 ≤ v ∧ v < 0xE000) ∨ 0xE000 ≤ v := by
      omega
    · apply three (0xE0, 0xE0) (0xA0, 0xBF) (by decide) <;> apply within_ofNat <;>
        simp only [UInt8.reduceToNat] <;> omega
    · apply three (0xE1, 0xEC) continuation (by decide) ?_ (within_tail _)
      apply within_ofNat <;> simp only [UInt8.reduceToNat] <;> omega
    · apply three (0xED, 0xED) (0x80, 0x9F) (by decide) <;> apply within_ofNat <;>
        simp only [UInt8.reduceToNat] <;> omega
    · apply three (0xEE, 0xEF) continuation (by decide) ?_ (within_tail _)
      apply within_ofNat <;> simp only [UInt8.reduceToNat] <;> omega
  · have four (first second : Range) (row : [first, second, continuation, continuation] ∈ table)
        (one : within first (UInt8.ofNat (v / 262144 % 8 + 240)) = true)
        (two : within second (UInt8.ofNat (v / 4096 % 64 + 128)) = true) :
        Sequence [UInt8.ofNat (v / 262144 % 8 + 240), UInt8.ofNat (v / 4096 % 64 + 128),
          UInt8.ofNat (v / 64 % 64 + 128), UInt8.ofNat (v % 64 + 128)] :=
      ⟨_, row, .cons one (.cons two (.cons (within_tail _) (.cons (within_tail v) .nil)))⟩
    obtain below | below | below :
        v < 0x40000 ∨ (0x40000 ≤ v ∧ v < 0x100000) ∨ 0x100000 ≤ v := by omega
    · apply four (0xF0, 0xF0) (0x90, 0xBF) (by decide) <;> apply within_ofNat <;>
        simp only [UInt8.reduceToNat] <;> omega
    · apply four (0xF1, 0xF3) continuation (by decide) ?_ (within_tail _)
      apply within_ofNat <;> simp only [UInt8.reduceToNat] <;> omega
    · apply four (0xF4, 0xF4) (0x80, 0x8F) (by decide) <;> apply within_ofNat <;>
        simp only [UInt8.reduceToNat] <;> omega

theorem encode_one (b : UInt8) (inside : within (0x00, 0x7F) b = true) :
    ∃ c, String.utf8EncodeChar c = [b] := by
  simp only [within_iff, UInt8.reduceToNat] at inside
  refine ⟨Char.ofNat b.toNat, ?_⟩
  simp only [String.utf8EncodeChar, toNat_ofNat b.toNat (by simp only [Nat.isValidChar]; omega)]
  rw [if_pos (by omega), UInt8.ofNat_toNat]

theorem encode_two (b c : UInt8) (first : within (0xC2, 0xDF) b = true)
    (second : within continuation c = true) :
    ∃ char, String.utf8EncodeChar char = [b, c] := by
  simp only [within_iff, continuation, UInt8.reduceToNat] at first second
  have valid : (b.toNat % 32 * 64 + c.toNat % 64).isValidChar := by
    simp only [Nat.isValidChar]; omega
  refine ⟨Char.ofNat (b.toNat % 32 * 64 + c.toNat % 64), ?_⟩
  simp only [String.utf8EncodeChar, toNat_ofNat _ valid]
  rw [if_neg (by omega), if_pos (by omega)]
  simp only [List.cons.injEq, and_true]
  exact ⟨byte_eq _ b (by omega), byte_eq _ c (by omega)⟩

/-- The second byte is what keeps the value out of the two-byte ones and of the surrogates. -/
theorem encode_three (b c d : UInt8) (first : within (0xE0, 0xEF) b = true)
    (second : within continuation c = true)
    (third : within continuation d = true) (long : b = 0xE0 → 0xA0 ≤ c.toNat)
    (plain : b = 0xED → c.toNat ≤ 0x9F) :
    ∃ char, String.utf8EncodeChar char = [b, c, d] := by
  simp only [within_iff, continuation, UInt8.reduceToNat] at first second third
  simp only [← UInt8.toNat_inj, UInt8.reduceToNat] at long plain
  have valid : (b.toNat % 16 * 4096 + c.toNat % 64 * 64 + d.toNat % 64).isValidChar := by
    simp only [Nat.isValidChar]
    omega
  refine ⟨Char.ofNat (b.toNat % 16 * 4096 + c.toNat % 64 * 64 + d.toNat % 64), ?_⟩
  simp only [String.utf8EncodeChar, toNat_ofNat _ valid]
  rw [if_neg (by omega), if_neg (by omega), if_pos (by omega)]
  simp only [List.cons.injEq, and_true]
  exact ⟨byte_eq _ b (by omega), byte_eq _ c (by omega), byte_eq _ d (by omega)⟩

theorem encode_four (b c d e : UInt8) (first : within (0xF0, 0xF4) b = true)
    (second : within continuation c = true)
    (third : within continuation d = true) (fourth : within continuation e = true)
    (long : b = 0xF0 → 0x90 ≤ c.toNat) (plain : b = 0xF4 → c.toNat ≤ 0x8F) :
    ∃ char, String.utf8EncodeChar char = [b, c, d, e] := by
  simp only [within_iff, continuation, UInt8.reduceToNat] at first second third fourth
  simp only [← UInt8.toNat_inj, UInt8.reduceToNat] at long plain
  have valid : (b.toNat % 8 * 262144 + c.toNat % 64 * 4096 + d.toNat % 64 * 64 +
      e.toNat % 64).isValidChar := by
    simp only [Nat.isValidChar]
    omega
  refine ⟨Char.ofNat
    (b.toNat % 8 * 262144 + c.toNat % 64 * 4096 + d.toNat % 64 * 64 + e.toNat % 64), ?_⟩
  simp only [String.utf8EncodeChar, toNat_ofNat _ valid]
  rw [if_neg (by omega), if_neg (by omega), if_neg (by omega)]
  simp only [List.cons.injEq, and_true]
  exact ⟨byte_eq _ b (by omega), byte_eq _ c (by omega), byte_eq _ d (by omega),
    byte_eq _ e (by omega)⟩

/-- Every code point of the table is a character of the library. -/
theorem encode_sequence (unit : List UInt8) (sequence : Sequence unit) :
    ∃ c, String.utf8EncodeChar c = unit := by
  obtain ⟨row, member, fits⟩ := sequence
  simp only [table, List.mem_cons, List.not_mem_nil, or_false] at member
  rcases member with rfl | rfl | rfl | rfl | rfl | rfl | rfl | rfl | rfl
  · obtain _ | ⟨one, _ | _⟩ := fits
    exact encode_one _ one
  · obtain _ | ⟨one, _ | ⟨two, _ | _⟩⟩ := fits
    exact encode_two _ _ one two
  iterate 4
    obtain _ | ⟨one, _ | ⟨two, _ | ⟨three, _ | _⟩⟩⟩ := fits
    simp only [within_iff, continuation, UInt8.reduceToNat] at one two three
    apply encode_three <;>
      simp only [within_iff, continuation, ← UInt8.toNat_inj, UInt8.reduceToNat] <;> omega
  iterate 3
    obtain _ | ⟨one, _ | ⟨two, _ | ⟨three, _ | ⟨four, _ | _⟩⟩⟩⟩ := fits
    simp only [within_iff, continuation, UInt8.reduceToNat] at one two three four
    apply encode_four <;>
      simp only [within_iff, continuation, ← UInt8.toNat_inj, UInt8.reduceToNat] <;> omega

theorem wellFormed_iff (text : List UInt8) :
    WellFormed text ↔ ∃ chars : List Char, text = chars.flatMap String.utf8EncodeChar := by
  constructor
  · intro formed
    induction formed with
    | nil => exact ⟨[], rfl⟩
    | cons unit rest sequence _ ih =>
        obtain ⟨c, rfl⟩ := encode_sequence unit sequence
        obtain ⟨chars, rfl⟩ := ih
        exact ⟨c :: chars, rfl⟩
  · rintro ⟨chars, rfl⟩
    induction chars with
    | nil => exact .nil
    | cons c rest ih => exact .cons _ _ (sequence_encode c) ih

/-- The machine accepts what the library calls valid UTF-8. -/
theorem wellFormed_valid (text : List UInt8) : WellFormed text ↔ text.toByteArray.IsValidUTF8 := by
  rw [wellFormed_iff]
  constructor
  · rintro ⟨chars, rfl⟩
    exact ⟨chars, rfl⟩
  · rintro ⟨chars, same⟩
    exact ⟨chars, List.toByteArray_inj.mp same⟩

/-! Texts that can go on. -/

def Beginning (text : List UInt8) : Prop := ∃ more, WellFormed (text ++ more)

theorem step_ranges (state next : List Range) (byte : UInt8)
    (proper : ∀ range ∈ state, range.1 ≤ range.2)
    (stepped : step state byte = some next) : ∀ range ∈ next, range.1 ≤ range.2 := by
  cases state with
  | nil =>
      obtain ⟨row, found, rfl⟩ := Option.map_eq_some_iff.mp stepped
      exact fun range inside => (table_tails row (List.mem_of_find?_eq_some found) range inside).2
  | cons range rest =>
      simp only [step] at stepped
      split at stepped
      · cases stepped
        exact fun other member => proper other (List.mem_cons_of_mem _ member)
      · cases stepped

theorem run_ranges (state next : List Range) (text : List UInt8)
    (proper : ∀ range ∈ state, range.1 ≤ range.2)
    (ran : run state text = some next) : ∀ range ∈ next, range.1 ≤ range.2 := by
  induction text generalizing state with
  | nil =>
      cases ran
      exact proper
  | cons byte rest ih =>
      obtain ⟨middle, stepped, later⟩ := Option.bind_eq_some_iff.mp ran
      exact ih middle (step_ranges state middle byte proper stepped) later

theorem fits_first (ranges : List Range) (proper : ∀ range ∈ ranges, range.1 ≤ range.2) :
    Fits ranges (ranges.map Prod.fst) := by
  induction ranges with
  | nil => exact .nil
  | cons range rest ih =>
      obtain ⟨here, others⟩ := List.forall_mem_cons.mp proper
      exact .cons (by simp [within, here]) (ih others)

/-- The machine goes on as long as the text is the beginning of another one. -/
theorem beginning_iff (text : List UInt8) : Beginning text ↔ run [] text ≠ none := by
  constructor
  · rintro ⟨more, formed⟩ stopped
    have ran := (run_wellFormed _).mpr formed
    rw [run_append, stopped] at ran
    cases ran
  · intro went
    obtain ⟨next, ran⟩ := Option.ne_none_iff_exists'.mp went
    -- the lowest byte of each range that is owed completes the text
    have fits := fits_first next (run_ranges [] next text
      (fun _ member => absurd member List.not_mem_nil) ran)
    refine ⟨next.map Prod.fst, (run_wellFormed _).mp ?_⟩
    rw [run_append, ran]
    exact run_fits next _ fits

end MuduoChat.Utf8
