import Mathlib.Data.List.TakeWhile

/-!
atoi and std::stoi on a C string, as glibc computes them from strtol: blanks, a sign and the
longest row of digits are read, whatever follows is left. strtol stops at the limits of
a 64-bit long; atoi takes the low 32 bits of what it returns, stoi refuses what is no int and
what has no digits. Nothing here names a program.
-/

namespace MuduoChat.CNumbers

def space (byte : UInt8) : Bool := byte == 32 || 9 ≤ byte && byte ≤ 13

def digit (byte : UInt8) : Bool := 48 ≤ byte && byte ≤ 57

/-- A sign, and what follows it. -/
def sign : List UInt8 → Bool × List UInt8
  | 45 :: rest => (true, rest)
  | 43 :: rest => (false, rest)
  | text => (false, text)

/-- The sign and the digits that are read. -/
def scan (text : List UInt8) : Bool × List UInt8 :=
  let signed := sign (text.dropWhile space)
  (signed.1, signed.2.takeWhile digit)

def value (digits : List UInt8) : Nat :=
    Nat.ofDigitChars 10 (digits.map fun byte => Char.ofNat byte.toNat) 0

def signed (negative : Bool) (digits : List UInt8) : Int := if negative then -value digits
    else value digits

def IsInt (number : Int) : Prop := -2147483648 ≤ number ∧ number < 2147483648

instance (number : Int) : Decidable (IsInt number) := inferInstanceAs (Decidable (_ ∧ _))

def strtol (text : List UInt8) : Int :=
  let number := signed (scan text).1 (scan text).2
  if number < -9223372036854775808 then -9223372036854775808
  else if 9223372036854775807 < number then 9223372036854775807
  else number

-- the conversion of a long to an int keeps the low bits
def atoi (text : List UInt8) : Int := (strtol text).bmod 4294967296

inductive StoiError where
  | invalid_argument
  | out_of_range
  deriving DecidableEq

def stoi (text : List UInt8) : Except StoiError Int :=
  if (scan text).2 = [] then .error .invalid_argument
  else if IsInt (strtol text) then .ok (strtol text)
  else .error .out_of_range

/-! The numbers that an int holds. -/

theorem strtol_int (text : List UInt8) (fits : IsInt (signed (scan text).1 (scan text).2)) :
    strtol text = signed (scan text).1 (scan text).2 := by
  obtain ⟨low, high⟩ := fits
  simp only [strtol]
  rw [if_neg (by omega), if_neg (by omega)]

/-- A clamped value lies outside of the ints, just as the number that was read. -/
theorem strtol_isInt (text : List UInt8) :
    IsInt (strtol text) ↔ IsInt (signed (scan text).1 (scan text).2) := by
  simp only [strtol, IsInt]
  split
  · omega
  · split <;> omega

theorem atoi_int (text : List UInt8) (fits : IsInt (signed (scan text).1 (scan text).2)) :
    atoi text = signed (scan text).1 (scan text).2 := by
  rw [atoi, strtol_int text fits]
  obtain ⟨low, high⟩ := fits
  exact Int.bmod_eq_of_le_mul_two (by omega) (by omega)

theorem stoi_int (text : List UInt8) (fits : IsInt (signed (scan text).1 (scan text).2))
    (some_ : (scan text).2 ≠ []) :
    stoi text = .ok (signed (scan text).1 (scan text).2) := by
  rw [stoi, if_neg some_, if_pos ((strtol_isInt text).mpr fits), strtol_int text fits]

/-! Decimal numbers as they are written. -/

/-- A sign, or none. -/
def signs : List (List UInt8) := [[], [43], [45]]

/-- One digit at least, behind an optional sign, and nothing else. -/
structure Numeral where
  mark : List UInt8
  digits : List UInt8
  marks : mark ∈ signs
  nonempty : digits ≠ []
  all : ∀ byte ∈ digits, digit byte = true

def Numeral.text (numeral : Numeral) : List UInt8 := numeral.mark ++ numeral.digits

def Numeral.number (numeral : Numeral) : Int := signed (numeral.mark == [45]) numeral.digits

theorem digit_bounds (byte : UInt8) : digit byte = true ↔ 48 ≤ byte.toNat ∧ byte.toNat ≤ 57 := by
  simp [digit, UInt8.le_iff_toNat_le]

theorem digit_not_space (byte : UInt8) (isDigit : digit byte = true) : space byte = false := by
  obtain ⟨low, high⟩ := (digit_bounds byte).mp isDigit
  simp only [space, UInt8.le_iff_toNat_le, Bool.or_eq_false_iff, beq_eq_false_iff_ne,
    ne_eq, ← UInt8.toNat_inj,
    Bool.and_eq_false_iff, decide_eq_false_iff_not]
  simp only [UInt8.reduceToNat]
  omega

theorem digit_not_sign (byte : UInt8) (isDigit : digit byte = true) : byte ≠ 45 ∧ byte ≠ 43 := by
  obtain ⟨low, high⟩ := (digit_bounds byte).mp isDigit
  simp only [ne_eq, ← UInt8.toNat_inj, UInt8.reduceToNat]
  omega

theorem sign_digit (first : UInt8) (rest : List UInt8) (isDigit : digit first = true) :
    sign (first :: rest) = (false, first :: rest) := by
  obtain ⟨minus, plus⟩ := digit_not_sign first isDigit
  unfold sign
  split
  · rename_i equal
    exact absurd (List.cons.inj equal).1 minus
  · rename_i equal
    exact absurd (List.cons.inj equal).1 plus
  · rfl

theorem takeWhile_digits (digits rest : List UInt8) (all : ∀ byte ∈ digits, digit byte = true)
    (stops : ∀ byte ∈ rest.head?, digit byte = false) :
    (digits ++ rest).takeWhile digit = digits := by
  induction digits with
  | nil =>
      cases rest with
      | nil => rfl
      | cons byte others =>
          rw [List.nil_append, List.takeWhile_cons_of_neg (by simp [stops byte rfl])]
  | cons byte others ih =>
      rw [List.cons_append, List.takeWhile_cons_of_pos (all byte List.mem_cons_self)]
      rw [ih fun other member => all other (List.mem_cons_of_mem byte member)]

/-- A numeral is read to its end, whatever else follows it. -/
theorem scan_numeral (numeral : Numeral) (rest : List UInt8)
    (stops : ∀ byte ∈ rest.head?, digit byte = false) :
    scan (numeral.text ++ rest) = (numeral.mark == [45], numeral.digits) := by
  obtain ⟨mark, digits, marks, nonempty, all⟩ := numeral
  obtain ⟨first, others, rfl⟩ := List.exists_cons_of_ne_nil nonempty
  have isDigit := all first List.mem_cons_self
  have read := takeWhile_digits (first :: others) rest all stops
  rw [List.cons_append] at read
  simp only [signs, List.mem_cons, List.not_mem_nil, or_false] at marks
  obtain rfl | rfl | rfl := marks
  · have blank : ((first :: (others ++ rest)).dropWhile space) = first :: (others ++ rest) :=
      List.dropWhile_cons_of_neg (by simp [digit_not_space first isDigit])
    simp only [scan, Numeral.text, List.nil_append, List.cons_append, blank,
      sign_digit _ _ isDigit, read]
    rfl
  · have blank : ((43 :: first :: (others ++ rest)).dropWhile space) = 43 :: first ::
      (others ++ rest) :=
      List.dropWhile_cons_of_neg (by decide)
    simp only [scan, Numeral.text, List.cons_append, List.nil_append, blank, sign, read]
    rfl
  · have blank : ((45 :: first :: (others ++ rest)).dropWhile space) = 45 :: first ::
      (others ++ rest) :=
      List.dropWhile_cons_of_neg (by decide)
    simp only [scan, Numeral.text, List.cons_append, List.nil_append, blank, sign, read]
    rfl

theorem atoi_numeral (numeral : Numeral) (fits : IsInt numeral.number) :
    atoi numeral.text = numeral.number := by
  have read := scan_numeral numeral [] (by simp)
  rw [List.append_nil] at read
  have number : signed (scan numeral.text).1 (scan numeral.text).2 = numeral.number := by
    rw [read, Numeral.number]
  rw [atoi_int numeral.text (by rw [number]; exact fits), number]

theorem stoi_numeral (numeral : Numeral) (fits : IsInt numeral.number) :
    stoi numeral.text = .ok numeral.number := by
  have read := scan_numeral numeral [] (by simp)
  rw [List.append_nil] at read
  have number : signed (scan numeral.text).1 (scan numeral.text).2 = numeral.number := by
    rw [read, Numeral.number]
  rw [stoi_int numeral.text (by rw [number]; exact fits) (by rw [read]; exact numeral.nonempty),
    number]

end MuduoChat.CNumbers
