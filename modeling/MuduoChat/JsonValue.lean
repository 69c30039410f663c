import MuduoChat.SortedMap
import MuduoChat.Utf8

/-!
The values of CHAT/thirdparty/json.hpp: basic_json with its default types, where an object is a
std::map and so is kept in the order of its keys. The floating-point numbers and their conversions
are parameters. A value that parse returns is never discarded, so value_t::discarded is left out.
-/

namespace MuduoChat.JsonValue
open SortedMap (Sorted)
open Utf8 (WellFormed)

abbrev Bytes := List UInt8

inductive Value (F : Type) where
  | null
  | object (members : List (Bytes × Value F))
  | array (values : List (Value F))
  | string (value : Bytes)
  | boolean (value : Bool)
  | number_integer (value : Int64)
  | number_unsigned (value : UInt64)
  | number_float (value : F)

/-- double with std::strtod, std::isfinite and detail::to_chars. -/
structure Floats (F : Type) where
  strtod : Bytes → F
  isfinite : F → Bool
  to_chars : F → Bytes

variable {F : Type}

@[elab_as_elim]
theorem Value.induct {P : Value F → Prop} (null : P .null)
    (object : ∀ members, (∀ entry ∈ members, P entry.2) → P (.object members))
    (array : ∀ values, (∀ value ∈ values, P value) → P (.array values))
    (string : ∀ value, P (.string value))
    (boolean : ∀ value, P (.boolean value)) (number_integer : ∀ value, P (.number_integer value))
    (number_unsigned : ∀ value, P (.number_unsigned value))
    (number_float : ∀ value, P (.number_float value))
    (value : Value F) : P value :=
  Value.rec (motive_1 := P) (motive_2 := fun members => ∀ entry ∈ members, P entry.2)
    (motive_3 := fun values => ∀ value ∈ values, P value) (motive_4 := fun entry => P entry.2)
    null object array string boolean number_integer number_unsigned number_float
    (fun _ member => absurd member List.not_mem_nil)
    (fun _ _ first rest => List.forall_mem_cons.mpr ⟨first, rest⟩)
    (fun _ member => absurd member List.not_mem_nil)
    (fun _ _ first rest => List.forall_mem_cons.mpr ⟨first, rest⟩)
    (fun _ _ second => second) value

mutual

/-- The strings and the keys in a value. -/
def Value.texts : Value F → List Bytes
  | .string value => [value]
  | .object members => textsOfMembers members
  | .array values => textsOfValues values
  | _ => []

def textsOfMembers : List (Bytes × Value F) → List Bytes
  | [] => []
  | (key, value) :: rest => key :: (value.texts ++ textsOfMembers rest)

def textsOfValues : List (Value F) → List Bytes
  | [] => []
  | value :: rest => value.texts ++ textsOfValues rest

end

mutual

def Value.doubles : Value F → List F
  | .number_float value => [value]
  | .object members => doublesOfMembers members
  | .array values => doublesOfValues values
  | _ => []

def doublesOfMembers : List (Bytes × Value F) → List F
  | [] => []
  | (_, value) :: rest => value.doubles ++ doublesOfMembers rest

def doublesOfValues : List (Value F) → List F
  | [] => []
  | value :: rest => value.doubles ++ doublesOfValues rest

end

mutual

/-- The objects in a value are maps. -/
def Value.Ordered : Value F → Prop
  | .object members => Sorted members ∧ OrderedMembers members
  | .array values => OrderedValues values
  | _ => True

def OrderedMembers : List (Bytes × Value F) → Prop
  | [] => True
  | (_, value) :: rest => value.Ordered ∧ OrderedMembers rest

def OrderedValues : List (Value F) → Prop
  | [] => True
  | value :: rest => value.Ordered ∧ OrderedValues rest

end

theorem mem_textsOfMembers (members : List (Bytes × Value F)) (text : Bytes) :
    text ∈ textsOfMembers members ↔ ∃ entry ∈ members, text = entry.1 ∨ text ∈ entry.2.texts := by
  induction members with
  | nil => simp [textsOfMembers]
  | cons entry rest ih => simp [textsOfMembers, ih, or_assoc]

theorem mem_textsOfValues (values : List (Value F)) (text : Bytes) :
    text ∈ textsOfValues values ↔ ∃ value ∈ values, text ∈ value.texts := by
  induction values with
  | nil => simp [textsOfValues]
  | cons value rest ih => simp [textsOfValues, ih]

theorem mem_doublesOfMembers (members : List (Bytes × Value F)) (x : F) :
    x ∈ doublesOfMembers members ↔ ∃ entry ∈ members, x ∈ entry.2.doubles := by
  induction members with
  | nil => simp [doublesOfMembers]
  | cons entry rest ih => simp [doublesOfMembers, ih]

theorem mem_doublesOfValues (values : List (Value F)) (x : F) :
    x ∈ doublesOfValues values ↔ ∃ value ∈ values, x ∈ value.doubles := by
  induction values with
  | nil => simp [doublesOfValues]
  | cons value rest ih => simp [doublesOfValues, ih]

theorem orderedMembers_iff (members : List (Bytes × Value F)) :
    OrderedMembers members ↔ ∀ entry ∈ members, entry.2.Ordered := by
  induction members with
  | nil => simp [OrderedMembers]
  | cons entry rest ih => simp [OrderedMembers, ih]

theorem orderedValues_iff (values : List (Value F)) :
    OrderedValues values ↔ ∀ value ∈ values, value.Ordered := by
  induction values with
  | nil => simp [OrderedValues]
  | cons value rest ih => simp [OrderedValues, ih]

end MuduoChat.JsonValue
