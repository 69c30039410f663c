import Mathlib.Data.List.Basic

/-!
A block of cells as a list, with the two uses of `std::copy` that a contiguous
buffer makes: copying foreign cells in, and moving a range of the block towards
its front. Both run cell by cell, front to back, as the library's loop does.
Nothing here names a program.
-/

namespace MuduoChat.ByteMemory
variable {Cell : Type}

/-- `std::copy` of `cells` to position `dest`. -/
def copyIn : List Cell → Nat → List Cell → List Cell
  | memory, _, [] => memory
  | memory, dest, cell :: rest => copyIn (memory.set dest cell) (dest + 1) rest

/-- `std::copy` of the `count` cells from `first` on to `dest`, inside one block. -/
def copyWithin (memory : List Cell) (first dest : Nat) : Nat → List Cell
  | 0 => memory
  | count + 1 =>
      match memory[first]? with
      | none => memory
      | some cell => copyWithin (memory.set dest cell) (first + 1) (dest + 1) count

/-- `vector::resize`. -/
def resize (fill : Cell) (memory : List Cell) (size : Nat) : List Cell :=
  memory.take size ++ List.replicate (size - memory.length) fill

/-- The cells from `first` up to, not including, `last`. -/
def slice (memory : List Cell) (first last : Nat) : List Cell :=
  (memory.take last).drop first

@[simp] theorem length_copyIn (memory : List Cell) (dest : Nat) (cells : List Cell) :
    (copyIn memory dest cells).length = memory.length := by
  induction cells generalizing memory dest with
  | nil => rfl
  | cons cell rest ih => rw [copyIn, ih, List.length_set]

@[simp] theorem length_copyWithin (memory : List Cell) (first dest count : Nat) :
    (copyWithin memory first dest count).length = memory.length := by
  induction count generalizing memory first dest with
  | zero => rfl
  | succ count ih =>
      simp only [copyWithin]
      cases memory[first]? with
      | none => rfl
      | some cell => simp only [ih, List.length_set]

@[simp] theorem length_resize (fill : Cell) (memory : List Cell) (size : Nat) :
    (resize fill memory size).length = size := by
  simp only [resize, List.length_append, List.length_take, List.length_replicate]
  omega

theorem length_slice (memory : List Cell) (first last : Nat) (inside : last ≤ memory.length) :
    (slice memory first last).length = last - first := by
  simp [slice, Nat.min_eq_left inside]

@[simp] theorem slice_self (memory : List Cell) (position : Nat) :
    slice memory position position = [] := by
  simp [slice]

/-- Dropping from a slice moves its front. -/
theorem drop_slice (memory : List Cell) (first last count : Nat) :
    (slice memory first last).drop count = slice memory (first + count) last := by
  simp [slice, List.drop_drop]

theorem take_slice (memory : List Cell) (first last count : Nat) (fits : first + count ≤ last) :
    (slice memory first last).take count = (memory.drop first).take count := by
  rw [slice, List.drop_take, List.take_take, Nat.min_eq_left (by omega)]

theorem slice_resize (fill : Cell) (memory : List Cell) (first last size : Nat)
    (inside : last ≤ memory.length) (kept : last ≤ size) :
    slice (resize fill memory size) first last = slice memory first last := by
  have head : (resize fill memory size).take last = memory.take last := by
    rw [resize, List.take_append_of_le_length (by simp; omega), List.take_take,
      Nat.min_eq_left kept]
  rw [slice, slice, head]

/-- Cells copied in behind a slice extend it; nothing before them changes. -/
theorem slice_copyIn (memory : List Cell) (first last : Nat) (cells : List Cell)
    (ordered : first ≤ last) (room : last + cells.length ≤ memory.length) :
    slice (copyIn memory last cells) first (last + cells.length) = slice memory first last ++
      cells := by
  induction cells generalizing memory last with
  | nil => simp [copyIn]
  | cons cell rest ih =>
      have inside : last < memory.length := by simp at room; omega
      have roomRest : last + 1 + rest.length ≤ (memory.set last cell).length := by
        simp at room ⊢; omega
      have tail := ih (memory.set last cell) (last + 1) (by omega) roomRest
      have grown : slice (memory.set last cell) first (last + 1) = slice memory first last ++
          [cell] := by
        rw [slice, slice, List.take_add_one, List.take_set_of_le (Nat.le_refl last),
          List.drop_append_of_le_length (by simp; omega)]
        simp [inside]
      have shift : last + (cell :: rest).length = last + 1 + rest.length := by simp; omega
      rw [shift, copyIn, tail, grown, List.append_assoc, List.singleton_append]

/-- Moving a range to a place before it moves its cells unchanged: the loop
overwrites a cell only after it has read it. -/
theorem slice_copyWithin (memory : List Cell) (first dest count : Nat)
    (forward : dest ≤ first) (inside : first + count ≤ memory.length) :
    slice (copyWithin memory first dest count) dest (dest + count) =
      slice memory first (first + count) := by
  suffices general : ∀ low, low ≤ dest →
      slice (copyWithin memory first dest count) low (dest + count) =
        slice memory low dest ++ slice memory first (first + count) by
    simpa using general dest (Nat.le_refl dest)
  induction count generalizing memory first dest with
  | zero => intro low _; simp [copyWithin]
  | succ count ih =>
      intro low below
      have present : first < memory.length := by omega
      have tail := ih (memory.set dest memory[first]) (first + 1) (dest + 1) (by omega)
        (by simp; omega) low (by omega)
      have grown : slice (memory.set dest memory[first]) low (dest + 1) =
          slice memory low dest ++ [memory[first]] := by
        rw [slice, slice, List.take_add_one, List.take_set_of_le (Nat.le_refl dest),
          List.drop_append_of_le_length (by simp; omega)]
        simp [show dest < memory.length by omega]
      have rest : slice (memory.set dest memory[first]) (first + 1) (first + 1 + count) =
          slice memory (first + 1) (first + 1 + count) := by
        rw [slice, slice, List.drop_take, List.drop_take, List.drop_set_of_lt (by omega)]
      have head : slice memory first (first + (count + 1)) =
          memory[first] :: slice memory (first + 1) (first + 1 + count) := by
        rw [slice, slice, List.drop_take, List.drop_take, List.drop_eq_getElem_cons present,
          show first + (count + 1) - first = count + 1 by omega,
          show first + 1 + count - (first + 1) = count by omega, List.take_succ_cons]
      rw [copyWithin, List.getElem?_eq_getElem present,
        show dest + (count + 1) = dest + 1 + count by omega]
      simp only
      rw [tail, grown, rest, head, List.append_assoc, List.singleton_append]

end MuduoChat.ByteMemory
