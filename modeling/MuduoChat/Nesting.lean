import Mathlib.Data.List.Infix

/-!
Bytes read for their brackets and quotation marks only: how many brackets are open, and whether the
next byte is outside of the strings, inside of one, or behind a backslash there. A text that opens a
bracket and closes it with its last byte has no such text, nor any other balanced one, for a proper
beginning or end. Nothing here names a program.
-/

namespace MuduoChat.Nesting

abbrev Bytes := List UInt8

inductive Mode where
  | outside
  | inside
  | escaped
  deriving DecidableEq

structure State where
  depth : Int
  mode : Mode

def opening (byte : UInt8) : Bool := byte == 91 || byte == 123

def closing (byte : UInt8) : Bool := byte == 93 || byte == 125

/-- What may stand behind a backslash. -/
def letters : Bytes := [34, 92, 47, 98, 102, 110, 114, 116, 117]

/-- Outside of the strings there is neither a backslash nor a byte past ASCII. -/
def step (state : State) (byte : UInt8) : Option State :=
  match state.mode with
  | .outside =>
      if byte = 34 then some { state with mode := .inside }
      else if opening byte then some { state with depth := state.depth + 1 }
      else if closing byte then some { state with depth := state.depth - 1 }
      else if byte = 92 ∨ 127 < byte then none
      else some state
  | .inside =>
      if byte = 34 then some { state with mode := .outside }
      else if byte = 92 then some { state with mode := .escaped }
      else some state
  | .escaped => if byte ∈ letters then some { state with mode := .inside } else none

/-- The walk along a text, as long as the depth before each byte is at least `low`. -/
def walk (low : Int) : State → Bytes → Option State
  | state, [] => some state
  | state, byte :: rest =>
      if low ≤ state.depth then (step state byte).bind fun next => walk low next rest else none

def run : State → Bytes → Option State
  | state, [] => some state
  | state, byte :: rest => (step state byte).bind fun next => run next rest

def start : State := ⟨0, .outside⟩

/-- All that was opened is closed. -/
def Balanced (text : Bytes) : Prop := run start text = some start

/-- The first byte opens a bracket, and not before the last one it is closed. -/
def Closed (text : Bytes) : Prop :=
  ∃ first rest, text = first :: rest ∧ opening first = true ∧ walk 1 ⟨1, .outside⟩ rest = some start

/-! Walks one after the other. -/

theorem walk_append (low : Int) (state : State) (left right : Bytes) :
    walk low state (left ++ right) = (walk low state left).bind fun next => walk low next right :=
      by
  induction left generalizing state with
  | nil => rfl
  | cons byte rest ih =>
      simp only [List.cons_append, walk]
      split
      · cases stepped : step state byte with
        | none => rfl
        | some next => simpa using ih next
      · rfl

theorem walk_run (low : Int) (state last : State) (text : Bytes)
    (walked : walk low state text = some last) :
    run state text = some last := by
  induction text generalizing state with
  | nil => exact walked
  | cons byte rest ih =>
      simp only [walk] at walked
      split at walked
      · obtain ⟨next, stepped, later⟩ := Option.bind_eq_some_iff.mp walked
        rw [run, stepped]
        exact ih next later
      · cases walked

theorem walk_lower (low below : Int) (state last : State) (text : Bytes) (less : below ≤ low)
    (walked : walk low state text = some last) : walk below state text = some last := by
  induction text generalizing state with
  | nil => exact walked
  | cons byte rest ih =>
      simp only [walk] at walked ⊢
      split at walked
      · rename_i high
        obtain ⟨next, stepped, later⟩ := Option.bind_eq_some_iff.mp walked
        rw [if_pos (Int.le_trans less high), stepped]
        exact ih next later
      · cases walked

/-- On the way the depth stays at the bound or above. -/
theorem walk_inside (low : Int) (state last : State) (front rest : Bytes) (more : rest ≠ [])
    (walked : walk low state (front ++ rest) = some last) :
    ∃ middle, run state front = some middle ∧ low ≤ middle.depth ∧ run middle rest = some last := by
  rw [walk_append] at walked
  obtain ⟨middle, first, second⟩ := Option.bind_eq_some_iff.mp walked
  refine ⟨middle, walk_run _ _ _ _ first, ?_, walk_run _ _ _ _ second⟩
  cases rest with
  | nil => exact absurd rfl more
  | cons byte rest =>
      simp only [walk] at second
      split at second
      · assumption
      · cases second

/-! Two walks along the same text. -/

def State.raise (state : State) (more : Int) : State := { state with depth := state.depth + more }

theorem step_raise (state : State) (more : Int) (byte : UInt8) :
    step (state.raise more) byte = (step state byte).map fun next => next.raise more := by
  obtain ⟨depth, mode⟩ := state
  cases mode <;> simp only [step, State.raise]
  · split
    · rfl
    split
    · simp only [Option.map_some, Int.add_right_comm]
    split
    · simp only [Option.map_some, Int.sub_eq_add_neg, Int.add_right_comm]
    split <;> rfl
  · split
    · rfl
    split <;> rfl
  · split <;> rfl

/-- The depth at the beginning does not matter but for the depth at the end. -/
theorem run_raise (state : State) (more : Int) (text : Bytes) :
    run (state.raise more) text = (run state text).map fun last => last.raise more := by
  induction text generalizing state with
  | nil => rfl
  | cons byte rest ih =>
      rw [run, step_raise, run]
      cases step state byte with
      | none => rfl
      | some next => exact ih next

/-- One is outside of the strings where the other is inside. -/
def Opposite (first second : State) : Prop :=
  first.mode = .outside ∧ second.mode = .inside ∨ first.mode = .inside ∧ second.mode = .outside

theorem step_outside (state next : State) (byte : UInt8) (outside : state.mode = .outside)
    (stepped : step state byte = some next) :
    byte ≠ 92 ∧ (byte = 34 ∧ next = { state with mode := .inside } ∨ byte ≠ 34 ∧
      next.mode = .outside) := by
  simp only [step, outside] at stepped
  split at stepped
  · rename_i quote
    cases stepped
    exact ⟨(by rw [quote]; decide), .inl ⟨quote, rfl⟩⟩
  · rename_i quote
    split at stepped
    · rename_i opens
      cases stepped
      exact ⟨(by rintro rfl; cases opens), .inr ⟨quote, rfl⟩⟩
    · split at stepped
      · rename_i closes
        cases stepped
        exact ⟨(by rintro rfl; cases closes), .inr ⟨quote, rfl⟩⟩
      · split at stepped
        · cases stepped
        · rename_i others
          cases stepped
          exact ⟨fun same => others (.inl same), .inr ⟨quote, outside⟩⟩

theorem step_inside (state next : State) (byte : UInt8) (inside : state.mode = .inside)
    (plain : byte ≠ 92)
    (stepped : step state byte = some next) :
    byte = 34 ∧ next.mode = .outside ∨ byte ≠ 34 ∧ next.mode = .inside := by
  simp only [step, inside] at stepped
  split at stepped
  · rename_i quote
    cases stepped
    exact .inl ⟨quote, rfl⟩
  · rename_i quote
    cases stepped
    exact .inr ⟨quote, inside⟩

/-- A quotation mark changes their places, a backslash stops the one outside. -/
theorem step_opposite (first second after other : State) (byte : UInt8)
    (opposite : Opposite first second)
    (one : step first byte = some after) (two : step second byte = some other) :
    Opposite after other := by
  have swap (left right here there : State) (outside : left.mode = .outside)
      (inside : right.mode = .inside)
      (stepped : step left byte = some here) (walked : step right byte = some there) :
      here.mode = .outside ∧ there.mode = .inside ∨ here.mode = .inside ∧ there.mode = .outside :=
        by
    obtain ⟨plain, places⟩ := step_outside left here byte outside stepped
    -- outside of the strings no backslash may come, so only a quotation mark changes places
    rcases step_inside right there byte inside plain walked with ⟨quote, went⟩ | ⟨quote, went⟩ <;>
    rcases places with ⟨same, gone⟩ | ⟨same, gone⟩
    · exact .inr ⟨by rw [gone], went⟩
    · exact absurd quote same
    · exact absurd same quote
    · exact .inl ⟨gone, went⟩
  rcases opposite with ⟨outside, inside⟩ | ⟨inside, outside⟩
  · exact swap first second after other outside inside one two
  · rcases swap second first other after outside inside two one with ⟨gone, went⟩ | ⟨gone, went⟩
    · exact .inr ⟨went, gone⟩
    · exact .inl ⟨went, gone⟩

theorem run_opposite (first second after other : State) (text : Bytes)
    (opposite : Opposite first second)
    (one : run first text = some after) (two : run second text = some other) :
    Opposite after other := by
  induction text generalizing first second with
  | nil =>
      cases one
      cases two
      exact opposite
  | cons byte rest ih =>
      obtain ⟨next, stepped, one⟩ := Option.bind_eq_some_iff.mp one
      obtain ⟨later, walked, two⟩ := Option.bind_eq_some_iff.mp two
      exact ih next later (step_opposite _ _ _ _ byte opposite stepped walked) one two

theorem not_opposite (state other : State) (same : state.mode = other.mode) :
    ¬ Opposite state other := by
  rintro (⟨left, right⟩ | ⟨left, right⟩) <;> rw [same, right] at left <;> cases left

/-! Proper beginnings and ends. -/

theorem closed_walk (text : Bytes) (closed : Closed text) : walk 0 start text = some start := by
  obtain ⟨first, rest, rfl, opens, walked⟩ := closed
  have stepped : step start first = some ⟨1, .outside⟩ := by
    simp only [opening, Bool.or_eq_true, beq_iff_eq] at opens
    rcases opens with rfl | rfl <;> rfl
  rw [walk, if_pos (show 0 ≤ start.depth from Int.le_refl _), stepped]
  exact walk_lower 1 0 _ _ rest (by decide) walked

/-- In the middle of a closed text a bracket is open. -/
theorem closed_inside (front rest : Bytes) (some_ : front ≠ []) (more : rest ≠ [])
    (closed : Closed (front ++ rest)) :
    ∃ middle, run start front = some middle ∧ 1 ≤ middle.depth ∧ run middle rest = some start := by
  obtain ⟨first, others, same, opens, walked⟩ := closed
  cases front with
  | nil => exact absurd rfl some_
  | cons byte front =>
      obtain ⟨rfl, rfl⟩ := List.cons.inj same
      have stepped : step start byte = some ⟨1, .outside⟩ := by
        simp only [opening, Bool.or_eq_true, beq_iff_eq] at opens
        rcases opens with rfl | rfl <;> rfl
      obtain ⟨middle, ran, deep, rest_ran⟩ := walk_inside 1 _ _ front rest more walked
      exact ⟨middle, by rw [run, stepped]; exact ran, deep, rest_ran⟩

theorem cut_unbalanced (front rest : Bytes) (some_ : front ≠ []) (more : rest ≠ [])
    (closed : Closed (front ++ rest)) :
    ¬ Balanced front := by
  intro balanced
  obtain ⟨middle, ran, deep, _⟩ := closed_inside front rest some_ more closed
  rw [balanced] at ran
  cases ran
  exact absurd deep (by decide)

/-- Raised to the depth of the middle, the walk along the rest would end that much above the
ground. -/
theorem raised_end (middle : State) (rest : Bytes) (deep : 1 ≤ middle.depth)
    (outside : middle.mode = .outside)
    (ran : run middle rest = some start) : ¬ Balanced rest := by
  intro balanced
  obtain ⟨depth, mode⟩ := middle
  obtain rfl : mode = .outside := outside
  -- the same bytes move the depth by the same amount from anywhere
  have raised := run_raise start depth rest
  have same : start.raise depth = ⟨depth, .outside⟩ := by simp [start, State.raise]
  rw [same, ran, balanced] at raised
  simp only [Option.map_some, Option.some.injEq, start, State.raise, State.mk.injEq] at raised
  simp only at deep
  omega

theorem inside_end (middle : State) (rest : Bytes) (inside : middle.mode = .inside)
    (ran : run middle rest = some start) :
    ¬ Balanced rest := by
  intro balanced
  have opposite : Opposite start middle := .inl ⟨rfl, inside⟩
  exact not_opposite start start rfl
    (run_opposite start middle start start rest opposite balanced ran)

theorem end_unbalanced (front rest : Bytes) (some_ : front ≠ []) (more : rest ≠ [])
    (closed : Closed (front ++ rest)) :
    ¬ Balanced rest := by
  obtain ⟨middle, _, deep, ran⟩ := closed_inside front rest some_ more closed
  -- the end begins outside, where the middle of the whole may be in a string
  cases mode : middle.mode with
  | outside => exact raised_end middle rest deep mode ran
  | inside => exact inside_end middle rest mode ran
  | escaped =>
      intro balanced
      cases rest with
      | nil => exact absurd rfl more
      | cons byte rest =>
          obtain ⟨next, stepped, ran⟩ := Option.bind_eq_some_iff.mp ran
          obtain ⟨later, walked, balanced⟩ := Option.bind_eq_some_iff.mp balanced
          have next_inside : next = { middle with mode := .inside } := by
            simp only [step, mode] at stepped
            split at stepped
            · cases stepped
              rfl
            · cases stepped
          obtain ⟨_, ⟨_, went⟩ | ⟨_, went⟩⟩ := step_outside start later byte rfl walked
          · -- behind the quotation mark both are inside, but not at the same depth
            have raised := run_raise later middle.depth rest
            have same : later.raise middle.depth = next := by
              simp [went, next_inside, State.raise, start]
            rw [same, ran, balanced] at raised
            simp only [Option.map_some, Option.some.injEq, start, State.raise,
              State.mk.injEq] at raised
            omega
          · have opposite : Opposite later next := .inl ⟨went, by rw [next_inside]⟩
            exact not_opposite start start rfl
              (run_opposite later next start start rest opposite balanced ran)

/-- Nor has it an end that is balanced behind a byte order mark. -/
theorem marked_end_unbalanced (front rest : Bytes) (some_ : front ≠ [])
    (closed : Closed (front ++ 0xEF :: 0xBB :: 0xBF :: rest)) :
    ¬ Balanced rest := by
  obtain ⟨middle, _, _, ran⟩ := closed_inside front _ some_ (by simp) closed
  obtain ⟨depth, mode⟩ := middle
  cases mode with
  | outside => cases ran
  | escaped => cases ran
  | inside => exact inside_end ⟨depth, .inside⟩ rest rfl ran

theorem closed_balanced (text : Bytes) (closed : Closed text) :
    Balanced text := walk_run _ _ _ _ (closed_walk text closed)

theorem closed_nonempty (text : Bytes) (closed : Closed text) : text ≠ [] := by
  obtain ⟨first, rest, rfl, _⟩ := closed
  simp

/-- Of two closed texts neither begins the other. -/
theorem closed_prefix (first second more : Bytes) (one : Closed first) (two : Closed second)
    (whole : second = first ++ more) :
    more = [] := by
  by_contra some_
  subst whole
  exact cut_unbalanced first more (closed_nonempty first one) some_ two (closed_balanced first one)

end MuduoChat.Nesting
