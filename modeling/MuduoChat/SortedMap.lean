import Mathlib.Data.List.Infix

/-!
A map as the list of its entries in the order of their keys, as std::map walks through it.
An assignment replaces the entry of its key or puts a new one in its place. Nothing here
names a program.
-/

namespace MuduoChat.SortedMap

variable {K V W : Type}

def Sorted [LT K] (entries : List (K × V)) : Prop := entries.Pairwise fun first second =>
    first.1 < second.1

section Assign
variable [LT K] [DecidableLT K] [DecidableEq K]

def assign (key : K) (value : V) : List (K × V) → List (K × V)
  | [] => [(key, value)]
  | (first, held) :: rest =>
      if key = first then (key, value) :: rest
      else if key < first then (key, value) :: (first, held) :: rest
      else (first, held) :: assign key value rest

/-- The map that the assignments leave, in their order. -/
def assignAll (assignments : List (K × V)) (entries : List (K × V)) : List (K × V) :=
  assignments.foldl (fun entries assignment => assign assignment.1 assignment.2 entries) entries

theorem mem_assign (key : K) (value : V) (entries : List (K × V)) (entry : K × V)
    (member : entry ∈ assign key value entries) : entry = (key, value) ∨ entry ∈ entries := by
  induction entries with
  | nil => exact .inl (List.mem_singleton.mp member)
  | cons head rest ih =>
      obtain ⟨first, held⟩ := head
      simp only [assign] at member
      split at member
      · rcases List.mem_cons.mp member with here | inside
        · exact .inl here
        · exact .inr (List.mem_cons_of_mem _ inside)
      · split at member
        · exact List.mem_cons.mp member
        · rcases List.mem_cons.mp member with rfl | inside
          · exact .inr List.mem_cons_self
          · exact (ih inside).imp_right (List.mem_cons_of_mem _)

theorem mem_assignAll (assignments entries : List (K × V)) (entry : K × V)
    (member : entry ∈ assignAll assignments entries) : entry ∈ assignments ∨ entry ∈ entries := by
  induction assignments generalizing entries with
  | nil => exact .inr member
  | cons assignment rest ih =>
      rcases ih _ member with inside | outside
      · exact .inl (List.mem_cons_of_mem _ inside)
      · rcases mem_assign _ _ _ _ outside with rfl | held
        · exact .inl List.mem_cons_self
        · exact .inr held

theorem assign_assign (key : K) (first second : V) (entries : List (K × V)) :
    assign key second (assign key first entries) = assign key second entries := by
  induction entries with
  | nil => simp [assign]
  | cons head rest ih =>
      obtain ⟨other, held⟩ := head
      simp only [assign]
      split
      · simp [assign]
      · rename_i different
        split
        · simp [assign]
        · rename_i notLess
          simp [assign, different, notLess, ih]

section Lookup
variable [BEq K] [LawfulBEq K]

theorem lookup_assign_self (key : K) (value : V) (entries : List (K × V)) :
    (assign key value entries).lookup key = some value := by
  induction entries with
  | nil => simp [assign]
  | cons head rest ih =>
      obtain ⟨first, held⟩ := head
      simp only [assign]
      split
      · simp
      · rename_i other
        split
        · simp
        · simpa [List.lookup_cons, beq_eq_false_iff_ne.mpr other] using ih

theorem lookup_assign_other (key other : K) (value : V) (entries : List (K × V))
    (different : other ≠ key) :
    (assign key value entries).lookup other = entries.lookup other := by
  induction entries with
  | nil => simp [assign, List.lookup_cons, beq_eq_false_iff_ne.mpr different]
  | cons head rest ih =>
      obtain ⟨first, held⟩ := head
      simp only [assign]
      split
      · rename_i same
        simp [List.lookup_cons, beq_eq_false_iff_ne.mpr different, ← same]
      · split
        · simp [List.lookup_cons, beq_eq_false_iff_ne.mpr different]
        · simp [List.lookup_cons, ih]

/-- Of assignments to different keys none replaces another. -/
theorem lookup_assignAll (assignments entries : List (K × V))
    (distinct : (assignments.map Prod.fst).Nodup) (key : K) :
    (assignAll assignments entries).lookup key = (assignments.lookup key).or
    (entries.lookup key) := by
  induction assignments generalizing entries with
  | nil => rfl
  | cons assignment rest ih =>
      obtain ⟨first, value⟩ := assignment
      obtain ⟨fresh, distinct⟩ := List.nodup_cons.mp distinct
      have later := ih (assign first value entries) distinct
      by_cases same : key = first
      · subst same
        have absent : rest.lookup key = none := by
          rw [List.lookup_eq_none_iff]
          intro entry member
          exact bne_iff_ne.mpr fun equal => fresh (List.mem_map.mpr ⟨entry, member, equal.symm⟩)
        rw [absent, lookup_assign_self] at later
        simpa [assignAll] using later
      · rw [lookup_assign_other first key value entries same] at later
        simpa [assignAll, List.lookup_cons, beq_eq_false_iff_ne.mpr same] using later

omit [LT K] [DecidableLT K] [DecidableEq K] [LawfulBEq K] in
theorem lookup_mapped (change : V → W) (entries : List (K × V)) (key : K) :
    (entries.map fun entry => (entry.1, change entry.2)).lookup key =
    (entries.lookup key).map change := by
  induction entries with
  | nil => rfl
  | cons entry rest ih =>
      obtain ⟨first, value⟩ := entry
      simp only [List.map_cons, List.lookup_cons]
      split
      · rfl
      · exact ih

end Lookup

end Assign

section Order
variable [LT K] [DecidableLT K] [DecidableEq K] [LE K] [Std.IsLinearOrder K] [Std.LawfulOrderLT K]

theorem sorted_assign (key : K) (value : V) (entries : List (K × V)) (sorted : Sorted entries) :
    Sorted (assign key value entries) := by
  induction entries with
  | nil => exact List.pairwise_singleton _ _
  | cons head rest ih =>
      obtain ⟨first, held⟩ := head
      obtain ⟨below, tail⟩ := List.pairwise_cons.mp sorted
      simp only [assign]
      split
      · rename_i same
        exact List.pairwise_cons.mpr ⟨same ▸ below, tail⟩
      · rename_i different
        split
        · rename_i less
          refine List.pairwise_cons.mpr ⟨?_, sorted⟩
          intro entry member
          rcases List.mem_cons.mp member with rfl | inside
          · exact less
          · exact Std.lt_trans less (below entry inside)
        · rename_i notLess
          refine List.pairwise_cons.mpr ⟨?_, ih tail⟩
          intro entry member
          rcases mem_assign key value rest entry member with rfl | inside
          · rcases Std.lt_trichotomy first key with less | same | more
            · exact less
            · exact absurd same.symm different
            · exact absurd more notLess
          · exact below entry inside

theorem sorted_assignAll (assignments entries : List (K × V)) (sorted : Sorted entries) :
    Sorted (assignAll assignments entries) := by
  induction assignments generalizing entries with
  | nil => exact sorted
  | cons assignment rest ih => exact ih _ (sorted_assign _ _ _ sorted)

/-- A key behind all the others goes to the end. -/
theorem assign_last (key : K) (value : V) (entries : List (K × V))
    (below : ∀ entry ∈ entries, entry.1 < key) :
    assign key value entries = entries ++ [(key, value)] := by
  induction entries with
  | nil => rfl
  | cons head rest ih =>
      obtain ⟨first, held⟩ := head
      have less : first < key := below _ List.mem_cons_self
      have different : key ≠ first := fun same => Std.lt_irrefl (same ▸ less)
      have notLess : ¬ key < first := fun more => Std.lt_irrefl (Std.lt_trans less more)
      simp only [assign, if_neg different, if_neg notLess, List.cons_append]
      rw [ih fun entry member => below entry (List.mem_cons_of_mem _ member)]

theorem assignAll_append (front entries : List (K × V)) (sorted : Sorted (front ++ entries)) :
    assignAll entries front = front ++ entries := by
  induction entries generalizing front with
  | nil => exact (List.append_nil front).symm
  | cons entry rest ih =>
      obtain ⟨_, _, across⟩ := List.pairwise_append.mp sorted
      have last := assign_last entry.1 entry.2 front fun other member =>
        across other member entry List.mem_cons_self
      have more : Sorted ((front ++ [entry]) ++ rest) := by rwa [List.append_assoc]
      calc assignAll (entry :: rest) front = assignAll rest (front ++ [entry]) :=
        congrArg (assignAll rest) last
        _ = (front ++ [entry]) ++ rest := ih _ more
        _ = front ++ entry :: rest := List.append_assoc _ _ _

/-- A sorted list of assignments is the map it leaves. -/
theorem assignAll_sorted (entries : List (K × V)) (sorted : Sorted entries) :
    assignAll entries [] = entries :=
  assignAll_append [] entries sorted

end Order

end MuduoChat.SortedMap
