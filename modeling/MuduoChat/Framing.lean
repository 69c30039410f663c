import Mathlib.Data.List.TakeWhile

/-!
Bodies ended by a delimiter, sent as one stream that arrives in pieces. A
receiver here reads of each piece only what stands before its first delimiter.
When that receiver can tell a proper end of a body from a body, the pieces it
accepts are whole frames. Without a delimiter a receiver has only the bodies
themselves to go by; when it accepts neither less nor more than one body, the
pieces it accepts are the bodies. Nothing here names a program.
-/

namespace MuduoChat.Framing

variable {α : Type} [DecidableEq α]

def frame (delimiter : α) (body : List α) : List α := body ++ [delimiter]

def stream (delimiter : α) (bodies : List (List α)) : List α :=
    (bodies.map (frame delimiter)).flatten

def firstBody (delimiter : α) (piece : List α) : List α := piece.takeWhile fun x =>
    decide (x ≠ delimiter)

omit [DecidableEq α] in
theorem stream_cons (delimiter : α) (body : List α) (bodies : List (List α)) :
    stream delimiter (body :: bodies) = body ++ delimiter :: stream delimiter bodies := by
  simp [stream, frame]

omit [DecidableEq α] in
theorem stream_nil_iff (delimiter : α) (bodies : List (List α)) :
    stream delimiter bodies = [] ↔ bodies = [] := by
  cases bodies with
  | nil => simp [stream]
  | cons body bodies => simp [stream_cons]

theorem firstBody_open (delimiter : α) (body : List α) (clean : delimiter ∉ body) :
    firstBody delimiter body = body := by
  rw [firstBody, List.takeWhile_eq_self_iff]
  intro x member
  exact decide_eq_true fun same => clean (same ▸ member)

theorem firstBody_frame (delimiter : α) (body rest : List α) (clean : delimiter ∉ body) :
    firstBody delimiter (body ++ delimiter :: rest) = body := by
  induction body with
  | nil => simp [firstBody]
  | cons x body ih =>
      simp only [List.mem_cons, not_or] at clean
      have kept := ih clean.2
      simp only [firstBody] at kept ⊢
      rw [List.cons_append, List.takeWhile_cons_of_pos (by simpa using Ne.symm clean.1), kept]

/-- Whatever is left of a body, some piece ends it: that piece reads an end of it. -/
theorem body_ended (delimiter : α) (left rest : List α) (pieces : List (List α))
    (clean : delimiter ∉ left)
    (arrived : pieces.flatten = left ++ delimiter :: rest) :
    ∃ piece ∈ pieces, firstBody delimiter piece <:+ left := by
  induction pieces generalizing left with
  | nil => simp at arrived
  | cons piece more ih =>
      rw [List.flatten_cons, List.append_eq_append_iff] at arrived
      rcases arrived with ⟨later, rfl, next⟩ | ⟨beyond, rfl, _⟩
      · -- the piece stops inside what is left, so a later one ends it
        obtain ⟨ending, member, suffix⟩ := ih later (fun inside => clean (by simp [inside])) next
        exact ⟨ending, List.mem_cons_of_mem _ member, suffix.trans (List.suffix_append _ _)⟩
      · refine ⟨_, List.mem_cons_self .., ?_⟩
        cases beyond with
        | nil =>
            have read : firstBody delimiter (left ++ []) = left := by
              rw [List.append_nil, firstBody_open delimiter left clean]
            exact ⟨[], read⟩
        | cons x beyond =>
            have ended : x = delimiter := by simp_all
            have read := firstBody_frame delimiter left beyond clean
            exact ⟨[], ended ▸ read⟩

omit [DecidableEq α] in
/-- A cut falls between two frames, or leaves a proper end of some body. -/
theorem cut_of_stream (delimiter : α) (bodies : List (List α)) (piece rest : List α)
    (whole : piece ++ rest = stream delimiter bodies) :
    (∃ before after, bodies = before ++ after ∧ piece = stream delimiter before ∧
        rest = stream delimiter after) ∨
      ∃ body ∈ bodies, ∃ left more, left <:+ body ∧ left ≠ body ∧
        rest = left ++ delimiter :: more := by
  induction bodies generalizing piece with
  | nil =>
      simp only [stream, List.map_nil, List.flatten_nil, List.append_eq_nil_iff] at whole
      exact Or.inl ⟨[], [], rfl, whole.1, whole.2⟩
  | cons body bodies ih =>
      by_cases nothing : piece = []
      · subst nothing
        exact Or.inl ⟨[], body :: bodies, rfl, rfl, whole⟩
      rw [stream_cons, List.append_eq_append_iff] at whole
      rcases whole with ⟨left, rfl, next⟩ | ⟨beyond, rfl, next⟩
      · -- inside the first body
        refine Or.inr ⟨_, List.mem_cons_self .., left, _, List.suffix_append _ _, ?_, next⟩
        intro same
        have length := congrArg List.length same
        have positive := List.length_pos_iff.mpr nothing
        simp only [List.length_append] at length
        omega
      · cases beyond with
        | nil =>
            -- between the first body and its delimiter
            simp only [List.append_nil, List.nil_append] at nothing next
            exact Or.inr ⟨body, List.mem_cons_self .., [], _, List.nil_suffix, Ne.symm nothing,
              next.symm⟩
        | cons x beyond =>
            simp only [List.cons_append, List.cons.injEq] at next
            obtain ⟨rfl, tail⟩ := next
            rcases ih beyond tail.symm with ⟨before, after, rfl, rfl, rest⟩ |
                ⟨other, member, inside⟩
            · exact Or.inl ⟨body :: before, after, rfl, (stream_cons _ _ _).symm, rest⟩
            · exact Or.inr ⟨other, List.mem_cons_of_mem _ member, inside⟩

/-- Non-empty pieces of which none reads a proper end of a body are groups of whole
frames; as many pieces as bodies are the frames themselves. -/
theorem pieces_whole (delimiter : α) (pieces bodies : List (List α))
    (clean : ∀ body ∈ bodies, delimiter ∉ body) (nonempty : ∀ piece ∈ pieces, piece ≠ [])
    (arrived : pieces.flatten = stream delimiter bodies)
    (told : ∀ piece ∈ pieces, ∀ body ∈ bodies,
      firstBody delimiter piece <:+ body → firstBody delimiter piece = body) :
    pieces.length ≤ bodies.length ∧
      (pieces.length = bodies.length → pieces = bodies.map (frame delimiter)) := by
  induction pieces generalizing bodies with
  | nil =>
      have none_sent := (stream_nil_iff delimiter bodies).mp arrived.symm
      subst none_sent
      exact ⟨Nat.le_refl _, fun _ => rfl⟩
  | cons piece more ih =>
      rcases cut_of_stream delimiter bodies piece more.flatten arrived with
        ⟨before, after, rfl, whole, rest⟩ | ⟨body, member, left, behind, suffix, proper, rest⟩
      · obtain ⟨fewer, same⟩ := ih after (fun body member => clean body (by simp [member]))
          (fun other member => nonempty other (by simp [member])) rest
          (fun other member body inside => told other (by simp [member]) body (by simp [inside]))
        have some_frame : before ≠ [] := by
          rintro rfl
          exact nonempty piece (by simp) whole
        have positive := List.length_pos_iff.mpr some_frame
        simp only [List.length_cons, List.length_append]
        refine ⟨by omega, fun equal => ?_⟩
        have single : before.length = 1 := by omega
        obtain ⟨body, rfl⟩ := List.length_eq_one_iff.mp single
        rw [same (by omega), whole]
        simp [stream]
      · obtain ⟨ending, inside, short⟩ := body_ended delimiter left behind more
          (fun found => clean body member (suffix.subset found)) rest
        have full := told ending (by simp [inside]) body member (short.trans suffix)
        rw [full] at short
        exact absurd (suffix.eq_of_length_le short.length_le) proper

/-! Pieces handled one after the other, up to the first that is refused. -/

section Handled
variable {β : Type}

def handleAll (handle : List α → Option β) : List (List α) → List β × Bool
  | [] => ([], true)
  | piece :: rest =>
      match handle piece with
      | none => ([], false)
      | some value => (value :: (handleAll handle rest).1, (handleAll handle rest).2)

omit [DecidableEq α] in
theorem handleAll_running (handle : List α → Option β) (pieces : List (List α))
    (running : (handleAll handle pieces).2 = true) : ∀ piece ∈ pieces, handle piece ≠ none := by
  induction pieces with
  | nil => simp
  | cons piece rest ih =>
      cases handled : handle piece with
      | none => simp [handleAll, handled] at running
      | some value =>
          simp only [handleAll, handled] at running
          rintro other (_ | ⟨_, later⟩)
          · simp [handled]
          · exact ih running other later

omit [DecidableEq α] in
theorem handleAll_some (handle : List α → Option β) (pieces : List (List α))
    (all : ∀ piece ∈ pieces, handle piece ≠ none) :
    handleAll handle pieces = (pieces.filterMap handle, true) := by
  induction pieces with
  | nil => rfl
  | cons piece rest ih =>
      obtain ⟨value, handled⟩ := Option.ne_none_iff_exists'.mp (all piece (by simp))
      have later := ih fun other member => all other (by simp [member])
      simp [handleAll, handled, later]

end Handled

/-! Bodies one after the other with nothing between them. -/

omit [DecidableEq α] in
/-- Every body opens with the same symbol. What is accepted is neither cut short nor a
body with the next one behind it: then each piece is one body. -/
theorem pieces_bodies (opening : α) (accepts : List α → Prop) (pieces bodies : List (List α))
    (nonempty : ∀ piece ∈ pieces, piece ≠ [])
    (opened : ∀ body ∈ bodies, ∃ rest, body = opening :: rest)
    (cut : ∀ body ∈ bodies, ∀ piece, piece <+: body → piece ≠ body → ¬ accepts piece)
    (fused : ∀ body ∈ bodies, ∀ more, ¬ accepts (body ++ opening :: more))
    (accepted : ∀ piece ∈ pieces, accepts piece) (arrived : pieces.flatten = bodies.flatten) :
    pieces = bodies := by
  induction pieces generalizing bodies with
  | nil =>
      cases bodies with
      | nil => rfl
      | cons body bodies =>
          obtain ⟨rest, rfl⟩ := opened body (by simp)
          simp at arrived
  | cons piece more ih =>
      have here := accepted piece (by simp)
      have some_ := nonempty piece (by simp)
      cases bodies with
      | nil =>
          rw [List.flatten_cons, List.flatten_nil, List.append_eq_nil_iff] at arrived
          exact absurd arrived.1 some_
      | cons body bodies =>
          rw [List.flatten_cons, List.flatten_cons, List.append_eq_append_iff] at arrived
          have whole : piece = body := by
            rcases arrived with ⟨left, split, _⟩ | ⟨beyond, split, next⟩
            · by_contra proper
              exact cut body (by simp) piece ⟨left, split.symm⟩ proper here
            · -- what stands behind the body begins with the opening of the next one
              cases beyond with
              | nil => rw [split, List.append_nil]
              | cons x beyond =>
                  cases bodies with
                  | nil => simp at next
                  | cons other bodies =>
                      obtain ⟨rest, rfl⟩ := opened other (by simp)
                      simp only [List.flatten_cons, List.cons_append, List.cons.injEq] at next
                      rw [split, ← next.1] at here
                      exact absurd here (fused body (by simp) beyond)
          subst whole
          have tail : more.flatten = bodies.flatten := by
            rcases arrived with ⟨left, split, next⟩ | ⟨beyond, split, next⟩
            · rw [List.self_eq_append_right.mp split, List.nil_append] at next
              exact next
            · rw [List.self_eq_append_right.mp split, List.nil_append] at next
              exact next.symm
          rw [ih bodies (fun other member => nonempty other (by simp [member]))
            (fun other member => opened other (by simp [member]))
              (fun other member => cut other (by simp [member]))
            (fun other member => fused other (by simp [member]))
              (fun other member => accepted other (by simp [member])) tail]

end MuduoChat.Framing
