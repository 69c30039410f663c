import Mathlib.Data.List.Basic
import Mathlib.Data.List.Induction

/-!
Runs of a partial step function. An action that the step function refuses
does not happen, so a run is a list of actions that are all accepted. A guard
speaks about the state an action is taken in; a run is guarded when each of its
actions meets the guard there. Nothing here names a program.
-/

namespace MuduoChat.Transition

section Runs
variable {State Action : Type}

def run (step : State → Action → Option State) : State → List Action → Option State
  | state, [] => some state
  | state, action :: rest => (step state action).bind fun next => run step next rest

def Guarded (step : State → Action → Option State) (guard : State → Action → Prop) :
    State → List Action → Prop
  | _, [] => True
  | state, action :: rest =>
      guard state action ∧
        match step state action with
        | none => True
        | some next => Guarded step guard next rest

instance decidableGuarded (step : State → Action → Option State) (guard : State → Action → Prop)
    [∀ state action, Decidable (guard state action)] :
    (state : State) → (trace : List Action) → Decidable (Guarded step guard state trace)
  | _, [] => isTrue trivial
  | state, action :: rest =>
      letI : Decidable (match step state action with
          | none => True
          | some next => Guarded step guard next rest) :=
        match step state action with
        | none => isTrue trivial
        | some next => decidableGuarded step guard next rest
      inferInstanceAs (Decidable (_ ∧ _))

theorem guarded_tail (step : State → Action → Option State) (guard : State → Action → Prop)
    (before next : State) (action : Action) (rest : List Action)
    (guarded : Guarded step guard before (action :: rest))
    (stepped : step before action = some next) :
    Guarded step guard next rest := by
  have tail := guarded.2
  rw [stepped] at tail
  exact tail

theorem run_cons (step : State → Action → Option State) (before after : State)
    (action : Action) (rest : List Action) :
    run step before (action :: rest) = some after ↔
      ∃ next, step before action = some next ∧ run step next rest = some after := by
  simp [run, Option.bind_eq_some_iff]

theorem run_append (step : State → Action → Option State) (before : State)
    (left right : List Action) :
    run step before (left ++ right) = (run step before left).bind fun middle =>
      run step middle right := by
  induction left generalizing before with
  | nil => rfl
  | cons action rest ih =>
      simp only [List.cons_append, run]
      cases step before action with
      | none => rfl
      | some next => exact ih next

theorem guarded_append (step : State → Action → Option State) (guard : State → Action → Prop)
    (before middle : State) (left right : List Action)
    (guarded : Guarded step guard before (left ++ right))
    (ran : run step before left = some middle) :
    Guarded step guard before left ∧ Guarded step guard middle right := by
  induction left generalizing before with
  | nil => cases ran; exact ⟨trivial, guarded⟩
  | cons action rest ih =>
      obtain ⟨next, stepped, tail⟩ := (run_cons step before middle action rest).mp ran
      obtain ⟨restGuarded, final⟩ :=
        ih next (guarded_tail step guard before next action (rest ++ right) guarded stepped) tail
      refine ⟨⟨guarded.1, ?_⟩, final⟩
      rw [stepped]
      exact restGuarded

theorem guarded_always (step : State → Action → Option State) (state : State)
    (trace : List Action) :
    Guarded step (fun _ _ => True) state trace := by
  induction trace generalizing state with
  | nil => trivial
  | cons action rest ih =>
      refine ⟨trivial, ?_⟩
      split
      · trivial
      · exact ih _

/-- What one guarded step preserves, a guarded run preserves. -/
theorem run_preserves (step : State → Action → Option State) (guard : State → Action → Prop)
    (invariant : State → Prop)
    (preserved : ∀ before action after, invariant before → guard before action →
      step before action = some after → invariant after)
    (before after : State) (trace : List Action) (guarded : Guarded step guard before trace)
    (start : invariant before) (ran : run step before trace = some after) : invariant after := by
  induction trace generalizing before with
  | nil => cases ran; exact start
  | cons action rest ih =>
      obtain ⟨next, stepped, tail⟩ := (run_cons step before after action rest).mp ran
      exact ih next (guarded_tail step guard before next action rest guarded stepped)
        (preserved before action next start guarded.1 stepped) tail

/-- Where each step costs one, and is paid for out of a stock that some actions add to, a run is no
longer than the stock it began with and what was added. -/
theorem run_bounded (step : State → Action → Option State) (guard : State → Action → Prop)
    (invariant : State → Prop)
    (stock : State → Nat) (adds : Action → Bool) (added : Nat)
    (preserved : ∀ before action after, invariant before → guard before action →
      step before action = some after → invariant after)
    (paid : ∀ before action after, invariant before → step before action = some after →
      stock after + 1 ≤ stock before + if adds action then added else 0)
    (before after : State) (trace : List Action) (guarded : Guarded step guard before trace)
    (start : invariant before) (ran : run step before trace = some after) :
    trace.length + stock after ≤ stock before + added * trace.countP adds := by
  induction trace generalizing before with
  | nil => cases ran; simp
  | cons action rest ih =>
      obtain ⟨next, stepped, tail⟩ := (run_cons step before after action rest).mp ran
      have shorter := ih next (guarded_tail step guard before next action rest guarded stepped)
        (preserved before action next start guarded.1 stepped) tail
      have spent := paid before action next start stepped
      cases here : adds action with
      | true =>
          rw [here, if_pos rfl] at spent
          rw [List.length_cons, List.countP_cons_of_pos here, Nat.mul_succ]
          omega
      | false =>
          rw [here, if_neg Bool.false_ne_true] at spent
          rw [List.length_cons, List.countP_cons_of_neg (by simp [here])]
          omega

/-- What every step preserves, every run preserves. -/
theorem run_always (step : State → Action → Option State) (invariant : State → Prop)
    (preserved : ∀ before action after, invariant before → step before action = some after →
      invariant after)
    (before after : State) (trace : List Action) (start : invariant before)
    (ran : run step before trace = some after) : invariant after :=
  run_preserves step (fun _ _ => True) invariant
    (fun before action after kept _ stepped => preserved before action after kept stepped)
    before after trace (guarded_always step before trace) start ran

/-- A guard that follows from another one in every state of a guarded run. -/
theorem guarded_implies (step : State → Action → Option State) (guard other : State → Action → Prop)
    (invariant : State → Prop)
    (preserved : ∀ before action after, invariant before → guard before action →
      step before action = some after → invariant after)
    (implied : ∀ state action, invariant state → guard state action → other state action)
    (state : State) (trace : List Action) (start : invariant state)
    (guarded : Guarded step guard state trace) :
    Guarded step other state trace := by
  induction trace generalizing state with
  | nil => trivial
  | cons action rest ih =>
      refine ⟨implied state action start guarded.1, ?_⟩
      cases stepped : step state action with
      | none => trivial
      | some next =>
          have tail := guarded_tail step guard state next action rest guarded stepped
          exact ih next (preserved state action next start guarded.1 stepped) tail

/-- A guarded run that the step function never refuses reaches a state. -/
theorem run_progress (step : State → Action → Option State) (guard : State → Action → Prop)
    (invariant : State → Prop)
    (progress : ∀ before action, invariant before → guard before action →
      ∃ after, step before action = some after ∧ invariant after)
    (before : State) (trace : List Action) (guarded : Guarded step guard before trace)
    (start : invariant before) : ∃ after, run step before trace = some after ∧ invariant after := by
  induction trace generalizing before with
  | nil => exact ⟨before, rfl, start⟩
  | cons action rest ih =>
      obtain ⟨next, stepped, kept⟩ := progress before action start guarded.1
      obtain ⟨after, tail, final⟩ := ih next
        (guarded_tail step guard before next action rest guarded stepped) kept
      exact ⟨after, (run_cons step before after action rest).mpr ⟨next, stepped, tail⟩, final⟩

/-- Over a run that is not refused: if a step keeps the property just when it meets the
guard, then every state reached has the property just when every step meets the guard. -/
theorem always_iff_guarded (step : State → Action → Option State) (guard : State → Action → Prop)
    (invariant property : State → Prop)
    (preserved : ∀ before action after, invariant before → step before action = some after →
      invariant after)
    (exact : ∀ before action after, invariant before → property before →
      step before action = some after →
      (guard before action ↔ property after))
    (before after : State) (trace : List Action) (start : invariant before)
    (holds : property before)
    (ran : run step before trace = some after) :
    (∀ earlier later middle, trace = earlier ++ later → run step before earlier = some middle →
      property middle) ↔
      Guarded step guard before trace := by
  induction trace generalizing before with
  | nil =>
      refine ⟨fun _ => trivial, ?_⟩
      intro _ earlier later middle split reached
      have none_ := (List.nil_eq_append_iff.mp split).1
      subst none_
      cases reached
      exact holds
  | cons action rest ih =>
      obtain ⟨next, stepped, tail⟩ := (run_cons step before after action rest).mp ran
      have kept := preserved before action next start stepped
      constructor
      · intro always
        have first : property next :=
          always [action] rest next rfl ((run_cons step before next action []).mpr
            ⟨next, stepped, rfl⟩)
        refine ⟨(exact before action next start holds stepped).mpr first, ?_⟩
        rw [stepped]
        refine (ih next kept first tail).mp fun earlier later middle split reached => ?_
        exact always (action :: earlier) later middle (by rw [split]; rfl)
          ((run_cons step before middle action earlier).mpr ⟨next, stepped, reached⟩)
      · intro guarded earlier later middle split reached
        have first := (exact before action next start holds stepped).mp guarded.1
        cases earlier with
        | nil => cases reached; exact holds
        | cons head others =>
            obtain ⟨rfl, restSplit⟩ := List.cons_eq_cons.mp split
            obtain ⟨other, again, reached⟩ := (run_cons step before middle action others).mp reached
            obtain rfl := Option.some.inj (stepped.symm.trans again)
            exact (ih next kept first tail).mpr
              (guarded_tail step guard before next action rest guarded stepped)
              others later middle restSplit reached

/-- A run that ends inside a property and began outside it went in for good at one step:
every state from there on has the property. -/
theorem run_entry (step : State → Action → Option State) (property : State → Prop)
    (before after : State) (trace : List Action) (ran : run step before trace = some after)
    (outside : ¬ property before) (inside : property after) :
    ∃ earlier action later below above, trace = earlier ++ action :: later ∧
      run step before earlier = some below ∧
      step below action = some above ∧ ¬ property below ∧
      ∀ first second middle, later = first ++ second → run step above first = some middle →
        property middle := by
  induction trace using List.reverseRecOn generalizing after with
  | nil => cases ran; exact absurd inside outside
  | append_singleton front action ih =>
      rw [run_append, Option.bind_eq_some_iff] at ran
      obtain ⟨last, reached, stepped⟩ := ran
      obtain ⟨next, stepped, stop⟩ := (run_cons step last after action []).mp stepped
      cases stop
      by_cases within : property last
      · obtain ⟨earlier, entering, later, below, above, split, start, entered, low, stays⟩ :=
          ih last reached within
        refine ⟨earlier, entering, later ++ [action], below, above, by simp [split], start,
          entered, low, ?_⟩
        intro first second middle parts walked
        cases second using List.reverseRecOn with
        | nil =>
            have whole : run step before (front ++ [action]) = some middle := by
              rw [split, List.append_assoc, run_append, start, Option.bind_some, List.cons_append,
                run, entered,
                Option.bind_some, parts, List.append_nil, walked]
            rw [run_append, reached, Option.bind_some, run, stepped, Option.bind_some, run] at whole
            cases whole
            exact inside
        | append_singleton second _ _ =>
            rw [← List.append_assoc] at parts
            exact stays first second middle (List.append_inj_left' parts rfl) walked
      · refine ⟨front, action, [], last, after, rfl, reached, stepped, within, ?_⟩
        intro first second middle parts walked
        obtain ⟨rfl, _⟩ := List.nil_eq_append_iff.mp parts
        cases walked
        exact inside

end Runs

section Refinement
variable {Op Out Abstract Concrete : Type}

/-- The answers of a machine that always answers, with its last state. -/
def answers (step : Concrete → Op → Out × Concrete) : Concrete → List Op → List Out × Concrete
  | state, [] => ([], state)
  | state, op :: rest =>
      let first := step state op
      let tail := answers step first.2 rest
      (first.1 :: tail.1, tail.2)

def Admissible (allowed : Abstract → Op → Prop) (spec : Abstract → Op → Out × Abstract) :
    Abstract → List Op → Prop
  | _, [] => True
  | state, op :: rest => allowed state op ∧ Admissible allowed spec (spec state op).2 rest

/-- A relation kept by every allowed operation, with equal answers, makes the
concrete machine answer like the abstract one over whole runs. -/
theorem answers_refine (relation : Abstract → Concrete → Prop) (allowed : Abstract → Op → Prop)
    (spec : Abstract → Op → Out × Abstract) (step : Concrete → Op → Out × Concrete)
    (simulated : ∀ abstract concrete op, relation abstract concrete → allowed abstract op →
      (step concrete op).1 = (spec abstract op).1 ∧
        relation (spec abstract op).2 (step concrete op).2)
    (abstract : Abstract) (concrete : Concrete) (ops : List Op)
    (related : relation abstract concrete) (admissible : Admissible allowed spec abstract ops) :
    (answers step concrete ops).1 = (answers spec abstract ops).1 ∧
      relation (answers spec abstract ops).2 (answers step concrete ops).2 := by
  induction ops generalizing abstract concrete with
  | nil => exact ⟨rfl, related⟩
  | cons op rest ih =>
      obtain ⟨sameAnswer, kept⟩ := simulated abstract concrete op related admissible.1
      obtain ⟨sameTail, final⟩ := ih _ _ kept admissible.2
      exact ⟨by simp only [answers, sameAnswer, sameTail], final⟩

end Refinement
end MuduoChat.Transition
