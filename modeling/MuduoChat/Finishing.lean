import Mathlib.Logic.Hydra
import MuduoChat.Interleaving

/-!
Threads that come to an end. A program is a tree without endless branches, so however the
operations of a pool's threads follow each other, they stop unless a new job is started. Where
some thread can go on as long as one is not finished, they stop with all of them finished. Nothing
here names a program.
-/

namespace MuduoChat.Interleaving

section Trees
variable {Op : Type} {Res : Op → Type} {α : Type}

/-- What is left of a program after its next operation. -/
def Prog.Next (after before : Prog Op Res α) : Prop := ∃ op next result, before = .act op next ∧
    after = next result

theorem next_wellFounded : WellFounded (Prog.Next : Prog Op Res α → Prog Op Res α → Prop) := by
  refine ⟨fun program => ?_⟩
  induction program with
  | done value =>
      refine Acc.intro _ fun after next => ?_
      obtain ⟨_, _, _, same, _⟩ := next
      cases same
  | act op rest ih =>
      refine Acc.intro _ fun after next => ?_
      obtain ⟨_, _, result, same, rfl⟩ := next
      cases same
      exact ih result

end Trees

section Pools
variable {Shared Job Op : Type} {Res : Op → Type} {Choice : Type}
    (system : System Shared Job Op Res Choice)

/-- One operation of one thread. -/
def System.Goes (before after : Pool Shared Job Op Res) : Prop :=
  ∃ thread choice, system.step before (.step thread choice) = some after

/-- Whichever thread goes on each time, the goal is reached. -/
inductive System.Comes (goal : Pool Shared Job Op Res → Prop) : Pool Shared Job Op Res → Prop
  | here (pool : Pool Shared Job Op Res) (reached : goal pool) : Comes goal pool
  | goes (pool : Pool Shared Job Op Res) (moves : ∃ after, system.Goes pool after)
      (each : ∀ after, system.Goes pool after → Comes goal after) : Comes goal pool

def Pool.programs (pool : Pool Shared Job Op Res) : Multiset (Prog Op Res Unit) :=
    (pool.threads.map Prod.snd : List _)

theorem goes_programs (before after : Pool Shared Job Op Res) (goes : system.Goes before after) :
    Relation.CutExpand Prog.Next after.programs before.programs := by
  obtain ⟨thread, choice, stepped⟩ := goes
  obtain ⟨left, right, job, op, next, result, threads, _, _, placed⟩ :=
    step_shape system before after thread choice stepped
  refine ⟨{next result}, .act op next, fun other member => ?_, ?_⟩
  · rw [Multiset.mem_singleton.mp member]
    exact ⟨op, next, result, rfl, rfl⟩
  · rw [Pool.programs, Pool.programs, threads, placed]
    simp only [List.map_append, List.map_cons, ← Multiset.coe_add, ← Multiset.cons_coe,
      Multiset.add_cons,
      Multiset.add_comm _ {_}, Multiset.singleton_add]
    exact Multiset.cons_swap _ _ _

/-- A thread goes on where its next operation can be done. -/
theorem goes_about (pool : Pool Shared Job Op Res) (thread : Nat) (job : Job) (op : Op)
    (about : pool.aboutTo thread = some (job, op)) (choice : Choice) (result : Res op)
    (shared : Shared)
    (performed : system.perform choice op pool.shared = some (result, shared)) :
    ∃ after, system.Goes pool after := by
  obtain ⟨left, right, rest, threads, rfl⟩ := aboutTo_shape pool thread job op about
  have entry : pool.threads[left.length]? = some (job, .act op rest) := by simp [threads]
  have stepped : (system.step pool (.step left.length choice)).isSome = true := by
    simp [System.step, entry, performed]
  obtain ⟨after, went⟩ := Option.isSome_iff_exists.mp stepped
  exact ⟨after, left.length, choice, went⟩

/-- Without new jobs no run is endless. -/
theorem goes_wellFounded : WellFounded fun after before => system.Goes before after :=
  Subrelation.wf (fun {after before} goes => goes_programs system before after goes)
    (InvImage.wf Pool.programs next_wellFounded.cutExpand)

/-- Where no thread keeps the others from going on for good, all threads come to their end. -/
theorem comes_quiet (invariant : Pool Shared Job Op Res → Prop)
    (kept : ∀ before after, invariant before → system.Goes before after → invariant after)
    (moves : ∀ pool, invariant pool → ¬ Quiet pool → ∃ after, system.Goes pool after)
    (pool : Pool Shared Job Op Res) (start : invariant pool) :
    system.Comes (fun last => Quiet last ∧ invariant last) pool := by
  induction pool using (goes_wellFounded system).induction with
  | _ pool ih =>
    by_cases quiet : Quiet pool
    · exact .here pool ⟨quiet, start⟩
    · exact .goes pool (moves pool start quiet) fun after goes =>
        ih after goes (kept pool after start goes)

theorem comes_mono (goal weaker : Pool Shared Job Op Res → Prop)
    (implied : ∀ pool, goal pool → weaker pool)
    (pool : Pool Shared Job Op Res) (comes : system.Comes goal pool) :
    system.Comes weaker pool := by
  induction comes with
  | here pool reached => exact .here pool (implied pool reached)
  | goes pool moves _ ih => exact .goes pool moves ih

end Pools
end MuduoChat.Interleaving
