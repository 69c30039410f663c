import Mathlib.Logic.Function.Basic
import Mathlib.Tactic.Common

/-!
The life of one connection of a server, without the code. Its own loop establishes
and destroys it, the base loop (loop 0) takes it out of the table, and what is
still to be done waits as tokens in the loops' queues. In a fine life a token
waits exactly where and when it is due, so a connection is established once,
before anything else happens to it, and destroyed once, after everything else.
-/

namespace MuduoChat.ConnectionLife

/-- Which of connectEstablished, handleClose and connectDestroyed has run. -/
inductive Life where
  | absent
  | created
  | established
  | closed
  | destroyed
  deriving DecidableEq

inductive Token where
  | establish
  | remove
  | destroy
  deriving DecidableEq

/-- `mapped`: the table has it; `removed`: the base loop has taken it out. `waits` are
its tokens on each loop in queue order, `left` counts its events that a loop has
been told of and not handled yet, and `ended` marks the loops that are gone. -/
structure Card where
  loop : Nat
  life : Life
  mapped : Bool
  removed : Bool
  waits : Nat → List Token
  left : Nat → Nat
  ended : Nat → Bool

/-- A live connection outside the table is to be destroyed. -/
def Doomed (card : Card) : Prop := card.mapped = false ∧ card.life ≠ .absent ∧
    card.life ≠ .destroyed

instance (card : Card) : Decidable (Doomed card) := inferInstanceAs (Decidable (_ ∧ _ ∧ _))

/-- What has still to run on the connection's own loop, in this order. -/
def owed (card : Card) : List Token :=
  (if card.life = .created then [.establish] else []) ++ if Doomed card then [.destroy] else []

/-- Every token is due. `alive` says that the server has not begun to be destroyed. -/
structure Fine (alive : Bool) (card : Card) : Prop where
  fresh : card.life = .absent → card.removed = false
  present : card.mapped = true → card.life ≠ .absent ∧ card.life ≠ .destroyed
  own : card.waits card.loop = owed card
  away : ∀ loop, loop ≠ card.loop → loop ≠ 0 → card.waits loop = []
  table : card.loop ≠ 0 → card.mapped = true → card.waits 0 = if card.life = .closed then [.remove]
    else []
  foreign : card.loop ≠ 0 → ∀ token ∈ card.waits 0, token = .remove
  atOnce : card.loop = 0 → card.life ≠ .created
  inside : card.loop = 0 → (card.mapped = true → card.life ≠ .closed) ∧
    (card.mapped = false → card.life ≠ .established)
  served : alive = true → card.mapped = false →
    (card.loop ≠ 0 → card.waits 0 = []) ∧ card.life ≠ .created ∧ card.life ≠ .established
  listed : alive = true → (card.mapped = true ↔ card.life ≠ .absent ∧ card.removed = false)
  once : ∀ loop, card.left loop ≤ 1
  dispatched : ∀ loop, card.left loop ≠ 0 → card.loop = loop ∧ card.life = .established
  finished : card.ended card.loop = true → card.life = .destroyed

theorem absent_fine (alive : Bool) :
    Fine alive ⟨0, .absent, false, false, fun _ => [], fun _ => 0, fun _ => false⟩ := by
  constructor <;> simp [owed, Doomed]

section Moves
variable {alive : Bool} {card : Card}

def wait (card : Card) (loop : Nat) (token : Token) : Nat → List Token :=
  Function.update card.waits loop (card.waits loop ++ [token])

/-! Each move is what one function of the code does to the connection it is about. -/

/-- newConnection for a loop of the pool. -/
def accept (loop : Nat) (card : Card) : Card :=
  { card with loop := loop, life := .created, mapped := true, waits := wait card loop .establish }

/-- newConnection without a pool: connectEstablished runs at once. -/
def acceptHere (card : Card) : Card := { card with life := .established, mapped := true }

def establish (loop : Nat) (rest : List Token) (card : Card) : Card :=
  { card with life := .established, waits := Function.update card.waits loop rest }

/-- handleClose on a loop of the pool leaves the table to the base loop. -/
def close (card : Card) : Card := { card with life := .closed, waits := wait card 0 .remove }

def closeHere (card : Card) : Card :=
  { card with life := .closed, mapped := false, removed := true, waits := wait card 0 .destroy }

/-- removeConnectionInLoop as a functor: the token that was waiting is taken first. -/
def remove (rest : List Token) (card : Card) : Card :=
  let taken := { card with waits := Function.update card.waits 0 rest }
  { taken with mapped := false, removed := true, waits := wait taken card.loop .destroy }

def destroy (loop : Nat) (rest : List Token) (card : Card) : Card :=
  { card with life := .destroyed, waits := Function.update card.waits loop rest }

/-- The server's destructor gives the connection up. -/
def reset (card : Card) : Card :=
    { card with mapped := false, waits := wait card card.loop .destroy }

def resetHere (card : Card) : Card := { card with mapped := false, life := .destroyed }

theorem accept_fine (fine : Fine alive card) (absent : card.life = .absent)
    (unused : card.loop = 0) (loop : Nat)
    (pool : loop ≠ 0) (running : card.ended loop = false) : Fine alive (accept loop card) := by
  obtain ⟨fresh, present, own, away, table, foreign, atOnce, inside, served, listed, once,
      dispatched, finished⟩ := fine
  constructor <;> simp only [accept, wait, owed, Doomed, Function.update_apply] at * <;> grind

theorem acceptHere_fine (fine : Fine alive card) (absent : card.life = .absent)
    (unused : card.loop = 0) :
    Fine alive (acceptHere card) := by
  obtain ⟨fresh, present, own, away, table, foreign, atOnce, inside, served, listed, once,
      dispatched, finished⟩ := fine
  constructor <;> simp only [acceptHere, owed, Doomed] at * <;> grind

/-- establish and destroy wait on the connection's own loop only. -/
theorem due_own (fine : Fine alive card) (loop : Nat) (token : Token) (rest : List Token)
    (next : card.waits loop = token :: rest) (kind : token ≠ .remove) :
    loop = card.loop ∧ owed card = token :: rest := by
  have here : loop = card.loop := by
    by_contra other
    by_cases base : loop = 0
    · subst base
      exact kind (fine.foreign (Ne.symm other) token (by simp [next]))
    · rw [fine.away loop other base] at next
      cases next
  subst here
  exact ⟨rfl, by rw [← fine.own, next]⟩

/-- remove waits on the base loop only. -/
theorem remove_base (fine : Fine alive card) (loop : Nat) (waits : .remove ∈ card.waits loop) :
    loop = 0 := by
  by_contra pool
  by_cases own : loop = card.loop
  · rw [own, fine.own, owed] at waits
    rcases List.mem_append.mp waits with due | due <;> split at due <;> simp at due
  · rw [fine.away loop own pool] at waits
    cases waits

theorem establish_fine (fine : Fine alive card) (loop : Nat) (rest : List Token)
    (next : card.waits loop = .establish :: rest) : Fine alive (establish loop rest card) := by
  obtain ⟨here, first⟩ := due_own fine loop _ rest next (by simp)
  obtain ⟨fresh, present, own, away, table, foreign, atOnce, inside, served, listed, once,
      dispatched, finished⟩ := fine
  constructor <;> simp only [establish, owed, Doomed, Function.update_apply] at * <;> grind

theorem close_fine (fine : Fine alive card) (established : card.life = .established)
    (pool : card.loop ≠ 0)
    (handled : ∀ loop, card.left loop = 0) : Fine alive (close card) := by
  obtain ⟨fresh, present, own, away, table, foreign, atOnce, inside, served, listed, once,
      dispatched, finished⟩ := fine
  constructor <;> simp only [close, wait, owed, Doomed, Function.update_apply] at * <;> grind

theorem closeHere_fine (fine : Fine alive card) (established : card.life = .established)
    (here : card.loop = 0)
    (handled : ∀ loop, card.left loop = 0) : Fine alive (closeHere card) := by
  obtain ⟨fresh, present, own, away, table, foreign, atOnce, inside, served, listed, once,
      dispatched, finished⟩ := fine
  constructor <;> simp only [closeHere, wait, owed, Doomed, Function.update_apply] at * <;> grind

/-- removeConnectionInLoop as a functor of the base loop, while the server lives. -/
theorem remove_fine (fine : Fine true card) (rest : List Token)
    (next : card.waits 0 = .remove :: rest) :
    Fine true (remove rest card) := by
  obtain ⟨fresh, present, own, away, table, foreign, atOnce, inside, served, listed, once,
      dispatched, finished⟩ := fine
  constructor <;> simp only [remove, wait, owed, Doomed, Function.update_apply] at * <;> grind

theorem destroy_fine (fine : Fine alive card) (loop : Nat) (rest : List Token)
    (next : card.waits loop = .destroy :: rest) (handled : ∀ loop, card.left loop = 0) :
    Fine alive (destroy loop rest card) ∧ card.life ≠ .created ∧ card.life ≠ .absent := by
  obtain ⟨here, first⟩ := due_own fine loop _ rest next (by simp)
  obtain ⟨fresh, present, own, away, table, foreign, atOnce, inside, served, listed, once,
      dispatched, finished⟩ := fine
  refine ⟨?_, ?_, ?_⟩
  · constructor <;> simp only [destroy, owed, Doomed, Function.update_apply] at * <;> grind
  · simp only [owed, Doomed] at *
    grind
  · simp only [owed, Doomed] at *
    grind

theorem reset_fine (fine : Fine false card) (mapped : card.mapped = true) (pool : card.loop ≠ 0) :
    Fine false (reset card) := by
  obtain ⟨fresh, present, own, away, table, foreign, atOnce, inside, served, listed, once,
      dispatched, finished⟩ := fine
  constructor <;> simp only [reset, wait, owed, Doomed, Function.update_apply] at * <;> grind

theorem resetHere_fine (fine : Fine false card) (mapped : card.mapped = true) (here : card.loop = 0)
    (handled : ∀ loop, card.left loop = 0) : Fine false (resetHere card) := by
  obtain ⟨fresh, present, own, away, table, foreign, atOnce, inside, served, listed, once,
      dispatched, finished⟩ := fine
  constructor <;> simp only [resetHere, owed, Doomed] at * <;> grind

/-- Nothing is promised any more about what the base loop takes out of the table. -/
theorem fine_stop (fine : Fine alive card) : Fine false card := by
  obtain ⟨fresh, present, own, away, table, foreign, atOnce, inside, served, listed, once,
      dispatched, finished⟩ := fine
  exact ⟨fresh, present, own, away, table, foreign, atOnce, inside, nofun, nofun, once, dispatched,
    finished⟩

/-- A loop is told of an event of an established connection of its own, or has handled one. -/
theorem left_fine (fine : Fine alive card) (left : Nat → Nat) (once : ∀ loop, left loop ≤ 1)
    (dispatched : ∀ loop, left loop ≠ 0 → card.loop = loop ∧ card.life = .established) :
    Fine alive { card with left := left } := by
  obtain ⟨fresh, present, own, away, table, foreign, atOnce, inside, served, listed, _, _,
      finished⟩ := fine
  exact ⟨fresh, present, own, away, table, foreign, atOnce, inside, served, listed, once,
    dispatched, finished⟩

/-- A loop ends when all its connections are destroyed. -/
theorem ended_fine (fine : Fine alive card) (ended : Nat → Bool)
    (finished : ended card.loop = true → card.life = .destroyed) :
    Fine alive { card with ended := ended } := by
  obtain ⟨fresh, present, own, away, table, foreign, atOnce, inside, served, listed, once,
      dispatched, _⟩ := fine
  exact ⟨fresh, present, own, away, table, foreign, atOnce, inside, served, listed, once,
    dispatched, finished⟩

end Moves
end MuduoChat.ConnectionLife
