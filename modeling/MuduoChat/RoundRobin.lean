import Mathlib.Data.Int.CardIntervalMod

/-!
A dealer gives items to seats in turn, one after the other and then from the first
again. Item number `item` goes to seat `item` modulo the number of seats, so the
seats' shares are known exactly. Nothing here names a program.
-/

namespace MuduoChat.RoundRobin
variable {Seat : Type}

/-- The seats, whose turn it is, how many items have been dealt, and where each went. -/
structure Dealer (Seat : Type) where
  seats : List Seat
  next : Nat
  dealt : Nat
  place : Nat → Seat

/-- One item goes to the seat whose turn it is. -/
structure Deals (before after : Dealer Seat) : Prop where
  seats : after.seats = before.seats
  dealt : after.dealt = before.dealt + 1
  given : before.seats[before.next]? = some (after.place before.dealt)
  kept : ∀ item, item < before.dealt → after.place item = before.place item
  next : after.next = if before.seats.length ≤ before.next + 1 then 0 else before.next + 1

structure Fair (dealer : Dealer Seat) : Prop where
  turn : dealer.next = dealer.dealt % dealer.seats.length
  placed : ∀ item, item < dealer.dealt →
    dealer.seats[item % dealer.seats.length]? = some (dealer.place item)

/-- The turn after the last seat's is the first one's. -/
theorem turn_next (seats dealt : Nat) (some_ : 0 < seats) :
    (dealt + 1) % seats = if seats ≤ dealt % seats + 1 then 0 else dealt % seats + 1 := by
  have bounded := Nat.mod_lt dealt some_
  rw [← Nat.mod_add_mod]
  split
  · have last : dealt % seats + 1 = seats := by omega
    rw [last, Nat.mod_self]
  · exact Nat.mod_eq_of_lt (by omega)

theorem deals_fair (before after : Dealer Seat) (fair : Fair before) (deals : Deals before after) :
    Fair after := by
  have some_ : 0 < before.seats.length := by
    have seated := (List.getElem?_eq_some_iff.mp deals.given).1
    omega
  constructor
  case turn => rw [deals.next, deals.dealt, deals.seats, fair.turn, turn_next _ _ some_]
  case placed =>
    intro item bounded
    rw [deals.seats]
    -- the items dealt before stay, and the new one went to the seat whose turn it was
    by_cases old : item < before.dealt
    · rw [deals.kept item old]
      exact fair.placed item old
    · have new : item = before.dealt := by
        have total := deals.dealt
        omega
      rw [new, ← fair.turn]
      exact deals.given

theorem placed_iff (dealer : Dealer Seat) (fair : Fair dealer) (distinct : dealer.seats.Nodup)
    (index : Nat) (seat : Seat)
    (here : dealer.seats[index]? = some seat) (item : Nat) (bounded : item < dealer.dealt) :
    dealer.place item = seat ↔ item % dealer.seats.length = index % dealer.seats.length := by
  obtain ⟨inside, seated⟩ := List.getElem?_eq_some_iff.mp here
  obtain ⟨within, placed⟩ := List.getElem?_eq_some_iff.mp (fair.placed item bounded)
  -- the seats are different, so a seat has one index
  rw [← placed, ← seated, distinct.getElem_inj_iff, Nat.mod_eq_of_lt inside]

section Shares
variable [DecidableEq Seat]

/-- How many of the items a seat was given. -/
def share (dealer : Dealer Seat) (seat : Seat) : Nat :=
    Nat.count (fun item => dealer.place item = seat) dealer.dealt

variable (dealer : Dealer Seat)

/-- Every seat has the full rounds, and those before the turn one more. -/
theorem fair_share (fair : Fair dealer) (distinct : dealer.seats.Nodup) (index : Nat) (seat : Seat)
    (here : dealer.seats[index]? = some seat) :
    share dealer seat = dealer.dealt / dealer.seats.length +
      if index < dealer.dealt % dealer.seats.length then 1 else 0 := by
  have inside := (List.getElem?_eq_some_iff.mp here).1
  have same : share dealer seat = Nat.count
      (fun item => item ≡ index [MOD dealer.seats.length]) dealer.dealt := by
    rw [share, Nat.count_eq_card_filter_range, Nat.count_eq_card_filter_range]
    congr 1
    apply Finset.filter_congr
    intro item member
    exact placed_iff dealer fair distinct index seat here item (Finset.mem_range.mp member)
  rw [same, Nat.count_modEq_card _ (by omega), Nat.mod_eq_of_lt inside]

/-- No seat is ahead of another by more than one item. -/
theorem fair_balanced (fair : Fair dealer) (distinct : dealer.seats.Nodup) (one other : Seat)
    (seated : one ∈ dealer.seats) (otherSeated : other ∈ dealer.seats) :
    share dealer one ≤ share dealer other + 1 := by
  obtain ⟨index, here⟩ := List.mem_iff_getElem?.mp seated
  obtain ⟨otherIndex, there⟩ := List.mem_iff_getElem?.mp otherSeated
  rw [fair_share dealer fair distinct index one here,
    fair_share dealer fair distinct otherIndex other there]
  split <;> split <;> omega

end Shares
end MuduoChat.RoundRobin
