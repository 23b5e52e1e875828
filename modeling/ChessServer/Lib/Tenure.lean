import Mathlib.Logic.Function.Basic

/-!
# Chairs over time

Somebody takes and leaves chairs in a room, and `seats i` is who sits where
after `i` steps.  A first comer has sat down in the empty room and not got up
since.
-/

namespace Tenure

variable {κ α : Type} {seats : Nat → κ → Option α}

/-- `a` sits on chair `c` from time `i` to time `n`. -/
def Seated (seats : Nat → κ → Option α) (c : κ) (a : α) (i n : Nat) : Prop :=
  ∀ j, i ≤ j → j ≤ n → seats j c = some a

/-- `a`, on chair `c` at time `n`, sat down after time `i`, at which the room
was empty, as the only one to do so, and has stayed. -/
structure FirstComer (seats : Nat → κ → Option α) (c : κ) (a : α)
    (i n : Nat) : Prop where
  before : i < n
  empty : ∀ c', seats i c' = none
  alone : ∀ c', c' ≠ c → seats (i + 1) c' = none
  stayed : Seated seats c a (i + 1) n

/-- Taking a chair in the empty room. -/
theorem FirstComer.sit {n : Nat} {c : κ} {a : α} [DecidableEq κ]
    (hempty : ∀ c', seats n c' = none)
    (hnext : seats (n + 1) = Function.update (seats n) c (some a)) :
    FirstComer seats c a n (n + 1) where
  before := Nat.lt_succ_self n
  empty := hempty
  alone := fun c' hc => by
    rw [hnext, Function.update_of_ne hc]
    exact hempty c'
  stayed := fun j hj hn => by
    obtain rfl : j = n + 1 := by omega
    rw [hnext, Function.update_self]

/-- Staying on the chair. -/
theorem FirstComer.stay {i n : Nat} {c : κ} {a : α}
    (h : FirstComer seats c a i n) (hnext : seats (n + 1) c = seats n c) :
    FirstComer seats c a i (n + 1) where
  before := Nat.lt_succ_of_lt h.before
  empty := h.empty
  alone := h.alone
  stayed := fun j hj hn => by
    by_cases hlast : j = n + 1
    · rw [hlast, hnext]
      exact h.stayed n h.before (Nat.le_refl n)
    · exact h.stayed j hj (by omega)

theorem FirstComer.seated {i n : Nat} {c : κ} {a : α}
    (h : FirstComer seats c a i n) : seats n c = some a :=
  h.stayed n h.before (Nat.le_refl n)

/-- Whoever sits on another chair came later. -/
theorem FirstComer.longest {i n : Nat} {c c' : κ} {a b : α}
    (h : FirstComer seats c a i n) (hne : c' ≠ c) :
    ∃ j, j ≤ n ∧ Seated seats c a j n ∧ seats j c' ≠ some b := by
  refine ⟨i + 1, h.before, h.stayed, ?_⟩
  rw [h.alone c' hne]
  exact fun h' => by cases h'

/-- If somebody else sat on the chair in between, or nobody, the room was
empty since. -/
theorem FirstComer.empty_since {i j n : Nat} {c : κ} {a : α}
    (h : FirstComer seats c a i n) (hj : j ≤ n) (hother : seats j c ≠ some a) :
    j ≤ i := by
  by_contra hlt
  exact hother (h.stayed j (by omega) hj)

end Tenure
