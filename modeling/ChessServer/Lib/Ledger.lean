/-!
# Accounts of machine words

An account holds a `w`-bit word.  Credits are added to it and debits taken
from it, both modulo `2 ^ w`, so that a debit of more than the account holds
makes the balance larger.  A list of entries is covered when none of its
debits does that.
-/

namespace Ledger

variable {w : Nat}

/-- A booking. -/
inductive Entry (w : Nat) where
  | credit (n : BitVec w)
  | debit (n : BitVec w)
  deriving DecidableEq

/-- The balance after a booking. -/
def Entry.apply (b : BitVec w) : Entry w → BitVec w
  | .credit n => b + n
  | .debit n => b - n

/-- What a booking may add. -/
def Entry.gain : Entry w → Nat
  | .credit n => n.toNat
  | .debit _ => 0

/-- The account holds what the booking takes. -/
def Entry.Covered (b : BitVec w) : Entry w → Prop
  | .credit _ => True
  | .debit n => n ≤ b

instance (b : BitVec w) (e : Entry w) : Decidable (e.Covered b) :=
  match e with
  | .credit _ => inferInstanceAs (Decidable True)
  | .debit n => inferInstanceAs (Decidable (n ≤ b))

/-- The balance after some bookings. -/
def balance (b : BitVec w) (es : List (Entry w)) : BitVec w :=
  es.foldl Entry.apply b

/-- The sum of all credits. -/
def credits (es : List (Entry w)) : Nat :=
  es.foldr (fun e sum => e.gain + sum) 0

/-- Every debit finds its amount. -/
def Covered : BitVec w → List (Entry w) → Prop
  | _, [] => True
  | b, e :: es => e.Covered b ∧ Covered (e.apply b) es

instance decidableCovered : (b : BitVec w) → (es : List (Entry w)) →
    Decidable (Covered b es)
  | _, [] => inferInstanceAs (Decidable True)
  | b, e :: es =>
      have := decidableCovered (e.apply b) es
      inferInstanceAs (Decidable (e.Covered b ∧ Covered (e.apply b) es))

/-! ## Appending -/

@[simp] theorem balance_nil (b : BitVec w) : balance b [] = b := rfl

@[simp] theorem balance_cons (b : BitVec w) (e : Entry w)
    (es : List (Entry w)) :
    balance b (e :: es) = balance (e.apply b) es := rfl

theorem balance_append (b : BitVec w) (es fs : List (Entry w)) :
    balance b (es ++ fs) = balance (balance b es) fs := by
  simp [balance]

@[simp] theorem credits_nil : credits ([] : List (Entry w)) = 0 := rfl

theorem covered_append {b : BitVec w} {es fs : List (Entry w)} :
    Covered b (es ++ fs) ↔ Covered b es ∧ Covered (balance b es) fs := by
  induction es generalizing b with
  | nil => simp [Covered]
  | cons e es ih => simp [Covered, ih, and_assoc]

/-! ## Bounds -/

/-- A debit makes the balance larger exactly when it is not covered. -/
theorem debit_le_iff {b n : BitVec w} :
    (Entry.debit n).apply b ≤ b ↔ n ≤ b := by
  simp only [Entry.apply, BitVec.le_def, BitVec.toNat_sub]
  have hb := b.isLt
  have hn := n.isLt
  by_cases h : n.toNat ≤ b.toNat
  · rw [show 2 ^ w - n.toNat + b.toNat = 2 ^ w + (b.toNat - n.toNat) by omega,
      Nat.add_mod_left, Nat.mod_eq_of_lt (by omega)]
    omega
  · rw [Nat.mod_eq_of_lt (by omega)]
    omega

theorem Entry.toNat_apply_le {b : BitVec w} {e : Entry w}
    (h : e.Covered b) : (e.apply b).toNat ≤ b.toNat + e.gain := by
  cases e with
  | credit n =>
      simp only [Entry.apply, Entry.gain, BitVec.toNat_add]
      exact Nat.mod_le _ _
  | debit n => exact debit_le_iff.mpr h

/-- Covered bookings do not raise the balance by more than the credits. -/
theorem toNat_balance_le {b : BitVec w} {es : List (Entry w)}
    (h : Covered b es) : (balance b es).toNat ≤ b.toNat + credits es := by
  induction es generalizing b with
  | nil => exact Nat.le_refl _
  | cons e es ih =>
      have hhead := e.toNat_apply_le h.1
      have htail := ih h.2
      have hsum : credits (e :: es) = e.gain + credits es := by
        simp [credits]
      rw [balance_cons, hsum]
      omega

/-- Bookings are covered exactly when no debit makes the balance larger. -/
theorem covered_iff {b : BitVec w} {es : List (Entry w)} :
    Covered b es ↔ ∀ es₁ n es₂, es = es₁ ++ Entry.debit n :: es₂ →
      balance b (es₁ ++ [.debit n]) ≤ balance b es₁ := by
  constructor
  · rintro h es₁ n es₂ rfl
    rw [covered_append] at h
    rw [balance_append]
    exact debit_le_iff.mpr h.2.1
  · intro h
    induction es generalizing b with
    | nil => trivial
    | cons e es ih =>
        refine ⟨?_, ih fun es₁ n es₂ hes => ?_⟩
        · cases e with
          | credit n => trivial
          | debit n => exact debit_le_iff.mp (h [] n es rfl)
        · rw [← balance_cons, ← balance_cons]
          exact h (e :: es₁) n es₂ (by rw [hes, List.cons_append])

/-! ## Over time -/

/-- The bookings of `k` steps from step `i` on. -/
def booked (es : Nat → List (Entry w)) (i : Nat) : Nat → List (Entry w)
  | 0 => []
  | k + 1 => booked es i k ++ es (i + k)

/-- Bookings that are made step by step add up. -/
theorem balance_booked {bal : Nat → BitVec w} {es : Nat → List (Entry w)}
    {i k : Nat}
    (h : ∀ j, j < k → bal (i + j + 1) = balance (bal (i + j)) (es (i + j))) :
    bal (i + k) = balance (bal i) (booked es i k) := by
  induction k with
  | zero => rfl
  | succ k ih =>
      rw [booked, balance_append, ← ih fun j hj => h j (by omega)]
      exact h k (Nat.lt_succ_self k)

/-- So does their cover. -/
theorem covered_booked {bal : Nat → BitVec w} {es : Nat → List (Entry w)}
    {i k : Nat}
    (h : ∀ j, j < k → bal (i + j + 1) = balance (bal (i + j)) (es (i + j)))
    (hcovered : ∀ j, j < k → Covered (bal (i + j)) (es (i + j))) :
    Covered (bal i) (booked es i k) := by
  induction k with
  | zero => trivial
  | succ k ih =>
      have hbal := balance_booked fun j (hj : j < k) => h j (by omega)
      refine covered_append.mpr
        ⟨ih (fun j hj => h j (by omega)) fun j hj => hcovered j (by omega), ?_⟩
      rw [← hbal]
      exact hcovered k (Nat.lt_succ_self k)

theorem mem_booked {es : Nat → List (Entry w)} {i k : Nat} {e : Entry w}
    (h : e ∈ booked es i k) : ∃ j, j < k ∧ e ∈ es (i + j) := by
  induction k with
  | zero => cases h
  | succ k ih =>
      rcases List.mem_append.mp h with h | h
      · obtain ⟨j, hj, hmem⟩ := ih h
        exact ⟨j, by omega, hmem⟩
      · exact ⟨k, Nat.lt_succ_self k, h⟩

/-- When every credit is of the same amount, they add up to a multiple. -/
theorem credits_eq {es : List (Entry w)} {n : BitVec w}
    (h : ∀ m, Entry.credit m ∈ es → m = n) :
    credits es = n.toNat * es.count (.credit n) := by
  induction es with
  | nil => rfl
  | cons e es ih =>
      have hes := ih fun m hm => h m (List.mem_cons_of_mem e hm)
      have hsum : credits (e :: es) = e.gain + credits es := by
        simp [credits]
      rw [hsum, hes]
      cases e with
      | credit m =>
          obtain rfl := h m List.mem_cons_self
          rw [List.count_cons_self, Nat.mul_add, Nat.mul_one, Nat.add_comm]
          rfl
      | debit m =>
          rw [List.count_cons_of_ne (by simp)]
          exact Nat.zero_add _

end Ledger
