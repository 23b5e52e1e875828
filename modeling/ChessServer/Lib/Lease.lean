import Mathlib.Logic.Function.Basic

/-!
# Values kept for a time

Writers of different rank assign values to the keys of a store.  Some of the
writes are granted: their value is to stay for `ttl` unless a writer of
higher rank overwrites it.  `fresh` lists the granted writes that still have
this claim, and the two rules below say exactly which operations respect it.
-/

namespace Lease

variable {κ ν : Type}

/-- One assignment. -/
structure Write (κ ν : Type) where
  time : Nat
  key : κ
  rank : Nat
  value : ν
  granted : Bool

/-- The granted writes of a history, newest first, whose time has not run
out and whose key no writer of higher rank has assigned since. -/
def fresh [DecidableEq κ] (ttl now : Nat) :
    List (Write κ ν) → List (Write κ ν)
  | [] => []
  | x :: older =>
      (if x.granted ∧ now < x.time + ttl then [x] else []) ++
        (fresh ttl now older).filter fun o => ¬ (o.key = x.key ∧ o.rank < x.rank)

variable [DecidableEq κ] {ttl now : Nat} {store : κ → Option ν}
  {writes : List (Write κ ν)}

theorem mem_fresh_cons {x o : Write κ ν} :
    o ∈ fresh ttl now (x :: writes) ↔
      (o = x ∧ x.granted = true ∧ now < x.time + ttl) ∨
      (o ∈ fresh ttl now writes ∧ ¬ (o.key = x.key ∧ o.rank < x.rank)) := by
  simp only [fresh, List.mem_append, List.mem_filter, decide_eq_true_eq]
  constructor
  · rintro (h | h)
    · split at h
      · rename_i hgranted
        exact Or.inl ⟨List.mem_singleton.mp h, hgranted⟩
      · cases h
    · exact Or.inr h
  · rintro (⟨rfl, hgranted⟩ | h)
    · rw [if_pos hgranted]
      exact Or.inl List.mem_cons_self
    · exact Or.inr h

/-- A fresh write is a granted one of the history, and not too old. -/
theorem mem_of_fresh {o : Write κ ν} (h : o ∈ fresh ttl now writes) :
    o ∈ writes ∧ o.granted = true ∧ now < o.time + ttl := by
  induction writes with
  | nil => cases h
  | cons x older ih =>
      rcases mem_fresh_cons.mp h with ⟨rfl, hgranted⟩ | ⟨h, _⟩
      · exact ⟨List.mem_cons_self, hgranted⟩
      · exact ⟨List.mem_cons_of_mem x (ih h).1, (ih h).2⟩

/-- Writes do not become fresh again. -/
theorem fresh_later {later : Nat} (hle : now ≤ later) {o : Write κ ν}
    (h : o ∈ fresh ttl later writes) : o ∈ fresh ttl now writes := by
  induction writes with
  | nil => cases h
  | cons x older ih =>
      rcases mem_fresh_cons.mp h with ⟨rfl, hgranted, htime⟩ | ⟨h, hrank⟩
      · exact mem_fresh_cons.mpr (Or.inl ⟨rfl, hgranted, by omega⟩)
      · exact mem_fresh_cons.mpr (Or.inr ⟨ih h, hrank⟩)

/-- Every fresh write can be read back. -/
def Kept (ttl now : Nat) (store : κ → Option ν) (writes : List (Write κ ν)) :
    Prop :=
  ∀ o ∈ fresh ttl now writes, store o.key = some o.value

theorem Kept.later {later : Nat} (hle : now ≤ later)
    (h : Kept ttl now store writes) : Kept ttl later store writes :=
  fun o ho => h o (fresh_later hle ho)

/-- A write respects the others' claims if it has a higher rank or assigns
the same value. -/
theorem kept_write_iff (h : Kept ttl now store writes) (x : Write κ ν) :
    Kept ttl now (Function.update store x.key (some x.value)) (x :: writes) ↔
      ∀ o ∈ fresh ttl now writes, o.key = x.key →
        o.rank < x.rank ∨ o.value = x.value := by
  constructor
  · intro hkept o ho hkey
    by_cases hrank : o.rank < x.rank
    · exact Or.inl hrank
    · have hread := hkept o
        (mem_fresh_cons.mpr (Or.inr ⟨ho, fun hx => hrank hx.2⟩))
      rw [hkey, Function.update_self, Option.some.injEq] at hread
      exact Or.inr hread.symm
  · intro hothers o ho
    rcases mem_fresh_cons.mp ho with ⟨rfl, _⟩ | ⟨ho, hrank⟩
    · exact Function.update_self _ _ _
    · by_cases hkey : o.key = x.key
      · rw [hkey, Function.update_self]
        rcases hothers o ho hkey with hlt | hvalue
        · exact absurd ⟨hkey, hlt⟩ hrank
        · rw [hvalue]
      · rw [Function.update_of_ne hkey]
        exact h o ho

/-- Removing a key respects the claims if there are none to it. -/
theorem kept_remove_iff (h : Kept ttl now store writes) (key : κ) :
    Kept ttl now (Function.update store key none) writes ↔
      ∀ o ∈ fresh ttl now writes, o.key ≠ key := by
  constructor
  · intro hkept o ho hkey
    have hread := hkept o ho
    rw [hkey, Function.update_self] at hread
    cases hread
  · intro hothers o ho
    rw [Function.update_of_ne (hothers o ho)]
    exact h o ho

end Lease
