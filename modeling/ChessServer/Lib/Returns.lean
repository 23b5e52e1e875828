import ChessServer.Lib.OptionFold

/-!
# Computations that return

Total correctness for computations in `Option`: `Returns p r` says that `r`
returns and that what it returns satisfies `p`.  The rules follow the way such
a computation is put together; `eq_none_iff_of` is for the ones that fail under
a condition that can be named.
-/

/-- The computation `r` returns, with a result that satisfies `p`. -/
def Returns {α : Type} (p : α → Prop) (r : Option α) : Prop :=
  ∃ x, r = some x ∧ p x

namespace Returns

variable {α β : Type} {p q : α → Prop} {r : Option α}

theorem pure {x : α} (h : p x) : Returns p (some x) := ⟨x, rfl, h⟩

theorem mono (h : Returns p r) (himp : ∀ x, p x → q x) : Returns q r := by
  obtain ⟨x, hx, hp⟩ := h
  exact ⟨x, hx, himp x hp⟩

/-- The rule of sequence. -/
theorem bind {p : β → Prop} {r : Option β} {k : β → Option α}
    (h : Returns p r) (hk : ∀ x, p x → Returns q (k x)) : Returns q (r.bind k) := by
  obtain ⟨x, rfl, hp⟩ := h
  exact hk x hp

/-- A computation that is known to return `x`. -/
theorem bind_some {r : Option β} {x : β} {k : β → Option α}
    (h : r = some x) (hk : Returns q (k x)) : Returns q (r.bind k) := by
  rw [h]
  exact hk

theorem ite {c : Prop} [Decidable c] {a b : Option α}
    (ha : c → Returns p a) (hb : ¬ c → Returns p b) :
    Returns p (if c then a else b) := by
  split
  · exact ha ‹_›
  · exact hb ‹_›

/-- A value that is there. -/
theorem of_isSome (h : r.isSome) : Returns (fun _ => True) r := by
  obtain ⟨x, hx⟩ := Option.isSome_iff_exists.mp h
  exact ⟨x, hx, trivial⟩

theorem ne_none (h : Returns p r) : r ≠ none := by
  obtain ⟨x, rfl, _⟩ := h
  exact Option.some_ne_none x

/-- An invariant of the body is an invariant of the loop. -/
theorem foldlM {f : α → β → Option α} (l : List β) {a : α} (ha : p a)
    (hstep : ∀ a x, x ∈ l → p a → Returns p (f a x)) :
    Returns p (l.foldlM f a) := OptionFold.completes l ha hstep

end Returns

/-- A computation fails exactly under a condition: it fails there, and
elsewhere it returns. -/
theorem eq_none_iff_of {α : Type} {r : Option α} {c : Prop}
    (hfails : c → r = none) (hreturns : ¬ c → Returns (fun _ => True) r) :
    r = none ↔ c := by
  constructor
  · intro hnone
    by_cases hc : c
    · exact hc
    · exact absurd hnone (hreturns hc).ne_none
  · exact hfails
