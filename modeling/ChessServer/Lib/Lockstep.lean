import ChessServer.Lib.Machine

/-!
# Two runs in lockstep

Partial computations are compared by the relation between their results:
`Option.Rel R x y` says that `x` and `y` both fail, or that both succeed with
results that `R` relates.  These are the rules for following two programs step
by step.
-/

namespace Lockstep

variable {α β γ δ : Type} {R : α → β → Prop} {S : γ → δ → Prop}

/-- One step in each run, and what comes after it. -/
theorem bind {x : Option α} {y : Option β} {f : α → Option γ}
    {g : β → Option δ} (h : Option.Rel R x y)
    (hrest : ∀ a b, R a b → Option.Rel S (f a) (g b)) :
    Option.Rel S (x.bind f) (y.bind g) := by
  cases h with
  | none => exact .none
  | some hab => exact hrest _ _ hab

/-- Both runs read the same value. -/
theorem read {x y : Option α} {f : α → Option γ} {g : α → Option δ}
    (h : y = x) (hrest : ∀ a, x = some a → Option.Rel S (f a) (g a)) :
    Option.Rel S (x.bind f) (y.bind g) := by
  subst h
  cases hx : y with
  | none => exact .none
  | some a => exact hrest a hx

/-- Both runs take the same branch. -/
theorem ite {c : Prop} [Decidable c] {x y : Option α} {x' y' : Option β}
    (hpos : c → Option.Rel R x x') (hneg : ¬ c → Option.Rel R y y') :
    Option.Rel R (if c then x else y) (if c then x' else y') := by
  by_cases hc : c
  · rw [if_pos hc, if_pos hc]
    exact hpos hc
  · rw [if_neg hc, if_neg hc]
    exact hneg hc

/-- Where one run succeeds, so does the other. -/
theorem follow {x : Option α} {y : Option β} {a : α} (h : Option.Rel R x y)
    (hx : x = some a) : ∃ b, y = some b ∧ R a b := by
  subst hx
  cases h with
  | some hab => exact ⟨_, rfl, hab⟩

/-- The same value, in states that `R` relates. -/
def Same {ι : Type} (R : α → β → Prop) (r : ι × α) (r' : ι × β) : Prop :=
  r'.1 = r.1 ∧ R r.2 r'.2

/-- A step that returns a value, and what comes after it. -/
theorem value {ι : Type} {x : Option (ι × α)} {y : Option (ι × β)}
    {f : ι × α → Option γ} {g : ι × β → Option δ}
    (h : Option.Rel (Same R) x y)
    (hrest : ∀ i a b, R a b → Option.Rel S (f (i, a)) (g (i, b))) :
    Option.Rel S (x.bind f) (y.bind g) := by
  refine bind h fun r r' hr => ?_
  obtain ⟨i, a⟩ := r
  obtain ⟨i', b⟩ := r'
  obtain ⟨rfl, hab⟩ := hr
  exact hrest i' a b hab

/-- The same for a step that returns two values. -/
theorem values {ι κ : Type} {x : Option (ι × κ × α)} {y : Option (ι × κ × β)}
    {f : ι × κ × α → Option γ} {g : ι × κ × β → Option δ}
    (h : Option.Rel (Same (Same R)) x y)
    (hrest : ∀ i j a b, R a b →
      Option.Rel S (f (i, j, a)) (g (i, j, b))) :
    Option.Rel S (x.bind f) (y.bind g) := by
  refine value h fun i r r' hr => ?_
  obtain ⟨j, a⟩ := r
  obtain ⟨j', b⟩ := r'
  obtain ⟨rfl, hab⟩ := hr
  exact hrest i j' a b hab

/-- A weaker relation. -/
theorem mono {R' : α → β → Prop} {x : Option α} {y : Option β}
    (h : Option.Rel R x y) (himp : ∀ a b, R a b → R' a b) :
    Option.Rel R' x y := by
  cases h with
  | none => exact .none
  | some hab => exact .some (himp _ _ hab)

/-- Two functions of what the runs return. -/
theorem map {x : Option α} {y : Option β} {f : α → γ} {g : β → δ}
    (h : Option.Rel R x y) (hrest : ∀ a b, R a b → S (f a) (g b)) :
    Option.Rel S (x.map f) (y.map g) := by
  cases h with
  | none => exact .none
  | some hab => exact .some (hrest _ _ hab)

/-- A loop, round by round. -/
theorem foldlM {ι : Type} {f : α → ι → Option α} {g : β → ι → Option β}
    (hstep : ∀ a b i, R a b → Option.Rel R (f a i) (g b i)) (l : List ι)
    {a : α} {b : β} (h : R a b) :
    Option.Rel R (l.foldlM f a) (l.foldlM g b) := by
  induction l generalizing a b with
  | nil => exact .some h
  | cons i rest ih =>
      rw [List.foldlM_cons, List.foldlM_cons]
      exact bind (hstep a b i h) fun a b h => ih h

/-- Two runs of a machine over the same events. -/
theorem run {σ ε : Type} {m : Machine σ ε} {R : σ → σ → Prop}
    [∀ e a, Decidable (m.enabled e a)]
    (henabled : ∀ e a b, R a b → (m.enabled e b ↔ m.enabled e a))
    (hstep : ∀ e a b, R a b → Option.Rel R (m.step e a) (m.step e b))
    (events : List ε) {a b : σ} (h : R a b) :
    Option.Rel R (m.run (fun _ _ => True) events a)
      (m.run (fun _ _ => True) events b) := by
  induction events generalizing a b with
  | nil => exact .some h
  | cons e events ih =>
      unfold Machine.run
      by_cases he : m.enabled e a
      · rw [if_pos ⟨he, trivial⟩, if_pos ⟨(henabled e a b h).mpr he, trivial⟩]
        have hnext := hstep e a b h
        generalize m.step e a = x at hnext
        generalize m.step e b = y at hnext
        cases hnext with
        | none => exact .none
        | some hab => exact ih hab
      · rw [if_neg fun hc => he hc.1,
          if_neg fun hc => he ((henabled e a b h).mp hc.1)]
        exact .none

end Lockstep
