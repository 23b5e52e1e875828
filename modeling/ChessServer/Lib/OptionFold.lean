/-!
# Loops of partial steps

A loop over a list whose body may fail is `List.foldlM` in `Option`.  These
are the two rules for it: what every step relates, a completed loop relates;
and a loop whose steps can all be taken completes.
-/

namespace OptionFold

variable {α β : Type}

/-- A reflexive and transitive relation that every step respects holds
between the two ends of a completed loop. -/
theorem rel_of_step {R : α → α → Prop} (hrefl : ∀ a, R a a)
    (htrans : ∀ {a b c}, R a b → R b c → R a c)
    {f : α → β → Option α} (hstep : ∀ {a x b}, f a x = some b → R a b) :
    ∀ (l : List β) {a b : α}, l.foldlM f a = some b → R a b := by
  intro l
  induction l with
  | nil =>
      intro a b h
      simp only [List.foldlM_nil, Option.pure_def, Option.some.injEq] at h
      exact h ▸ hrefl a
  | cons x rest ih =>
      intro a b h
      simp only [List.foldlM_cons, Option.bind_eq_bind,
        Option.bind_eq_some_iff] at h
      obtain ⟨c, hc, hrest⟩ := h
      exact htrans (hstep hc) (ih hrest)

/-- A loop completes when an invariant lets every step be taken. -/
theorem completes {P : α → Prop} {f : α → β → Option α} :
    ∀ (l : List β) {a : α}, P a →
      (∀ a x, x ∈ l → P a → ∃ b, f a x = some b ∧ P b) →
      ∃ b, l.foldlM f a = some b ∧ P b := by
  intro l
  induction l with
  | nil => intro a ha _; exact ⟨a, rfl, ha⟩
  | cons x rest ih =>
      intro a ha hstep
      obtain ⟨c, hc, hPc⟩ := hstep a x (by simp) ha
      obtain ⟨b, hb, hPb⟩ := ih hPc fun a y hy => hstep a y (by simp [hy])
      refine ⟨b, ?_, hPb⟩
      rw [List.foldlM_cons, hc]
      exact hb

/-- Elements that a loop passes over can be left out. -/
theorem foldlM_filter {f : α → β → Option α} {p : β → Bool}
    (hskip : ∀ a x, p x = false → f a x = some a) (l : List β) (a : α) :
    (l.filter p).foldlM f a = l.foldlM f a := by
  induction l generalizing a with
  | nil => rfl
  | cons x rest ih =>
      cases hx : p x with
      | false =>
          rw [List.filter_cons_of_neg (by rw [hx]; exact Bool.false_ne_true),
            List.foldlM_cons, hskip a x hx]
          exact ih a
      | true =>
          rw [List.filter_cons_of_pos hx, List.foldlM_cons, List.foldlM_cons]
          exact congrArg _ (funext ih)

end OptionFold
