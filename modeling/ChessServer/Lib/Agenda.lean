import Mathlib.Data.List.Sort

/-!
# Agendas

Items that wait for their time, in the order of their times and, among equal
times, in the order of their acceptance.  The first one that waits can be
taken; what was taken is done in the same order.  What still waits can be
removed by its key, or all of it cleared.  An agenda remembers what has become
of every item: none is ever lost, doubled or done out of turn.
-/

/-- What has become of the items that were accepted, oldest first except for
those that wait. -/
structure Agenda (α β : Type) where
  accepted : List α := []
  waiting : List α := []
  taken : List α := []
  queued : List α := []
  done : List α := []
  /-- with what came along with the removal -/
  removed : List (α × β) := []
  cleared : List α := []

namespace Agenda

variable {α β κ δ : Type} [LinearOrder δ]

/-! ## Operations -/

/-- A new item waits behind those that are not due later. -/
def accept (due : α → δ) (x : α) (a : Agenda α β) : Agenda α β :=
  { a with
    accepted := a.accepted ++ [x]
    waiting := a.waiting.orderedInsert (fun t u => due t < due u) x }

/-- The item that waits under a key is removed. -/
def remove [DecidableEq κ] (key : α → κ) (k : κ) (b : β) (a : Agenda α β) : Agenda α β :=
  match a.waiting.find? (fun x => key x == k) with
  | none => a
  | some x =>
      { a with
        waiting := a.waiting.eraseP fun x => key x == k
        removed := a.removed ++ [(x, b)] }

/-- All that wait are removed. -/
def clear (a : Agenda α β) : Agenda α β :=
  { a with waiting := [], cleared := a.cleared ++ a.waiting }

/-- The first one that waits is taken. -/
def take (a : Agenda α β) : Agenda α β :=
  match a.waiting with
  | [] => a
  | x :: rest =>
      { a with
        waiting := rest
        taken := a.taken ++ [x]
        queued := a.queued ++ [x] }

/-- The one that was taken first is done. -/
def finish (a : Agenda α β) : Agenda α β :=
  match a.queued with
  | [] => a
  | x :: rest => { a with queued := rest, done := a.done ++ [x] }

/-- An item is put in its place. -/
theorem pairwise_orderedInsert {due : α → δ} {R : α → α → Prop} {x : α}
    {us : List α} (hsorted : us.Pairwise R)
    (hle : ∀ u v, R u v → due u ≤ due v)
    (hbefore : ∀ u ∈ us, due u ≤ due x → R u x)
    (hafter : ∀ u, due x < due u → R x u) :
    (us.orderedInsert (fun t u => due t < due u) x).Pairwise R := by
  induction us with
  | nil => exact List.pairwise_singleton _ _
  | cons u us ih =>
      obtain ⟨hu, hus⟩ := List.pairwise_cons.mp hsorted
      rw [List.orderedInsert_cons]
      split
      · rename_i hlt
        refine List.pairwise_cons.mpr ⟨fun v hv => hafter v ?_, hsorted⟩
        rcases List.mem_cons.mp hv with rfl | hv
        · exact hlt
        · exact hlt.trans_le (hle u v (hu v hv))
      · rename_i hnot
        refine List.pairwise_cons.mpr ⟨fun v hv => ?_, ?_⟩
        · rcases (List.mem_orderedInsert _).mp hv with rfl | hv
          · exact hbefore u (List.mem_cons_self ..) (not_lt.mp hnot)
          · exact hu v hv
        · exact ih hus fun v hv => hbefore v (List.mem_cons_of_mem _ hv)

/-! ## Conservation -/

/-- Where an item can be. -/
def places (a : Agenda α β) : List α :=
  a.waiting ++ (a.queued ++ (a.done ++ (a.removed.map Prod.fst ++ a.cleared)))

/-- An item comes before another: it is due earlier, or at the same time and
was accepted earlier. -/
def Precedes (due : α → δ) (a : Agenda α β) (t u : α) : Prop :=
  due t < due u ∨ due t = due u ∧ [t, u].Sublist a.accepted

/-- Every item is in one place, under a key of its own; what was taken is done
in turn; what waits is in order. -/
structure Conserved (key : α → κ) (due : α → δ) (a : Agenda α β) : Prop where
  places : a.places.Perm a.accepted
  keys : (a.accepted.map key).Nodup
  taken : a.taken = a.done ++ a.queued
  sorted : a.waiting.Pairwise (a.Precedes due)

variable {key : α → κ} {due : α → δ} {a : Agenda α β}

/-- No item is in two places. -/
theorem Conserved.nodup (h : Conserved key due a) : a.places.Nodup :=
  h.places.nodup_iff.mpr (List.Nodup.of_map key h.keys)

theorem Conserved.mem_accepted (h : Conserved key due a) {x : α}
    (hx : x ∈ a.waiting) : x ∈ a.accepted :=
  h.places.subset (List.mem_append_left _ hx)

theorem conserved_nil : Conserved key due ({} : Agenda α β) where
  places := List.Perm.refl _
  keys := List.nodup_nil
  taken := rfl
  sorted := List.Pairwise.nil

/-- Items keep their order when another one is accepted. -/
theorem Precedes.append {t u : α} (h : a.Precedes due t u) (x : α)
    {b : Agenda α β} (hb : b.accepted = a.accepted ++ [x]) :
    b.Precedes due t u := by
  refine h.imp_right fun hsame => ⟨hsame.1, ?_⟩
  rw [hb]
  exact hsame.2.trans (List.sublist_append_left _ _)

theorem Conserved.accept (h : Conserved key due a) {x : α}
    (hnew : key x ∉ a.accepted.map key) :
    Conserved key due (a.accept due x) where
  places := by
    have hinsert := List.perm_orderedInsert (fun t u => due t < due u) x
      a.waiting
    show (a.waiting.orderedInsert _ x ++ _).Perm (a.accepted ++ [x])
    exact ((hinsert.append_right _).trans (h.places.cons x)).trans
      (List.perm_append_singleton x a.accepted).symm
  keys := by
    show ((a.accepted ++ [x]).map key).Nodup
    rw [List.map_append, List.nodup_append]
    refine ⟨h.keys, List.nodup_singleton _, fun k hk k' hk' => ?_⟩
    rintro rfl
    rw [List.map_singleton, List.mem_singleton] at hk'
    exact hnew (hk' ▸ hk)
  taken := h.taken
  sorted := by
    refine pairwise_orderedInsert
      (h.sorted.imp fun hprec => hprec.append x rfl) (fun u v hprec => ?_)
      (fun u hu hle => ?_) (fun u hlt => Or.inl hlt)
    · rcases hprec with hlt | ⟨heq, -⟩
      · exact hlt.le
      · exact heq.le
    · rcases lt_or_eq_of_le hle with hlt | heq
      · exact Or.inl hlt
      · have hmem : [u].Sublist a.accepted :=
          List.singleton_sublist.mpr (h.mem_accepted hu)
        exact Or.inr ⟨heq, hmem.append (List.Sublist.refl [x])⟩

/-- Items that change their places are still the same items. -/
theorem Conserved.perm_of_count [DecidableEq α] (h : Conserved key due a)
    {b : Agenda α β} (haccepted : b.accepted = a.accepted)
    (hcount : ∀ y, b.places.count y = a.places.count y) :
    b.places.Perm b.accepted := by
  rw [haccepted]
  exact (List.perm_iff_count.mpr hcount).trans h.places

/-- No item waits under the key. -/
theorem remove_missing [DecidableEq κ] {k : κ}
    (hnone : ∀ x ∈ a.waiting, key x ≠ k) (b : β) : a.remove key k b = a := by
  have hfind : (a.waiting.find? fun x => key x == k) = none := by
    rw [List.find?_eq_none]
    intro x hx
    simpa using hnone x hx
  unfold Agenda.remove
  rw [hfind]

/-- The first item under the key is removed. -/
theorem remove_first [DecidableEq κ] {k : κ} {front back : List α} {x : α}
    (hwaiting : a.waiting = front ++ x :: back)
    (hfront : ∀ y ∈ front, key y ≠ k) (hx : key x = k) (b : β) :
    a.remove key k b = { a with
      waiting := front ++ back
      removed := a.removed ++ [(x, b)] } := by
  have hk : (key x == k) = true := by simpa using hx
  have hfind : (a.waiting.find? fun x => key x == k) = some x := by
    rw [List.find?_eq_some_iff_append]
    refine ⟨hk, front, back, hwaiting, fun y hy => ?_⟩
    simpa using hfront y hy
  have herase : (a.waiting.eraseP fun x => key x == k) = front ++ back := by
    rw [hwaiting, List.eraseP_append_right _ (by simpa using hfront),
      List.eraseP_cons_of_pos (p := fun x => key x == k) hk]
  unfold Agenda.remove
  rw [hfind]
  dsimp only
  rw [herase]

theorem Conserved.remove [DecidableEq κ] (h : Conserved key due a) (k : κ)
    (b : β) : Conserved key due (a.remove key k b) := by
  cases hfind : a.waiting.find? fun x => key x == k with
  | none =>
      rw [List.find?_eq_none] at hfind
      rw [remove_missing (fun x hx => by simpa using hfind x hx)]
      exact h
  | some x =>
      obtain ⟨hk, front, back, hwaiting, hfront⟩ :=
        List.find?_eq_some_iff_append.mp hfind
      rw [remove_first hwaiting (fun y hy => by simpa using hfront y hy)
        (by simpa using hk)]
      refine ⟨?_, h.keys, h.taken, ?_⟩
      · classical
        refine h.perm_of_count rfl fun y => ?_
        rw [Agenda.places, Agenda.places, hwaiting]
        simp only [List.count_append, List.count_cons, List.map_append,
          List.map_cons, List.map_nil, List.count_nil]
        omega
      · have hsorted := h.sorted
        rw [hwaiting] at hsorted
        exact hsorted.sublist
          (List.Sublist.append_left (List.sublist_cons_self x back) front)

/-- Under the key of an item that was accepted, this item is removed if it
waits, and no other one. -/
theorem Conserved.remove_waiting [DecidableEq κ] [DecidableEq α]
    (h : Conserved key due a) {t : α} (ht : t ∈ a.accepted) (b : β) :
    (a.remove key (key t) b).waiting = a.waiting.erase t := by
  have honly : ∀ u ∈ a.waiting, key u = key t → u = t := fun u hu heq =>
    List.inj_on_of_nodup_map h.keys (h.mem_accepted hu) ht heq
  by_cases hmem : t ∈ a.waiting
  · obtain ⟨front, back, hwaiting, hfront⟩ :=
      List.eq_append_cons_of_mem hmem
    have hpass : ∀ u ∈ front, key u ≠ key t := by
      intro u hu heq
      have huw : u ∈ a.waiting := by
        rw [hwaiting]
        exact List.mem_append_left _ hu
      exact hfront (honly u huw heq ▸ hu)
    rw [remove_first hwaiting hpass rfl, hwaiting,
      List.erase_append_right _ hfront, List.erase_cons_head]
  · have hnone : ∀ u ∈ a.waiting, key u ≠ key t := fun u hu heq =>
      hmem (honly u hu heq ▸ hu)
    rw [remove_missing hnone, List.erase_of_not_mem hmem]

theorem Conserved.clear (h : Conserved key due a) :
    Conserved key due a.clear where
  places := by
    classical
    refine h.perm_of_count rfl fun y => ?_
    rw [Agenda.places, Agenda.places, Agenda.clear]
    simp only [List.count_append, List.count_nil]
    omega
  keys := h.keys
  taken := h.taken
  sorted := List.Pairwise.nil

theorem Conserved.take (h : Conserved key due a) :
    Conserved key due a.take := by
  unfold Agenda.take
  cases hwaiting : a.waiting with
  | nil => exact h
  | cons x rest =>
      refine ⟨?_, h.keys, ?_, ?_⟩
      · classical
        refine h.perm_of_count rfl fun y => ?_
        rw [Agenda.places, Agenda.places, hwaiting]
        simp only [List.count_append, List.count_cons, List.count_nil]
        omega
      · show a.taken ++ [x] = a.done ++ (a.queued ++ [x])
        rw [h.taken, List.append_assoc]
      · have hsorted := h.sorted
        rw [hwaiting] at hsorted
        exact hsorted.tail

theorem Conserved.finish (h : Conserved key due a) :
    Conserved key due a.finish := by
  unfold Agenda.finish
  cases hqueued : a.queued with
  | nil => exact h
  | cons x rest =>
      refine ⟨?_, h.keys, ?_, h.sorted⟩
      · classical
        refine h.perm_of_count rfl fun y => ?_
        rw [Agenda.places, Agenda.places, hqueued]
        simp only [List.count_append, List.count_cons, List.count_nil]
        omega
      · show a.taken = (a.done ++ [x]) ++ rest
        rw [h.taken, hqueued, List.append_assoc]
        rfl

end Agenda
