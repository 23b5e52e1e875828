import Mathlib.Data.List.Basic
import Mathlib.Logic.Function.Basic

/-!
# A copy in front of a store

Values are kept in memory and in a store behind it.  A write goes to memory
first and then to the store, which may refuse it or take another value; the
writer does not look at the answer.  `Agree.writeAll_iff` says when the two
agree afterwards.
-/

namespace WriteThrough

variable {κ β : Type} [DecidableEq κ]

/-- One write, and what the store takes for it, if it takes anything. -/
structure Write (κ β : Type) where
  key : κ
  value : β
  stored : Option β
  deriving DecidableEq

/-- The store holds the value after the write. -/
def Write.Lands (w : Write κ β) (store : κ → β) : Prop :=
  w.stored.getD (store w.key) = w.value

/-- The values in memory and in the store. -/
structure Copies (κ β : Type) where
  memory : κ → β
  store : κ → β

namespace Copies

def Agree (c : Copies κ β) : Prop := ∀ k, c.memory k = c.store k

/-- Memory takes the value, the store what it takes. -/
def write (c : Copies κ β) (w : Write κ β) : Copies κ β where
  memory := Function.update c.memory w.key w.value
  store := Function.update c.store w.key (w.stored.getD (c.store w.key))

def writeAll (c : Copies κ β) (ws : List (Write κ β)) : Copies κ β :=
  ws.foldl write c

@[simp] theorem writeAll_nil (c : Copies κ β) : c.writeAll [] = c := rfl

@[simp] theorem writeAll_cons (c : Copies κ β) (w : Write κ β)
    (ws : List (Write κ β)) :
    c.writeAll (w :: ws) = (c.write w).writeAll ws := rfl

theorem write_other (c : Copies κ β) {w : Write κ β} {k : κ}
    (hk : k ≠ w.key) : (c.write w).memory k = c.memory k ∧
      (c.write w).store k = c.store k := by
  constructor
  · exact Function.update_of_ne hk _ _
  · exact Function.update_of_ne hk _ _

/-- The copies of the key that is written. -/
theorem write_self (c : Copies κ β) (w : Write κ β) :
    (c.write w).memory w.key = (c.write w).store w.key ↔
      w.Lands c.store := by
  have hmemory : (c.write w).memory w.key = w.value :=
    Function.update_self _ _ _
  have hstore : (c.write w).store w.key =
      w.stored.getD (c.store w.key) := Function.update_self _ _ _
  rw [hmemory, hstore, Write.Lands, eq_comm]

/-- The memory after some writes does not depend on the store. -/
theorem memory_writeAll (ws : List (Write κ β)) {c c' : Copies κ β}
    (h : c.memory = c'.memory) :
    (c.writeAll ws).memory = (c'.writeAll ws).memory := by
  induction ws generalizing c c' with
  | nil => exact h
  | cons w ws ih =>
      apply ih
      show Function.update c.memory _ _ = Function.update c'.memory _ _
      rw [h]

/-- The store after some writes does not depend on the memory. -/
theorem store_writeAll (ws : List (Write κ β)) {c c' : Copies κ β}
    (h : c.store = c'.store) :
    (c.writeAll ws).store = (c'.writeAll ws).store := by
  induction ws generalizing c c' with
  | nil => exact h
  | cons w ws ih =>
      apply ih
      show Function.update c.store _ _ = Function.update c'.store _ _
      rw [h]

/-- After writes to different keys the copies agree where they did before and
nothing was written, and where a write landed. -/
theorem writeAll_agree (ws : List (Write κ β))
    (hnodup : (ws.map Write.key).Nodup) (c : Copies κ β) :
    (c.writeAll ws).Agree ↔
      (∀ k, k ∉ ws.map Write.key → c.memory k = c.store k) ∧
        ∀ w ∈ ws, w.Lands c.store := by
  induction ws generalizing c with
  | nil => simp [Agree]
  | cons w ws ih =>
      rw [List.map_cons, List.nodup_cons] at hnodup
      obtain ⟨hnew, hrest⟩ := hnodup
      rw [writeAll_cons, ih hrest]
      -- the later writes go to other keys
      have hlater : ∀ w' ∈ ws,
          (w'.Lands (c.write w).store ↔ w'.Lands c.store) := by
        intro w' hw'
        have hne : w'.key ≠ w.key := by
          intro heq
          exact hnew (heq ▸ List.mem_map_of_mem hw')
        rw [Write.Lands, Write.Lands, (c.write_other hne).2]
      constructor
      · rintro ⟨hkeys, hlands⟩
        constructor
        · intro k hk
          rw [List.map_cons, List.mem_cons, not_or] at hk
          have hkept := hkeys k hk.2
          rwa [(c.write_other hk.1).1, (c.write_other hk.1).2] at hkept
        · intro w' hw'
          rcases List.mem_cons.mp hw' with rfl | hw'
          · exact (c.write_self w').mp (hkeys _ hnew)
          · exact (hlater w' hw').mp (hlands w' hw')
      · rintro ⟨hkeys, hlands⟩
        constructor
        · intro k hk
          by_cases hkw : k = w.key
          · rw [hkw]
            exact (c.write_self w).mpr (hlands w (List.mem_cons_self ..))
          · rw [(c.write_other hkw).1, (c.write_other hkw).2]
            apply hkeys k
            rw [List.map_cons, List.mem_cons, not_or]
            exact ⟨hkw, hk⟩
        · intro w' hw'
          exact (hlater w' hw').mpr (hlands w' (List.mem_cons_of_mem _ hw'))

/-- Copies that agreed before agree after writes to different keys if and
only if every write landed. -/
theorem Agree.writeAll_iff {c : Copies κ β} (h : c.Agree)
    {ws : List (Write κ β)} (hnodup : (ws.map Write.key).Nodup) :
    (c.writeAll ws).Agree ↔ ∀ w ∈ ws, w.Lands c.store := by
  rw [writeAll_agree ws hnodup]
  constructor
  · intro hall
    exact hall.2
  · intro hlands
    exact ⟨fun k _ => h k, hlands⟩

end Copies

end WriteThrough
