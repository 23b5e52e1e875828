/-!
# Turns in a ring

Players sit in a ring and take turns.  Whoever had a turn hands it to the
first active player after itself; a player that stops being active does not
start again.  Between two turns of one player every other player that is
still active has had exactly one turn, in the order of the ring.
-/

namespace Rotation

variable {α : Type}

/-- `others a` lists the players after `a`, once around the ring. -/
structure Ring (others : α → List α) : Prop where
  others_ne : ∀ {a b}, b ∈ others a → b ≠ a
  rotate : ∀ {a b before after}, others a = before ++ b :: after →
    others b = after ++ a :: before

/-- The steps from `k` to `n` of a game: who is active before each step, who
takes a turn in it, and whose turn it is.  The game of a player who is left
alone ends. -/
structure Game (others : α → List α) (active : Nat → α → Bool)
    (turn holder : Nat → Option α) (k n : Nat) : Prop where
  holds : ∀ i a, k ≤ i → i < n → turn i = some a →
    holder i = some a ∧ active i a = true
  passes : ∀ i a, k ≤ i → i < n → turn i = some a →
    holder (i + 1) = (others a).find? (active (i + 1))
  ends : ∀ i a, k ≤ i → i < n → turn i = some a →
    (others a).find? (active (i + 1)) = none → active (i + 1) a = false
  waits : ∀ i, k ≤ i → i < n → turn i = none → holder (i + 1) = holder i
  leaves : ∀ i a, k ≤ i → i < n → active (i + 1) a = true → active i a = true

/-- The turns that were taken in `d` steps from step `i` on. -/
def turns (turn : Nat → Option α) (i d : Nat) : List α :=
  (List.range' i d).filterMap turn

@[simp] theorem turns_zero (turn : Nat → Option α) (i : Nat) :
    turns turn i 0 = [] := rfl

theorem turns_succ (turn : Nat → Option α) (i d : Nat) :
    turns turn i (d + 1) = turns turn i d ++ (turn (i + d)).toList := by
  unfold turns
  rw [List.range'_1_concat, List.filterMap_append]
  cases h : turn (i + d) with
  | none => simp [h]
  | some a => simp [h]

/-- What is left of a round that `a` began: `a` is out; or it is the turn of
`b`, and those between the two who are still active have had theirs; or it is
the turn of `a` again. -/
inductive Round (others : α → List α) (active : α → Bool) (a : α)
    (done : List α) : Option α → Prop where
  | out {holder : Option α} (hout : active a = false) :
      Round others active a done holder
  | turn {b : α} {before after : List α}
      (hring : others a = before ++ b :: after) (hdone : done.Sublist before)
      (hall : ∀ x ∈ before, active x = true → x ∈ done) :
      Round others active a done (some b)
  | again (hdone : done.Sublist (others a))
      (hall : ∀ x ∈ others a, active x = true → x ∈ done) :
      Round others active a done (some a)

variable {others : α → List α} {a : α} {done : List α}

/-- Players who drop out do not matter to a round. -/
theorem Round.mono {active active' : α → Bool} {holder : Option α}
    (h : Round others active a done holder)
    (hleave : ∀ x, active' x = true → active x = true) :
    Round others active' a done holder := by
  cases h with
  | out hout =>
      apply Round.out
      cases hactive : active' a with
      | false => rfl
      | true => rw [hleave a hactive] at hout; cases hout
  | turn hring hdone hall =>
      exact .turn hring hdone fun x hx hactive => hall x hx (hleave x hactive)
  | again hdone hall =>
      exact .again hdone fun x hx hactive => hall x hx (hleave x hactive)

/-- The first active player after some part of the ring. -/
theorem Round.of_find {active : α → Bool} (before : List α) {after : List α}
    (hring : others a = before ++ after) (hdone : done.Sublist before)
    (hall : ∀ x ∈ before, active x = true → x ∈ done)
    (rest : List α) :
    Round others active a done ((after ++ a :: rest).find? active) := by
  induction after generalizing before with
  | nil =>
      cases hactive : active a with
      | false => exact .out hactive
      | true =>
          rw [List.append_nil] at hring
          subst hring
          rw [List.nil_append, List.find?_cons_of_pos hactive]
          exact .again hdone hall
  | cons b after ih =>
      cases hactive : active b with
      | true =>
          rw [List.cons_append, List.find?_cons_of_pos hactive]
          exact .turn hring hdone hall
      | false =>
          rw [List.cons_append, List.find?_cons_of_neg (by simp [hactive])]
          apply ih (before ++ [b]) (by simp [hring])
          · exact hdone.trans (List.sublist_append_left before [b])
          · intro x hx hx'
            rcases List.mem_append.mp hx with hx | hx
            · exact hall x hx hx'
            · rw [List.mem_singleton.mp hx, hactive] at hx'
              cases hx'

/-- A turn of somebody else takes the round on. -/
theorem Round.pass (hring : Ring others) {active : α → Bool} {b : α}
    (h : Round others active a done (some b)) (hne : b ≠ a) :
    Round others active a (done ++ [b]) ((others b).find? active) := by
  cases h with
  | out hout => exact .out hout
  | again => exact absurd rfl hne
  | @turn _ before after hothers hdone hall =>
      rw [hring.rotate hothers]
      apply Round.of_find (before ++ [b]) (by simp [hothers])
      · exact hdone.append (List.Sublist.refl [b])
      · intro x hx hactive
        rcases List.mem_append.mp hx with hx | hx
        · exact List.mem_append_left [b] (hall x hx hactive)
        · exact List.mem_append_right done hx

variable {active : Nat → α → Bool} {turn holder : Nat → Option α} {k n : Nat}

/-- The round after a turn of `a` at step `i`, as long as `a` has no other. -/
theorem Game.round (hring : Ring others)
    (hgame : Game others active turn holder k n) {i : Nat} (hk : k ≤ i)
    (hi : turn i = some a) :
    ∀ d, i + 1 + d ≤ n →
      (∀ l, i < l → l < i + 1 + d → turn l ≠ some a) →
      Round others (active (i + 1 + d)) a (turns turn (i + 1) d)
        (holder (i + 1 + d)) := by
  intro d
  induction d with
  | zero =>
      intro hn _
      rw [turns_zero, Nat.add_zero, hgame.passes i a hk (by omega) hi]
      cases hfind : (others a).find? (active (i + 1)) with
      | none => exact .out (hgame.ends i a hk (by omega) hi hfind)
      | some b =>
          have h : Round others (active (i + 1)) a []
              ((others a ++ [a]).find? (active (i + 1))) :=
            .of_find [] rfl (List.Sublist.refl []) (by simp) []
          rwa [List.find?_append, hfind, Option.some_or] at h
  | succ d ih =>
      intro hn hnot
      have h := (ih (by omega) fun l hl hlt => hnot l hl (by omega)).mono
        (hgame.leaves (i + 1 + d) · (by omega) (by omega))
      rw [turns_succ]
      show Round others (active (i + 1 + d + 1)) a _ (holder (i + 1 + d + 1))
      cases hturn : turn (i + 1 + d) with
      | none =>
          rw [hgame.waits (i + 1 + d) (by omega) (by omega) hturn,
            Option.toList_none, List.append_nil]
          exact h
      | some b =>
          have hne : b ≠ a := by
            rintro rfl
            exact hnot (i + 1 + d) (by omega) (by omega) hturn
          rw [(hgame.holds (i + 1 + d) b (by omega) (by omega) hturn).1] at h
          rw [hgame.passes (i + 1 + d) b (by omega) (by omega) hturn]
          exact h.pass hring hne

/-- Between two turns of `a` everybody else who is still active has had
exactly one turn, in the order of the ring. -/
theorem Game.fair (hring : Ring others)
    (hgame : Game others active turn holder k n) {i j : Nat} (hk : k ≤ i) (hij : i < j) (hj : j < n)
    (hi : turn i = some a) (hagain : turn j = some a)
    (hnot : ∀ l, i < l → l < j → turn l ≠ some a) :
    (turns turn (i + 1) (j - (i + 1))).Sublist (others a) ∧
      ∀ x ∈ others a, active j x = true →
        x ∈ turns turn (i + 1) (j - (i + 1)) := by
  obtain ⟨d, rfl⟩ : ∃ d, j = i + 1 + d := ⟨j - (i + 1), by omega⟩
  have h := hgame.round hring hk hi d (by omega) hnot
  obtain ⟨hholder, hactive⟩ := hgame.holds _ a (by omega) hj hagain
  rw [hholder] at h
  rw [show i + 1 + d - (i + 1) = d from by omega]
  cases h with
  | out hout =>
      rw [hactive] at hout
      cases hout
  | again hdone hall => exact ⟨hdone, hall⟩
  | turn hothers =>
      exact absurd rfl (@Ring.others_ne _ _ hring a a (by simp [hothers]))

end Rotation
