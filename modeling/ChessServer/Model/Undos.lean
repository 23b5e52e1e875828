import ChessServer.Model.Captures

/-!
# Which capture an undo takes back

All that a board remembers of its last capture is two locations, which it
forgets with the next move only.  Whatever happens at a table, an undo takes
back the last capture, for the first time and for those who were part of it,
exactly when this is what the two locations stand for
(`Course.cancelsOnce_iff`).
-/

namespace ChessServer

namespace Table

/-! ## The memory -/

/-- The two locations of the last capture. -/
def memory (t : Table) : Location × Location :=
  (t.recentWinnerLocate, t.recentLoserLocate)

@[simp] theorem memory_modifyAt (t : Table) (locate : Location)
    (f : Player → Player) : (t.modifyAt locate f).memory = t.memory := by
  unfold modifyAt
  split <;> rfl

@[simp] theorem memory_crown (t : Table) : t.crown.memory = t.memory := by
  unfold crown
  split <;> rfl

@[simp] theorem memory_vacate (t : Table) (seat : Seat) :
    (t.vacate seat).memory = t.memory := rfl

@[simp] theorem memory_modifyAll (t : Table) (f : Player → Player) :
    (t.modifyAll f).memory = t.memory := rfl

@[simp] theorem memory_modify (t : Table) (seat : Seat)
    (f : Player → Player) : (t.modify seat f).memory = t.memory := rfl

@[simp] theorem memory_leave (t : Table) (seat : Seat) :
    (t.leave seat).memory = t.memory := by
  unfold leave
  dsimp only
  split <;> simp [endAll]

@[simp] theorem memory_chooseTime (t : Table) (m : GameReadyReq) :
    (t.chooseTime m).memory = t.memory := by
  unfold chooseTime
  split
  · split <;> rfl
  · rfl

/-- Only a move touches the memory. -/
theorem memory_apply {t : Table} {a : Act} (h : ∀ m, a ≠ .move m) :
    (a.apply t).memory = t.memory := by
  cases a with
  | join seat user score =>
      simp only [Act.apply, join]
      split <;> rfl
  | leave seat => exact memory_leave t seat
  | reject seat => simp [Act.apply, reject]
  | surrender seat =>
      simp only [Act.apply, surrender]
      split <;> simp [endAll]
  | move m => exact absurd rfl (h m)
  | draw => rfl
  | undo =>
      simp only [Act.apply, undo]
      split <;> simp
  | ready m =>
      simp only [Act.apply, ready]
      split <;> simp
  | again seat began =>
      simp only [Act.apply, again]
      split <;> rfl

/-- A move remembers its capture, or that there was none. -/
theorem memory_move (t : Table) (m : MoveChess) :
    (t.move m).memory = if m.isWinner then (m.srcLocate, m.targetLocate)
      else (locationMax, locationMax) := by
  have hcapture : (t.capture m).memory = if m.isWinner then
      (m.srcLocate, m.targetLocate) else (locationMax, locationMax) := by
    unfold capture
    split
    · rw [memory_modifyAt, memory_modifyAt]
      rfl
    · rfl
  unfold move
  dsimp only
  split
  · exact hcapture
  · rw [memory_modifyAt, hcapture]

/-! ## Whatever happens at a table -/

/-- The act starts a game: all three are BEGAN with it. -/
def starts (t : Table) : Option Act → Bool
  | some (.ready m) => decide (((t.modifyAt m.srcUserLocate
      (setStatus .began)).chooseTime m).count (· == .began) = 3)
  | _ => false

/-- `n` steps at one table.  An undo finds the users it looks for, or there is
no next step. -/
structure Course (tables : Nat → Table) (acts : Nat → Option Act) (n : Nat) :
    Prop where
  start : (tables 0).recentWinnerLocate = locationMax
  next : ∀ j, j < n → tables (j + 1) =
    ((acts j).map (·.apply (tables j))).getD (tables j)
  taken : ∀ j, j < n → acts j = some .undo →
    (tables j).recentWinnerLocate ≠ locationMax → ∃ source target p q,
      (tables j).memory = (Seat.location source, Seat.location target) ∧
      (tables j).players source = some p ∧ (tables j).players target = some q

variable {tables : Nat → Table} {acts : Nat → Option Act} {n k j : Nat}

theorem memory_after {t : Table} {act : Option Act}
    (h : ∀ m, act ≠ some (.move m)) :
    ((act.map (·.apply t)).getD t).memory = t.memory := by
  cases act with
  | none => rfl
  | some a => exact memory_apply fun m ha => h m (congrArg some ha)

/-- What a table remembers is its last move. -/
theorem Course.remembers (h : Course tables acts n) (hj : j ≤ n)
    (hmemory : (tables j).recentWinnerLocate ≠ locationMax) :
    ∃ k m, k < j ∧ acts k = some (.move m) ∧ m.isWinner = true ∧
      (tables j).memory = (m.srcLocate, m.targetLocate) ∧
      ∀ l m', k < l → l < j → acts l ≠ some (.move m') := by
  induction j with
  | zero => exact absurd h.start hmemory
  | succ j ih =>
      have hnext := h.next j hj
      by_cases hmove : ∃ m, acts j = some (.move m)
      · obtain ⟨m, hm⟩ := hmove
        have hset : (tables (j + 1)).memory = if m.isWinner then
            (m.srcLocate, m.targetLocate) else (locationMax, locationMax) := by
          rw [hnext, hm]
          exact memory_move _ m
        split at hset
        · rename_i hwin
          exact ⟨j, m, Nat.lt_succ_self j, hm, hwin, hset,
            fun l _ hl hl' => by omega⟩
        · exact absurd (congrArg Prod.fst hset) hmemory
      · have hkept : (tables (j + 1)).memory = (tables j).memory := by
          rw [hnext]
          exact memory_after fun m hm => hmove ⟨m, hm⟩
        obtain ⟨k, m, hk, hm, hwin, hset, hlast⟩ := ih (by omega) fun hmax =>
          hmemory ((congrArg Prod.fst hkept).trans hmax)
        refine ⟨k, m, by omega, hm, hwin, hkept.trans hset,
          fun l m' hl hl' => ?_⟩
        rcases Nat.lt_or_eq_of_le (Nat.le_of_lt_succ hl') with hlt | rfl
        · exact hlast l m' hl hlt
        · exact fun hm' => hmove ⟨m', hm'⟩

/-- And its last move is what it remembers. -/
theorem Course.memory_since (h : Course tables acts n) {m : MoveChess}
    (hk : acts k = some (.move m)) (hwin : m.isWinner = true) (hkj : k < j)
    (hj : j ≤ n) (hlast : ∀ l m', k < l → l < j → acts l ≠ some (.move m')) :
    (tables j).memory = (m.srcLocate, m.targetLocate) := by
  induction j, hkj using Nat.le_induction with
  | base =>
      rw [h.next k (by omega), hk]
      exact (memory_move _ m).trans (if_pos hwin)
  | succ j hkj ih =>
      rw [h.next j (by omega), memory_after fun m' =>
        hlast j m' (by omega) (Nat.lt_succ_self j)]
      exact ih (by omega) fun l m' hl hl' => hlast l m' hl (by omega)

/-! ## The capture that is undone -/

/-- The last move before step `j` is a capture of one chair by another, in the
game that is still going on. -/
structure LastCapture (tables : Nat → Table) (acts : Nat → Option Act)
    (k j : Nat) (source target : Seat) : Prop where
  lt : k < j
  capture : ∃ m, acts k = some (.move m) ∧ m.isWinner = true ∧
    m.srcLocate = source.location ∧ m.targetLocate = target.location
  last : ∀ l m, k < l → l < j → acts l ≠ some (.move m)
  began : ∀ l, k ≤ l → l ≤ j → (tables l).began = true
  same : ∀ l, k < l → l < j → (tables l).starts (acts l) = false

/-- The capture at step `k` has been undone before step `j`. -/
def Cancelled (tables : Nat → Table) (acts : Nat → Option Act) (k j : Nat) :
    Prop :=
  ∃ l, k < l ∧ l < j ∧ acts l = some .undo ∧
    (tables (l + 1)).players ≠ (tables l).players

/-- Ten points go from `x` back to `y`, who is in the game again, and nothing
else happens at the table. -/
structure TakesBack (x y : SessionId) (t t' : Table) : Prop where
  winner : ∃ seat p, t.players seat = some p ∧ p.user = x ∧
    t'.players seat = some (lose 10 p)
  loser : ∃ seat p, t.players seat = some p ∧ p.user = y ∧
    t'.players seat = some (setStatus .playing (gain 10 p))
  others : ∀ seat p, t.players seat = some p → p.user ≠ x → p.user ≠ y →
    t'.players seat = some p
  nobody : ∀ seat, t.players seat = none → t'.players seat = none

/-- An undo at step `j` that leads to the table `t'` changes no score and no
status, or it takes back, for the first time, the last capture of the game,
from and for those who were part of it. -/
def CancelsOnce (tables : Nat → Table) (acts : Nat → Option Act) (j : Nat)
    (t' : Table) : Prop :=
  t'.players = (tables j).players ∨
  ∃ k source target p q, LastCapture tables acts k j source target ∧
    ¬ Cancelled tables acts k j ∧ (tables k).players source = some p ∧
    (tables k).players target = some q ∧ TakesBack p.user q.user (tables j) t'

/-- Somebody still sits where he sat. -/
def Stays (t t' : Table) (seat : Seat) : Prop :=
  ∃ p p', t.players seat = some p ∧ t'.players seat = some p' ∧
    p'.user = p.user

/-- What the board remembers is a capture that can be undone, or no capture, or
one that somebody PLAYING made of himself. -/
def UndoFits (tables : Nat → Table) (acts : Nat → Option Act) (j : Nat) :
    Prop :=
  (tables j).recentWinnerLocate = locationMax ∨
  (∃ seat : Seat, (tables j).memory = (seat.location, seat.location) ∧
    (tables j).status seat = some .playing) ∨
  ∃ k source target, LastCapture tables acts k j source target ∧
    source ≠ target ∧ (∀ l, k < l → l < j → acts l ≠ some .undo) ∧
    Stays (tables k) (tables j) source ∧ Stays (tables k) (tables j) target

/-! ## When an undo does what it is for -/

theorem ne_sub_ten (score : UInt32) : score - 10 ≠ score := by
  intro h
  have hback : score - 10 + 10 = score + 10 := by rw [h]
  rw [UInt32.sub_add_cancel] at hback
  exact ne_add_ten score hback.symm

theorem sub_ten_ne_add_ten (score : UInt32) : score - 10 ≠ score + 10 := by
  intro h
  have hnat := congrArg UInt32.toNat h
  have hlt := score.toNat_lt
  rw [UInt32.toNat_add, UInt32.toNat_sub,
    show (10 : UInt32).toNat = 10 from rfl] at hnat
  omega

/-- Whose score an undo lowers is the winner on record, and not the loser. -/
theorem restored_eq_lose {winner loser : Location} {seat : Seat} {p : Player}
    (h : restored winner loser seat p = lose 10 p) :
    winner = seat.location ∧ loser ≠ seat.location := by
  have hscore := congrArg Player.score h
  unfold restored at hscore
  by_cases hw : winner = seat.location
  · refine ⟨hw, fun hl => ne_sub_ten p.score ?_⟩
    simp only [hw, hl, if_true, setStatus, gain, lose,
      UInt32.sub_add_cancel] at hscore
    exact hscore.symm
  · exfalso
    by_cases hl : loser = seat.location
    · simp only [hw, hl, if_true, if_false, setStatus, gain, lose] at hscore
      exact sub_ten_ne_add_ten p.score hscore.symm
    · simp only [hw, hl, if_false, lose] at hscore
      exact ne_sub_ten p.score hscore.symm

/-- Whose score it raises is the loser on record, and not the winner. -/
theorem restored_eq_gain {winner loser : Location} {seat : Seat} {p : Player}
    (h : restored winner loser seat p = setStatus .playing (gain 10 p)) :
    loser = seat.location ∧ winner ≠ seat.location := by
  have hscore := congrArg Player.score h
  unfold restored at hscore
  by_cases hl : loser = seat.location
  · refine ⟨hl, fun hw => ne_add_ten p.score ?_⟩
    simp only [hw, hl, if_true, setStatus, gain, lose,
      UInt32.sub_add_cancel] at hscore
    exact hscore.symm
  · exfalso
    by_cases hw : winner = seat.location
    · simp only [hw, hl, if_true, if_false, setStatus, gain, lose] at hscore
      exact sub_ten_ne_add_ten p.score hscore
    · simp only [hw, hl, if_false, setStatus, gain] at hscore
      exact ne_add_ten p.score hscore.symm

/-- An undo of a capture of somebody else changes the winner's score. -/
theorem undo_changes {t : Table} {source target : Seat} {p : Player}
    (hmemory : t.memory = (source.location, target.location))
    (hne : source ≠ target) (hp : t.players source = some p) :
    t.undo.players ≠ t.players := by
  intro hsame
  have hwinner : t.recentWinnerLocate = source.location :=
    congrArg Prod.fst hmemory
  have hloser : t.recentLoserLocate = target.location :=
    congrArg Prod.snd hmemory
  have hself := congrFun hsame source
  rw [players_undo (by rw [hwinner]; exact source.location_ne_max), hp,
    Option.map_some, Option.some.injEq] at hself
  refine ne_sub_ten p.score (Eq.trans ?_ (congrArg Player.score hself))
  simp [restored, hwinner, hloser, location_eq_iff, hne.symm, lose]

/-- An undo of a capture of oneself is only seen in the status. -/
theorem undo_self_iff {t : Table} {seat : Seat} {p : Player}
    (hmemory : t.memory = (seat.location, seat.location))
    (hp : t.players seat = some p) :
    t.undo.players = t.players ↔ t.status seat = some .playing := by
  have hwinner : t.recentWinnerLocate = seat.location :=
    congrArg Prod.fst hmemory
  have hloser : t.recentLoserLocate = seat.location :=
    congrArg Prod.snd hmemory
  have hplayers := @players_undo t
    (by rw [hwinner]; exact seat.location_ne_max)
  have hback : restored t.recentWinnerLocate t.recentLoserLocate seat p =
      setStatus .playing p := by
    simp only [restored, hwinner, hloser, if_true, gain_lose]
  constructor
  · intro hsame
    have hself := congrFun hsame seat
    rw [hplayers, hp, Option.map_some, hback, Option.some.injEq] at hself
    rw [status, hp, Option.map_some, ← hself]
    rfl
  · intro hstatus
    rw [status, hp, Option.map_some, Option.some.injEq] at hstatus
    funext chair
    rw [hplayers]
    by_cases hc : seat = chair
    · subst hc
      rw [hp, Option.map_some, hback, ← hstatus]
      rfl
    · cases t.players chair with
      | none => rfl
      | some q =>
          simp [restored, hwinner, hloser, location_eq_iff, hc]

/-- The undo of a capture of one user by another. -/
theorem undo_takesBack {t : Table} {source target : Seat} {p q : Player}
    (hmemory : t.memory = (source.location, target.location))
    (hne : source ≠ target) (hp : t.players source = some p)
    (hq : t.players target = some q) :
    TakesBack p.user q.user t t.undo := by
  have hwinner : t.recentWinnerLocate = source.location :=
    congrArg Prod.fst hmemory
  have hloser : t.recentLoserLocate = target.location :=
    congrArg Prod.snd hmemory
  have hplayers := @players_undo t
    (by rw [hwinner]; exact source.location_ne_max)
  refine ⟨⟨source, p, hp, rfl, ?_⟩, ⟨target, q, hq, rfl, ?_⟩,
    fun seat r hr hx hy => ?_, fun seat hnone => ?_⟩
  · rw [hplayers, hp]
    simp [restored, hwinner, hloser, location_eq_iff, hne.symm]
  · rw [hplayers, hq]
    simp [restored, hwinner, hloser, location_eq_iff, hne]
  · have hs : source ≠ seat := by
      rintro rfl
      rw [hp, Option.some.injEq] at hr
      exact hx (by rw [hr])
    have ht : target ≠ seat := by
      rintro rfl
      rw [hq, Option.some.injEq] at hr
      exact hy (by rw [hr])
    rw [hplayers, hr]
    simp [restored, hwinner, hloser, location_eq_iff, hs, ht]
  · rw [hplayers, hnone]
    rfl

/-- An undo takes a capture back once, and from and for its own users, exactly
when what the table remembers is a capture that can be undone. -/
theorem Course.cancelsOnce_iff (h : Course tables acts n)
    (htaken : (tables n).recentWinnerLocate ≠ locationMax →
      ∃ source target p q,
        (tables n).memory = (Seat.location source, Seat.location target) ∧
        (tables n).players source = some p ∧
        (tables n).players target = some q) :
    CancelsOnce tables acts n (tables n).undo ↔ UndoFits tables acts n := by
  constructor
  · rintro (hsame | ⟨k, source, target, p, q, hcap, hfresh, hp, hq, htakes⟩)
    · by_cases hmax : (tables n).recentWinnerLocate = locationMax
      · exact Or.inl hmax
      · obtain ⟨source, target, p, q, hmemory, hp, _⟩ := htaken hmax
        by_cases hself : source = target
        · subst hself
          exact Or.inr (Or.inl
            ⟨source, hmemory, (undo_self_iff hmemory hp).mp hsame⟩)
        · exact absurd hsame (undo_changes hmemory hself hp)
    · obtain ⟨m, hm, hwin, hsrc, htarget⟩ := hcap.capture
      have hmemory := h.memory_since hm hwin hcap.lt (Nat.le_refl n) hcap.last
      rw [hsrc, htarget] at hmemory
      have hwinner : (tables n).recentWinnerLocate = source.location :=
        congrArg Prod.fst hmemory
      have hloser : (tables n).recentLoserLocate = target.location :=
        congrArg Prod.snd hmemory
      have hplayers := @players_undo (tables n)
        (by rw [hwinner]; exact source.location_ne_max)
      obtain ⟨seat, p', hp', huser, hlost⟩ := htakes.winner
      rw [hplayers, hp', Option.map_some, Option.some.injEq] at hlost
      obtain ⟨hat, hother⟩ := restored_eq_lose hlost
      rw [hwinner] at hat
      obtain rfl := Seat.location_injective hat
      obtain ⟨seat', q', hq', huser', hgained⟩ := htakes.loser
      rw [hplayers, hq', Option.map_some, Option.some.injEq] at hgained
      obtain ⟨hat', _⟩ := restored_eq_gain hgained
      rw [hloser] at hat' hother
      obtain rfl := Seat.location_injective hat'
      have hne : source ≠ target := fun heq => hother (by rw [heq])
      refine Or.inr (Or.inr ⟨k, source, target, hcap, hne,
        fun l hl hl' hundo => hfresh ⟨l, hl, hl', hundo, ?_⟩,
        ⟨p, p', hp, hp', huser⟩, ⟨q, q', hq, hq', huser'⟩⟩)
      -- every undo since the capture has changed the score of the winner
      have hbefore := h.memory_since hm hwin hl (Nat.le_of_lt hl')
        fun i m' hi hi' => hcap.last i m' hi (by omega)
      rw [hsrc, htarget] at hbefore
      obtain ⟨source', target', r, _, hsame, hr, _⟩ := h.taken l hl' hundo (by
        rw [show (tables l).recentWinnerLocate = source.location from
          congrArg Prod.fst hbefore]
        exact source.location_ne_max)
      rw [hbefore, Prod.mk.injEq] at hsame
      rw [← Seat.location_injective hsame.1] at hr
      rw [h.next l hl', hundo]
      exact undo_changes hbefore hne hr
  · rintro (hmax | ⟨seat, hmemory, hstatus⟩ |
      ⟨k, source, target, hcap, hne, hfirst, hstays, hstays'⟩)
    · refine Or.inl ?_
      unfold undo
      rw [if_neg (not_not_intro hmax)]
    · obtain ⟨p, hp, _⟩ := Option.map_eq_some_iff.mp hstatus
      exact Or.inl ((undo_self_iff hmemory hp).mpr hstatus)
    · obtain ⟨m, hm, hwin, hsrc, htarget⟩ := hcap.capture
      have hmemory := h.memory_since hm hwin hcap.lt (Nat.le_refl n) hcap.last
      rw [hsrc, htarget] at hmemory
      obtain ⟨p, p', hp, hp', huser⟩ := hstays
      obtain ⟨q, q', hq, hq', huser'⟩ := hstays'
      refine Or.inr ⟨k, source, target, p, q, hcap, ?_, hp, hq, ?_⟩
      · rintro ⟨l, hl, hl', hundo, _⟩
        exact hfirst l hl hl' hundo
      · rw [← huser, ← huser']
        exact undo_takesBack hmemory hne hp' hq'

/-- Who undoes what can be undone finds the users of the capture. -/
theorem Course.taken_of_fits (h : Course tables acts n)
    (hfits : UndoFits tables acts n)
    (hmemory : (tables n).recentWinnerLocate ≠ locationMax) :
    ∃ source target p q,
      (tables n).memory = (Seat.location source, Seat.location target) ∧
      (tables n).players source = some p ∧
      (tables n).players target = some q := by
  rcases hfits with hmax | ⟨seat, hself, hstatus⟩ |
    ⟨k, source, target, hcap, _, _, ⟨_, p, _, hp, _⟩, ⟨_, q, _, hq, _⟩⟩
  · exact absurd hmax hmemory
  · obtain ⟨p, hp, _⟩ := Option.map_eq_some_iff.mp hstatus
    exact ⟨seat, seat, p, p, hself, hp, hp⟩
  · obtain ⟨m, hm, hwin, hsrc, htarget⟩ := hcap.capture
    have hset := h.memory_since hm hwin hcap.lt (Nat.le_refl n) hcap.last
    rw [hsrc, htarget] at hset
    exact ⟨source, target, p, q, hset, hp, hq⟩

end Table

end ChessServer
