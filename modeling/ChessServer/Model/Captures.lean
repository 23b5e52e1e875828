import ChessServer.Model.Turns

/-!
# Captures and their undoing

A capture moves ten points from the seat it names as target to the seat it
names as source and ends the target's game; an undo that was agreed to takes
the last capture back.  Neither looks at a status, at the points that are
there, or at whether source and target differ.
-/

namespace ChessServer

namespace Table

/-! ## One chair -/

theorem location_eq_iff {a b : Seat} : a.location = b.location ↔ a = b :=
  ⟨Seat.location_injective, congrArg Seat.location⟩

theorem isPlaying_player {t : Table} {seat : Seat}
    (h : t.isPlaying seat = true) :
    ∃ p, t.players seat = some p ∧ p.status = .playing := by
  rw [isPlaying, passes_eq, Option.any_eq_true] at h
  obtain ⟨p, hp, hstatus⟩ := h
  exact ⟨p, hp, by simpa using hstatus⟩

theorem players_modifyAt (t : Table) (locate : Location)
    (f : Player → Player) (seat : Seat) :
    (t.modifyAt locate f).players seat =
      if locate = seat.location then (t.players seat).map f
      else t.players seat := by
  unfold modifyAt
  cases hlocate : seatAt locate with
  | none =>
      have hne : locate ≠ seat.location := by
        rintro rfl
        rw [seatAt_location] at hlocate
        cases hlocate
      rw [if_neg hne]
  | some changed =>
      obtain rfl := seatAt_eq_some_iff.mp hlocate
      by_cases heq : changed = seat
      · subst heq
        simp [modify]
      · have hne : changed.location ≠ seat.location := fun h =>
          heq (Seat.location_injective h)
        simp [modify, Function.update_of_ne (Ne.symm heq), hne]

/-- What a capture makes of the player on a chair. -/
def captured (m : MoveChess) (seat : Seat) (p : Player) : Player :=
  let p := if m.srcLocate = seat.location then gain 10 p else p
  if m.targetLocate = seat.location then setStatus .ended (lose 10 p) else p

/-- What an undo of a capture makes of the player on a chair. -/
def restored (winner loser : Location) (seat : Seat) (p : Player) : Player :=
  let p := if winner = seat.location then lose 10 p else p
  if loser = seat.location then setStatus .playing (gain 10 p) else p

theorem lose_gain (score : UInt32) (p : Player) :
    lose score (gain score p) = p :=
  congrArg (fun n => { p with score := n }) (UInt32.add_sub_cancel _ _)

theorem gain_lose (score : UInt32) (p : Player) :
    gain score (lose score p) = p :=
  congrArg (fun n => { p with score := n }) (UInt32.sub_add_cancel _ _)

theorem players_capture {t : Table} {m : MoveChess} (hwin : m.isWinner = true)
    (seat : Seat) :
    (t.capture m).players seat = (t.players seat).map (captured m seat) := by
  unfold capture captured
  rw [if_pos hwin, players_modifyAt, players_modifyAt]
  show (if m.targetLocate = seat.location then
      Option.map _ (if m.srcLocate = seat.location then
        (t.players seat).map (gain 10) else t.players seat)
      else if m.srcLocate = seat.location then
        (t.players seat).map (gain 10) else t.players seat) = _
  cases t.players seat with
  | none => simp
  | some p => split <;> split <;> simp

theorem players_move {t : Table} {m : MoveChess} (hwin : m.isWinner = true)
    (seat : Seat) :
    (t.move m).players seat = (t.players seat).map fun p =>
      if 1 < (t.capture m).active ∨ m.srcLocate ≠ seat.location then
        captured m seat p
      else setStatus .ended (captured m seat p) := by
  unfold move
  dsimp only
  by_cases hmany : (t.capture m).active > 1
  · rw [if_pos hmany, players_capture hwin]
    simp [show 1 < (t.capture m).active from hmany]
  · rw [if_neg hmany, players_modifyAt, players_capture hwin]
    have hfew : ¬ 1 < (t.capture m).active := hmany
    by_cases hsrc : m.srcLocate = seat.location
    · simp [hsrc, hfew, Function.comp_def]
    · simp [hsrc]

theorem recent_capture {t : Table} {m : MoveChess} (hwin : m.isWinner = true) :
    (t.capture m).recentWinnerLocate = m.srcLocate ∧
      (t.capture m).recentLoserLocate = m.targetLocate := by
  have hkeep : ∀ (t : Table) (locate : Location) (f : Player → Player),
      (t.modifyAt locate f).recentWinnerLocate = t.recentWinnerLocate ∧
      (t.modifyAt locate f).recentLoserLocate = t.recentLoserLocate := by
    intro t locate f
    unfold modifyAt
    split <;> exact ⟨rfl, rfl⟩
  unfold capture
  rw [if_pos hwin, (hkeep _ _ _).1, (hkeep _ _ _).1, (hkeep _ _ _).2,
    (hkeep _ _ _).2]
  exact ⟨rfl, rfl⟩

theorem recent_move {t : Table} {m : MoveChess} (hwin : m.isWinner = true) :
    (t.move m).recentWinnerLocate = m.srcLocate ∧
      (t.move m).recentLoserLocate = m.targetLocate := by
  unfold move
  dsimp only
  split
  · exact recent_capture hwin
  · have h := recent_capture (t := t) hwin
    unfold modifyAt
    split <;> exact h

theorem players_undo {t : Table} (h : t.recentWinnerLocate ≠ locationMax)
    (seat : Seat) :
    t.undo.players seat = (t.players seat).map
      (restored t.recentWinnerLocate t.recentLoserLocate seat) := by
  unfold undo restored
  rw [if_pos h, players_modifyAt, players_modifyAt]
  cases t.players seat with
  | none => simp
  | some p => split <;> split <;> simp

/-! ## Undoing a capture -/

/-- A capture takes a player out of the game. -/
theorem active_of_captured {t : Table} {m : MoveChess} {target : Seat}
    (hwin : m.isWinner = true) (htarget : m.targetLocate = target.location)
    (hplaying : t.isPlaying target = true) :
    (t.capture m).active + 1 = t.active := by
  have hseat : ∀ seat, (t.capture m).isPlaying seat =
      (t.isPlaying seat && !decide (target = seat)) := by
    intro seat
    rw [isPlaying_capture, hwin, htarget, Bool.true_and]
    by_cases heq : target = seat
    · simp [heq]
    · simp [location_eq_iff, heq]
  rw [active_eq, active_eq, hseat, hseat, hseat]
  cases target with
  | left => simp [hplaying]; omega
  | right => simp [hplaying]; omega
  | bottom => simp [hplaying]

/-- Capture and undo cancel out for everybody at the table if and only if
the mover did not end the game. -/
theorem undo_move_iff {t : Table} {m : MoveChess} {source target : Seat}
    (hwin : m.isWinner = true) (hsrc : m.srcLocate = source.location)
    (htarget : m.targetLocate = target.location) (hne : source ≠ target)
    (hsource : t.isPlaying source = true)
    (hplaying : t.isPlaying target = true) :
    (t.move m).undo.players = t.players ↔ t.active = 3 := by
  have hactive := active_of_captured hwin htarget hplaying
  have hle := count_le_three t (· == .playing)
  have hmax : (t.move m).recentWinnerLocate ≠ locationMax := by
    rw [(recent_move hwin).1, hsrc]
    exact source.location_ne_max
  have hseat : ∀ seat, (t.move m).undo.players seat =
      (t.players seat).map fun p => restored m.srcLocate m.targetLocate seat
        (if 1 < (t.capture m).active ∨ m.srcLocate ≠ seat.location then
          captured m seat p else setStatus .ended (captured m seat p)) := by
    intro seat
    rw [players_undo hmax, (recent_move hwin).1, (recent_move hwin).2,
      players_move hwin, Option.map_map]
    rfl
  constructor
  · intro hundone
    -- the mover is still PLAYING, so somebody else was left in the game
    obtain ⟨p, hp, hstatus⟩ := isPlaying_player hsource
    have hself := hseat source
    rw [hundone, hp, Option.map_some, Option.some.injEq] at hself
    have hmany : 1 < (t.capture m).active := by
      by_contra hfew
      have hended := congrArg Player.status hself
      simp [hfew, hsrc, htarget, restored, location_eq_iff, hne.symm, hstatus,
        lose] at hended
    show t.active = 3
    have : t.active ≤ 3 := hle
    omega
  · intro hthree
    have hmany : 1 < (t.capture m).active := by omega
    funext seat
    rw [hseat seat]
    cases hp : t.players seat with
    | none => rfl
    | some p =>
        rw [Option.map_some, Option.some.injEq, if_pos (Or.inl hmany), hsrc,
          htarget]
        unfold restored captured
        rw [hsrc, htarget]
        by_cases ha : source = seat
        · subst ha
          simp [location_eq_iff, hne.symm, lose_gain]
        · by_cases hc : target = seat
          · subst hc
            have hstatus : p.status = .playing := by
              rw [isPlaying, passes_eq, hp, Option.any_some] at hplaying
              simpa using hplaying
            have hback : setStatus .playing
                (gain 10 (setStatus .ended (lose 10 p))) = p := by
              rw [← hstatus]
              exact gain_lose 10 p
            simp [location_eq_iff, ha, hback]
          · simp [location_eq_iff, ha, hc]

/-! ## All or nothing -/

/-- The score on a chair, as a number; nobody has no points. -/
def points (t : Table) (seat : Seat) : Nat :=
  ((t.players seat).map (·.score.toNat)).getD 0

/-- The sum of the scores at the table. -/
def bank (t : Table) : Nat :=
  t.points .left + t.points .right + t.points .bottom

/-- Ten points have moved from one player to another, whose game is over. -/
structure Captured (t t' : Table) (source target : Seat) : Prop where
  distinct : source ≠ target
  winner : t.isPlaying source = true
  loser : t.isPlaying target = true
  gained : t'.points source = t.points source + 10
  lost : t'.points target + 10 = t.points target
  ended : t'.status target = some .ended
  bank : t'.bank = t.bank

/-- No score and no status has changed, and no capture was remembered. -/
structure Untouched (t t' : Table) : Prop where
  players : t'.players = t.players
  winner : t'.recentWinnerLocate = t.recentWinnerLocate
  loser : t'.recentLoserLocate = t.recentLoserLocate

/-- A capture that happened as a whole or not at all. -/
def AllOrNothing (t : Table) (m : MoveChess) (t' : Table) : Prop :=
  (∃ source target, m.srcLocate = Seat.location source ∧
    m.targetLocate = Seat.location target ∧ t.Captured t' source target) ∨
  t.Untouched t'

/-- One player captures another who has the points, and can take them. -/
def Fits (t : Table) (m : MoveChess) : Prop :=
  ∃ source target, m.srcLocate = Seat.location source ∧
    m.targetLocate = Seat.location target ∧ source ≠ target ∧
    t.isPlaying source = true ∧ t.isPlaying target = true ∧
    10 ≤ t.points target ∧ t.points source + 10 < 2 ^ 32

/-- Somebody whose game is over captures itself once more. -/
def Repeats (t : Table) (m : MoveChess) : Prop :=
  ∃ seat, m.srcLocate = Seat.location seat ∧
    m.targetLocate = Seat.location seat ∧ t.status seat = some .ended ∧
    t.recentWinnerLocate = Seat.location seat ∧
    t.recentLoserLocate = Seat.location seat

/-- Points are added as numbers are, below the wrap-around. -/
theorem toNat_add_points {score points : UInt32} :
    (score + points).toNat = score.toNat + points.toNat ↔
      score.toNat + points.toNat < 2 ^ 32 := by
  have hlt := score.toNat_lt
  have hpoints := points.toNat_lt
  rw [UInt32.toNat_add]
  omega

/-- They are taken as numbers are, as long as they are there. -/
theorem toNat_sub_points {score points : UInt32} :
    (score - points).toNat + points.toNat = score.toNat ↔
      points.toNat ≤ score.toNat := by
  have hlt := score.toNat_lt
  have hpoints := points.toNat_lt
  rw [UInt32.toNat_sub]
  omega

theorem toNat_add_ten {score : UInt32} :
    (score + 10).toNat = score.toNat + 10 ↔ score.toNat + 10 < 2 ^ 32 :=
  toNat_add_points

theorem toNat_sub_ten {score : UInt32} :
    (score - 10).toNat + 10 = score.toNat ↔ 10 ≤ score.toNat :=
  toNat_sub_points

theorem ne_add_ten (score : UInt32) : score + 10 ≠ score := by
  intro h
  have hnat := congrArg UInt32.toNat h
  have hlt := score.toNat_lt
  rw [UInt32.toNat_add, show (10 : UInt32).toNat = 10 from rfl] at hnat
  omega

/-- The scores after one chair captures another. -/
theorem points_move {t : Table} {m : MoveChess} {source target : Seat}
    {p q : Player} (hwin : m.isWinner = true)
    (hsrc : m.srcLocate = source.location)
    (htarget : m.targetLocate = target.location) (hne : source ≠ target)
    (hp : t.players source = some p) (hq : t.players target = some q) :
    (t.move m).points source = (p.score + 10).toNat ∧
      (t.move m).points target = (q.score - 10).toNat ∧
      (t.move m).status target = some .ended ∧
      ∀ seat, seat ≠ source → seat ≠ target →
        (t.move m).points seat = t.points seat := by
  refine ⟨?_, ?_, ?_, ?_⟩
  · unfold points
    rw [players_move hwin, hp]
    simp only [Option.map_some, Option.getD_some]
    split <;>
      simp [captured, hsrc, htarget, location_eq_iff, hne.symm, gain, setStatus]
  · unfold points
    rw [players_move hwin, hq]
    simp [captured, hsrc, htarget, location_eq_iff, hne, lose, setStatus]
  · unfold status
    rw [players_move hwin, hq]
    simp [captured, hsrc, htarget, location_eq_iff, hne]
  · intro seat hs ht
    unfold points
    rw [players_move hwin]
    cases t.players seat with
    | none => rfl
    | some r =>
        simp [captured, hsrc, htarget, location_eq_iff, hs.symm, ht.symm]

/-- The bank is the points of two chairs and of the third. -/
theorem bank_eq {source target : Seat} (hne : source ≠ target) :
    ∃ third, third ≠ source ∧ third ≠ target ∧
      ∀ t : Table, t.bank = t.points source + t.points target +
        t.points third := by
  cases source <;> cases target <;> first
    | exact absurd rfl hne
    | exact ⟨.left, by decide, by decide, fun t => by unfold bank; omega⟩
    | exact ⟨.right, by decide, by decide, fun t => by unfold bank; omega⟩
    | exact ⟨.bottom, by decide, by decide, fun t => by unfold bank; omega⟩

/-- A capture by somebody at the table happens as a whole or not at all
exactly when it fits, or when nothing is left to change. -/
theorem allOrNothing_move {t : Table} {m : MoveChess} {source : Seat}
    {p : Player} (hwin : m.isWinner = true)
    (hsrc : m.srcLocate = source.location)
    (hp : t.players source = some p) :
    t.AllOrNothing m (t.move m) ↔ t.Fits m ∨ t.Repeats m := by
  constructor
  · rintro (⟨source', target, hsrc', htarget, hcap⟩ | hsame)
    · obtain rfl : source = source' :=
        Seat.location_injective (hsrc.symm.trans hsrc')
      obtain ⟨q, hq, _⟩ := isPlaying_player hcap.loser
      obtain ⟨hgain, hlose, _, _⟩ := points_move hwin hsrc htarget
        hcap.distinct hp hq
      have hsource : t.points source = p.score.toNat := by simp [points, hp]
      have htaken : t.points target = q.score.toNat := by simp [points, hq]
      have hgained := hcap.gained
      have hlost := hcap.lost
      rw [hgain, hsource, toNat_add_ten] at hgained
      rw [hlose, htaken, toNat_sub_ten] at hlost
      exact Or.inl ⟨source, target, hsrc, htarget, hcap.distinct, hcap.winner,
        hcap.loser, htaken ▸ hlost, hsource ▸ hgained⟩
    · -- only the source's own chair can give back what it took
      have hself := congrFun hsame.players source
      rw [players_move hwin, hp, Option.map_some, Option.some.injEq] at hself
      have htarget : m.targetLocate = source.location := by
        by_contra hother
        refine ne_add_ten p.score (Eq.trans ?_ (congrArg Player.score hself))
        split <;> simp [captured, hsrc, hother, gain, setStatus]
      have hended : p.status = .ended := by
        refine Eq.trans (congrArg Player.status hself).symm ?_
        split <;> simp [captured, htarget]
      refine Or.inr ⟨source, hsrc, htarget, by simp [status, hp, hended], ?_, ?_⟩
      · rw [← hsame.winner, (recent_move hwin).1, hsrc]
      · rw [← hsame.loser, (recent_move hwin).2, htarget]
  · rintro (⟨source', target, hsrc', htarget, hne, hplays, hplays', hpoints,
      hroom⟩ | ⟨seat, hsrc', htarget, hended, hwinner, hloser⟩)
    · obtain rfl : source = source' :=
        Seat.location_injective (hsrc.symm.trans hsrc')
      obtain ⟨q, hq, _⟩ := isPlaying_player hplays'
      obtain ⟨hgain, hlose, hover, hrest⟩ := points_move hwin hsrc htarget
        hne hp hq
      have hsource : t.points source = p.score.toNat := by simp [points, hp]
      have htaken : t.points target = q.score.toNat := by simp [points, hq]
      have hgained := toNat_add_ten.mpr (hsource ▸ hroom)
      have hlost := toNat_sub_ten.mpr (htaken ▸ hpoints)
      obtain ⟨third, hthird, hthird', hbank⟩ := bank_eq hne
      refine Or.inl ⟨source, target, hsrc, htarget, hne, hplays, hplays',
        by omega, by omega, hover, ?_⟩
      have hkept := hrest third hthird hthird'
      rw [hbank, hbank]
      omega
    · obtain rfl : source = seat :=
        Seat.location_injective (hsrc.symm.trans hsrc')
      refine Or.inr ⟨?_, ?_, ?_⟩
      · funext chair
        rw [players_move hwin]
        cases hr : t.players chair with
        | none => rfl
        | some r =>
            rw [Option.map_some, Option.some.injEq]
            by_cases hc : source = chair
            · subst hc
              have hstatus : r.status = .ended := by
                simpa [status, hr] using hended
              split <;> simp [captured, hsrc, htarget, lose_gain, setStatus,
                ← hstatus]
            · simp [captured, hsrc, htarget, location_eq_iff, hc]
      · rw [(recent_move hwin).1, hsrc, hwinner]
      · rw [(recent_move hwin).2, htarget, hloser]

end Table

end ChessServer
