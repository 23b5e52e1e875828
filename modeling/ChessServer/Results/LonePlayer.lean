import ChessServer.Model.Client
import ChessServer.Model.Chairs
import ChessServer.Proofs.Leaving
import ChessServer.Proofs.Step

/-!
# A lone player

Whoever is left without opponents should have won.  Three kinds of message
leave a single player PLAYING all the same; in runs without them the number
of players PLAYING at a table is never one (`no_lone_player`).
-/

namespace ChessServer

/-! ## At one table -/

/-- Is the player at a location PLAYING? -/
def Table.playingAt (t : Table) (locate : Location) : Bool :=
  (seatAt locate).any t.isPlaying

/-- Is the chair at a location taken? -/
def Table.takenAt (t : Table) (locate : Location) : Bool :=
  (seatAt locate).any fun seat => (t.players seat).isSome

/-- The acts that leave a lone player: with two players PLAYING, a capture of
one of them by anybody but the other, or a ready request for one of them;
with nobody PLAYING, an undo of a capture whose victim's chair is taken. -/
def Act.strands (t : Table) : Act → Bool
  | .move m => m.isWinner && t.active == 2 && t.playingAt m.targetLocate &&
      (m.srcLocate == m.targetLocate || !t.playingAt m.srcLocate)
  | .undo => t.active == 0 && t.recentWinnerLocate != locationMax &&
      t.takenAt t.recentLoserLocate
  | .ready m => t.active == 2 && t.playingAt m.srcUserLocate
  | _ => false

namespace Table

theorem active_modifyAt {f : Player → Player}
    (hf : ∀ p, (f p).status ≠ .playing) (t : Table) (locate : Location) :
    (t.modifyAt locate f).active + (t.playingAt locate).toNat = t.active := by
  unfold modifyAt playingAt
  cases seatAt locate with
  | none => simp
  | some seat => exact active_modify hf t seat

theorem active_modifyAt_keep {f : Player → Player}
    (hf : ∀ p, (f p).status = p.status) (t : Table) (locate : Location) :
    (t.modifyAt locate f).active = t.active := by
  unfold modifyAt
  cases seatAt locate with
  | none => rfl
  | some seat => exact active_modify_keep hf t seat

theorem active_modifyAt_play {f : Player → Player}
    (hf : ∀ p, (f p).status = .playing) (t : Table) (locate : Location) :
    (t.modifyAt locate f).active + (t.playingAt locate).toNat =
      t.active + (t.takenAt locate).toNat := by
  unfold modifyAt playingAt takenAt
  cases seatAt locate with
  | none => simp
  | some seat => exact active_modify_play hf t seat

/-- Who is PLAYING after one player was changed. -/
theorem playingAt_modifyAt {f : Player → Player} (t : Table)
    (locate locate' : Location) (hf : ∀ p, (f p).status ≠ .playing) :
    (t.modifyAt locate f).playingAt locate' =
      (t.playingAt locate' && !(locate == locate')) := by
  unfold modifyAt playingAt
  cases hseat' : seatAt locate' with
  | none => simp
  | some seat' =>
      cases hseat : seatAt locate with
      | none =>
          have hne : locate ≠ locate' := by
            rintro rfl
            rw [hseat] at hseat'
            cases hseat'
          simp [hne]
      | some seat =>
          obtain rfl := seatAt_eq_some_iff.mp hseat
          obtain rfl := seatAt_eq_some_iff.mp hseat'
          simp only [Option.any_some, isPlaying, passes_modify]
          by_cases heq : seat' = seat
          · subst heq
            cases t.players seat' <;> simp [hf]
          · have hne : seat.location ≠ seat'.location := fun h =>
              heq (Seat.location_injective h).symm
            simp [heq, hne]

theorem playingAt_modifyAt_keep {f : Player → Player} (t : Table)
    (locate locate' : Location) (hf : ∀ p, (f p).status = p.status) :
    (t.modifyAt locate f).playingAt locate' = t.playingAt locate' := by
  unfold modifyAt playingAt
  cases seatAt locate with
  | none => rfl
  | some seat =>
      congr 1
      funext seat'
      rw [isPlaying, passes_modify]
      split
      · rename_i heq
        subst heq
        rw [isPlaying, passes_eq]
        simp only [hf]
      · rfl

theorem takenAt_modifyAt (t : Table) (locate locate' : Location)
    (f : Player → Player) :
    (t.modifyAt locate f).takenAt locate' = t.takenAt locate' := by
  unfold takenAt modifyAt
  cases seatAt locate with
  | none => rfl
  | some seat =>
      congr 1
      funext seat'
      by_cases h : seat' = seat
      · subst h
        simp [modify]
      · simp [modify, h]

theorem takenAt_of_playingAt {t : Table} {locate : Location}
    (h : t.playingAt locate = true) : t.takenAt locate = true := by
  unfold playingAt at h
  unfold takenAt
  cases hseat : seatAt locate with
  | none => simp [hseat] at h
  | some seat =>
      simp only [hseat, Option.any_some, isPlaying, passes_eq] at h ⊢
      cases hp : t.players seat with
      | none => simp [hp] at h
      | some p => rfl

theorem active_of_playingAt {t : Table} {locate : Location}
    (h : t.playingAt locate = true) : 0 < t.active := by
  have := active_modifyAt (f := setStatus .ended) (by simp) t locate
  rw [h, Bool.toNat_true] at this
  omega

/-! ### Moves -/

theorem active_capture (t : Table) (m : MoveChess) :
    (t.capture m).active + (m.isWinner && t.playingAt m.targetLocate).toNat =
      t.active := by
  unfold capture
  cases m.isWinner with
  | false =>
      simp only [Bool.false_eq_true, if_false, Bool.false_and, Bool.toNat_false]
      rfl
  | true =>
      simp only [if_true, Bool.true_and]
      have hdrop := active_modifyAt
        (f := fun p => setStatus .ended (lose 10 p)) (by simp)
        ((t.setRecent m.srcLocate m.targetLocate).modifyAt m.srcLocate
          (gain 10)) m.targetLocate
      rw [playingAt_modifyAt_keep _ _ _ (gain_status 10),
        active_modifyAt_keep (gain_status 10)] at hdrop
      exact hdrop

/-- Is the mover still PLAYING after the capture? -/
theorem playingAt_capture (t : Table) (m : MoveChess) :
    (t.capture m).playingAt m.srcLocate =
      (t.playingAt m.srcLocate &&
        !(m.isWinner && m.targetLocate == m.srcLocate)) := by
  unfold capture
  cases m.isWinner with
  | false =>
      simp only [Bool.false_eq_true, if_false, Bool.false_and, Bool.not_false,
        Bool.and_true]
      rfl
  | true =>
      simp only [if_true, Bool.true_and]
      rw [playingAt_modifyAt _ _ _ (by simp),
        playingAt_modifyAt_keep _ _ _ (gain_status 10)]
      rfl

theorem active_move {t : Table} {m : MoveChess} (h : t.active ≠ 1) :
    (t.move m).active = 1 ↔ Act.strands t (.move m) = true := by
  have hcapture := active_capture t m
  have hsrc := playingAt_capture t m
  have hstop := active_modifyAt (f := setStatus .ended) (by simp)
    (t.capture m) m.srcLocate
  unfold move
  dsimp only
  simp only [Act.strands, Bool.and_eq_true, beq_iff_eq, Bool.or_eq_true,
    Bool.not_eq_true']
  cases hwin : m.isWinner with
  | false =>
      rw [hwin] at hcapture hsrc
      simp only [Bool.false_and, Bool.toNat_false, Nat.add_zero] at hcapture
      split <;> simp <;> omega
  | true =>
      rw [hwin] at hcapture hsrc
      cases htarget : t.playingAt m.targetLocate with
      | false =>
          rw [htarget] at hcapture
          simp only [Bool.and_false, Bool.toNat_false, Nat.add_zero] at hcapture
          split <;> simp <;> omega
      | true =>
          rw [htarget] at hcapture
          simp only [Bool.and_self, Bool.toNat_true] at hcapture
          -- the capture leaves the mover PLAYING unless it hit itself
          have hmover : (t.capture m).playingAt m.srcLocate = false ↔
              m.srcLocate = m.targetLocate ∨
                t.playingAt m.srcLocate = false := by
            rw [hsrc]
            by_cases heq : m.targetLocate = m.srcLocate
            · simp [heq]
            · simp [heq, Ne.symm heq]
          rw [← hmover]
          cases hplaying : (t.capture m).playingAt m.srcLocate with
          | false =>
              rw [hplaying] at hstop
              simp only [Bool.toNat_false] at hstop
              split <;> simp <;> omega
          | true =>
              rw [hplaying] at hstop
              simp only [Bool.toNat_true] at hstop
              split <;> simp <;> omega

/-! ### The other acts -/

theorem active_undo {t : Table} (h : t.active ≠ 1) :
    t.undo.active = 1 ↔ Act.strands t .undo = true := by
  unfold undo
  simp only [Act.strands, Bool.and_eq_true, beq_iff_eq, bne_iff_ne]
  split
  · rename_i hrecent
    have hplay := active_modifyAt_play
      (f := fun p => setStatus .playing (gain 10 p)) (fun _ => rfl)
      (t.modifyAt t.recentWinnerLocate (lose 10)) t.recentLoserLocate
    rw [playingAt_modifyAt_keep _ _ _ (lose_status 10),
      active_modifyAt_keep (lose_status 10), takenAt_modifyAt] at hplay
    cases htaken : t.takenAt t.recentLoserLocate with
    | false =>
        have hnot : t.playingAt t.recentLoserLocate = false := by
          by_contra hplaying
          rw [takenAt_of_playingAt (by simpa using hplaying)] at htaken
          cases htaken
        rw [hnot, htaken] at hplay
        simp only [Bool.toNat_false, Nat.add_zero] at hplay
        simp [hplay, h]
    | true =>
        rw [htaken] at hplay
        cases hplaying : t.playingAt t.recentLoserLocate with
        | false =>
            rw [hplaying] at hplay
            simp only [Bool.toNat_false, Bool.toNat_true] at hplay
            simp only [hrecent, ne_eq, not_false_eq_true, and_true]
            omega
        | true =>
            have hpos := active_of_playingAt hplaying
            rw [hplaying] at hplay
            simp only [Bool.toNat_true] at hplay
            simp only [hrecent, ne_eq, not_false_eq_true, and_true]
            omega
  · rename_i hrecent
    simp only [hrecent, false_and, and_false, iff_false]
    exact h

theorem active_chooseTime (t : Table) (m : GameReadyReq) :
    (t.chooseTime m).active = t.active := by
  unfold chooseTime
  split
  · split <;> rfl
  · rfl

/-- With three players BEGAN nobody is PLAYING. -/
theorem active_of_began {t : Table} (h : t.count (· == .began) = 3) :
    t.active = 0 ∧ ∀ seat, (t.players seat).isSome := by
  have hbound : ∀ seat, (t.passes (· == .began) seat).toNat ≤ 1 :=
    fun seat => Bool.toNat_le _
  have hall : ∀ seat, t.passes (· == .began) seat = true := by
    unfold count at h
    have hl := hbound .left
    have hr := hbound .right
    have hb := hbound .bottom
    intro seat
    cases seat
    · cases hp : t.passes (· == .began) .left with
      | true => rfl
      | false => rw [hp] at h; simp at h; omega
    · cases hp : t.passes (· == .began) .right with
      | true => rfl
      | false => rw [hp] at h; simp at h; omega
    · cases hp : t.passes (· == .began) .bottom with
      | true => rfl
      | false => rw [hp] at h; simp at h; omega
  have hseat : ∀ seat, t.isPlaying seat = false ∧ (t.players seat).isSome := by
    intro seat
    have := hall seat
    rw [passes_eq] at this
    rw [isPlaying, passes_eq]
    cases hp : t.players seat with
    | none => simp [hp] at this
    | some p =>
        simp only [hp, Option.any_some, beq_iff_eq] at this
        simp [this]
  exact ⟨by simp [active_eq, hseat], fun seat => (hseat seat).2⟩

theorem active_modifyAll_play {f : Player → Player}
    (hf : ∀ p, (f p).status = .playing) {t : Table}
    (h : ∀ seat, (t.players seat).isSome) : (t.modifyAll f).active = 3 := by
  have hseat : ∀ seat, (t.modifyAll f).isPlaying seat = true := by
    intro seat
    obtain ⟨p, hp⟩ := Option.isSome_iff_exists.mp (h seat)
    simp [isPlaying, passes_modifyAll, hp, hf]
  simp [active_eq, hseat]

theorem active_ready {t : Table} {m : GameReadyReq} (h : t.active ≠ 1) :
    (t.ready m).active = 1 ↔ Act.strands t (.ready m) = true := by
  have hdrop := active_modifyAt (f := setStatus .began) (by simp) t
    m.srcUserLocate
  unfold ready
  dsimp only
  simp only [Act.strands, Bool.and_eq_true, beq_iff_eq]
  split
  · rename_i hbegan
    obtain ⟨hnone, htaken⟩ := active_of_began hbegan
    rw [active_chooseTime] at hnone
    rw [active_modifyAll_play (fun _ => rfl) htaken]
    cases hplaying : t.playingAt m.srcUserLocate with
    | false => simp
    | true =>
        rw [hplaying, Bool.toNat_true] at hdrop
        simp only [and_true]
        omega
  · rw [active_chooseTime]
    cases hplaying : t.playingAt m.srcUserLocate <;>
      simp [hplaying] at hdrop ⊢ <;> omega

theorem active_again (t : Table) (seat : Seat) (began : Bool) :
    (t.again seat began).active = t.active := by
  unfold again
  split
  · rename_i h
    have hdrop := active_modify (f := setStatus .ready) (by simp) t seat
    have hnot : t.isPlaying seat = false := by
      simp [isPlaying, passes, h.2]
    rw [hnot] at hdrop
    exact hdrop
  · rfl

/-- Taking a free chair. -/
theorem active_join {t : Table} {seat : Seat} (h : t.players seat = none)
    (user : SessionId) (score : UInt32) :
    (t.join seat user score).active = t.active := by
  refine count_congr fun seat' => ?_
  have hplayers : (t.join seat user score).players =
      Function.update t.players seat (some ⟨user, .ready, score⟩) := by
    unfold join
    dsimp only
    split <;> rfl
  rw [passes_eq, passes_eq, hplayers]
  by_cases hs : seat' = seat
  · subst hs
    simp [h]
  · rw [Function.update_of_ne hs]

theorem active_reject_ne_one (t : Table) (seat : Seat) :
    (t.reject seat).active ≠ 1 := active_leave_ne_one _ _

end Table

/-- An act leaves a lone player exactly if it is one of the three kinds. -/
theorem Act.apply_active {t : Table} {a : Act} (h : t.active ≠ 1)
    (hjoin : ∀ seat user score, a = .join seat user score →
      t.players seat = none) :
    (a.apply t).active = 1 ↔ a.strands t = true := by
  cases a with
  | join seat user score =>
      have := Table.active_join (hjoin seat user score rfl) user score
      simp [Act.apply, Act.strands, this, h]
  | leave seat =>
      simp [Act.apply, Act.strands, Table.active_leave_ne_one]
  | reject seat =>
      simp [Act.apply, Act.strands, Table.active_reject_ne_one]
  | surrender seat =>
      simp [Act.apply, Act.strands, Table.active_surrender_ne_one]
  | move m => exact Table.active_move h
  | draw => simp [Act.apply, Act.strands, Table.active_endAll]
  | undo => exact Table.active_undo h
  | ready m => exact Table.active_ready h
  | again seat began =>
      simp [Act.apply, Act.strands, Table.active_again, h]

/-! ## At every table, in every run -/

/-- The event's act leaves a lone player at its table. -/
def World.strands (env : Env) (w : World) (e : Event) : Bool :=
  (w.act env e).any fun (b, a) => a.strands (w.table b)

theorem init_active (b : BoardPtr) : (World.init.table b).active = 0 := rfl

/-- No event but one that strands a player leaves a lone one. -/
theorem step_active {env : Env} {e : Event} {w w' : World}
    (hinv : w.layout.Inv) (hactive : ∀ b, (w.table b).active ≠ 1)
    (henabled : e.Enabled w) (hok : w.strands env e = false)
    (hstep : World.step env e w = some w') (b : BoardPtr) :
    (w'.table b).active ≠ 1 := by
  rw [(step_spec hinv henabled hstep).table b]
  unfold World.tableAfter
  cases hact : w.act env e with
  | none => exact hactive b
  | some c =>
      obtain ⟨b', a⟩ := c
      dsimp only
      by_cases hb : b = b'
      · subst hb
        rw [if_pos rfl]
        intro hone
        rw [Act.apply_active (hactive b) fun seat user score ha =>
          act_join_free (ha ▸ hact)] at hone
        simp [World.strands, hact, hone] at hok
      · rw [if_neg hb]
        exact hactive b

/-- In every run without an event that strands a player, `GetActiveUsersNum`
of every board is 0, 2 or 3. -/
theorem no_lone_player {env : Env} {w : World}
    (h : (server env).ReachableWith (fun e w => w.strands env e = false) w)
    (b : BoardPtr) :
    ∃ num, getActiveUsersNum b w = some num ∧
      (num = 0 ∨ num = 2 ∨ num = 3) := by
  have hactive : ∀ b, (w.table b).active ≠ 1 :=
    h.invariant_of (J := fun w => w.layout.Inv)
      (I := fun w => ∀ b, (w.table b).active ≠ 1) reachable_inv
      (fun b => by simp [server, init_active])
      fun hinv hactive henabled hok hstep =>
        step_active hinv hactive henabled hok hstep
  have hinv := reachable_inv h
  refine ⟨_, getActiveUsersNum_completes hinv.connected, ?_⟩
  have hone := hactive b
  have hle : (w.table b).active ≤ 3 := Table.count_le_three _ _
  omega

/-- Three clients start a game. -/
theorem no_lone_player_start :
    ∃ w, (server Client.env).ReachableWith
        (fun e w => w.strands Client.env e = false) w ∧
      (w.table ⟨1, 1⟩).active = 3 ∧
      ∃ num, getActiveUsersNum ⟨1, 1⟩ w = some num ∧ num ≠ 1 := by
  obtain ⟨w, hreach, htest⟩ := Client.reachable_after
    (fun e w => w.strands Client.env e = false) Client.startGame
    (fun w => (w.table ⟨1, 1⟩).active == 3) (by decide +kernel)
  obtain ⟨num, hnum, hcases⟩ := no_lone_player hreach ⟨1, 1⟩
  exact ⟨w, hreach, by simpa using htest, num, hnum, by omega⟩

/-- The left player takes the right one's king, then the bottom player
declares itself ready again in the middle of the game: the left player is
alone, and not the winner. -/
theorem lone_player_after_ready :
    ¬ ∀ w, (server Client.env).Reachable w → ∀ b,
      getActiveUsersNum b w ≠ some 1 := by
  intro hclaim
  obtain ⟨w, hreach, htest⟩ := Client.reachable_after (fun _ _ => True)
    (Client.startGame ++
      [.read 0 (Client.capture .left .right), .read 2 (Client.gameReady .bottom)])
    (fun w => getActiveUsersNum ⟨1, 1⟩ w == some 1)
    (by decide +kernel)
  exact hclaim w hreach ⟨1, 1⟩ (by simpa using htest)

end ChessServer
