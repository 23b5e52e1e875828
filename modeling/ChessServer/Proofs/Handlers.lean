import ChessServer.Model.Acts
import ChessServer.Proofs.Plays

/-!
# The in-game handlers act on one table

Every function that `TranslateMsg` dispatches to is one operation of
`Model.Table` on the board it is called on, and changes nothing else of the
game (`moveChessHandle_plays` and the like).  The exception is a user who exits,
whose place changes too.
-/

namespace ChessServer

/-! ## The last winner -/

/-- A chair plays when its user is PLAYING. -/
theorem Table.isPlaying_iff {t : Table} {seat : Seat} :
    t.isPlaying seat = true ↔
      ∃ p, t.players seat = some p ∧ p.status = .playing := by
  unfold Table.isPlaying Table.passes Table.status
  cases t.players seat with
  | none => simp
  | some p => simp

/-- If one user is PLAYING, there is one such chair. -/
theorem Table.isPlaying_unique {t : Table} (h : t.active = 1) {a b : Seat}
    (ha : t.isPlaying a = true) (hb : t.isPlaying b = true) : a = b := by
  unfold Table.active Table.count at h
  unfold Table.isPlaying at ha hb
  cases a <;> cases b <;>
    first | rfl | (simp only [ha, hb, Bool.toNat_true] at h; omega)

/-- Crowning changes the chair of the only player. -/
theorem Table.crown_eq {t : Table} {seat : Seat} (h : t.active = 1)
    (hseat : t.isPlaying seat = true) :
    t.crown = (t.modify seat (gain 10)).modify seat (setStatus .ended) := by
  obtain ⟨p, hp, hstatus⟩ := isPlaying_iff.mp hseat
  unfold crown
  rw [if_pos h]
  refine Table.ext ?_ rfl rfl rfl rfl rfl
  funext seat'
  by_cases hs : seat' = seat
  · subst hs
    simp [modifyAll, modify, hp, hstatus]
  · simp only [modifyAll, modify, Function.update_of_ne hs]
    cases hq : t.players seat' with
    | none => rfl
    | some q =>
        have hq' : q.status ≠ .playing := fun hplay =>
          hs (isPlaying_unique h (isPlaying_iff.mpr ⟨q, hq, hplay⟩) hseat)
        simp [hq']

/-- The session at a seat, as the table sees it. -/
theorem table_players {w : World} {b : BoardPtr} {seat : Seat}
    {u : SessionId} {s : UserSession}
    (hseat : (w.boards b).seat seat = some u) (hs : w.users u = some s) :
    (w.table b).players seat = some ⟨u, s.status, s.userInfo.score⟩ := by
  simp [World.table, hseat, hs]

/-- The table shows the status of the session. -/
theorem table_isPlaying {w : World} {b : BoardPtr} {seat : Seat}
    {u : SessionId} {s : UserSession}
    (hseat : (w.boards b).seat seat = some u) (hs : w.users u = some s) :
    (w.table b).isPlaying seat = (s.status == .playing) := by
  simp [Table.isPlaying, Table.passes, Table.status, table_players hseat hs]

/-- `LastWinner` crowns the only player left. -/
theorem lastWinner_plays {env : Env} {b : BoardPtr} {u u' : SessionId}
    {w w' : World} (hdistinct : w.layout.Distinct)
    (h : lastWinner env b u w = some (u', w')) :
    Plays b w w' (w.table b).crown := by
  simp only [lastWinner, Option.bind_eq_bind, Option.bind_eq_some_iff] at h
  obtain ⟨num, hnum, h⟩ := h
  have hactive := getActiveUsersNum_eq hnum
  split at h
  · rename_i hone
    rw [hactive] at hone
    simp only [Option.bind_eq_some_iff] at h
    obtain ⟨active, hactive, winner, rfl, s, hs, h⟩ := h
    obtain ⟨seat, hseat, hplaying⟩ := getOnlyActiveUser_eq_some hactive
    rw [if_pos (by simpa [table_isPlaying hseat hs] using hplaying)] at h
    simp only [Option.bind_eq_some_iff] at h
    obtain ⟨w₁, hscore, w₂, hstatus, h⟩ := h
    cases h
    have p₁ := increaseScore_plays hdistinct hseat hscore
    have p₂ := setStatus_plays _ (p₁.distinct hdistinct)
      (by rwa [p₁.seats]) hstatus
    refine (p₁.trans p₂).congr ?_
    rw [p₁.table, Table.crown_eq hone hplaying]
  · rename_i hone
    rw [hactive] at hone
    cases h
    refine (Plays.refl b w).congr ?_
    rw [Table.crown, if_neg hone]

/-! ## Leaving -/

/-- What `LeaveRoomHandle` does after the leaver's own part. -/
theorem leaveRest_plays {env : Env} {b : BoardPtr} {u u' : SessionId}
    {endGame : Bool} {type type' : MessageType} {body body' : Payload}
    {filter filter' : UInt32} {hall : Prop} [Decidable hall]
    {w w₁ w₂ w₃ w₄ w' : World} (hdistinct : w.layout.Distinct)
    (hgiveUp : broadCastMsg env b type body filter w = some w₁)
    (hwinner : lastWinner env b u w₁ = some (u', w₂))
    (hend : (if endGame then endAllUsers b w₂ else some w₂) = some w₃)
    (hboard : broadCastMsg env b type' body' filter' w₃ = some w₄)
    (hhall : (if hall then broadCastHallInfo env b u' w₄ else some w₄) =
      some w') :
    Plays b w w' (if endGame then (w.table b).crown.endAll
      else (w.table b).crown) := by
  have p₁ := (broadCastMsg_notified hgiveUp).plays b
  have p₂ := lastWinner_plays (p₁.distinct hdistinct) hwinner
  have p₃ : Plays b w₂ w₃ (if endGame then (w₂.table b).endAll
      else w₂.table b) := by
    cases endGame with
    | true => exact endAllUsers_plays ((p₁.trans p₂).distinct hdistinct) hend
    | false =>
        cases hend
        exact Plays.refl b w₂
  have n₄ : Notified w₃ w' := by
    refine (broadCastMsg_notified hboard).trans ?_
    split at hhall
    · exact broadCastHallInfo_notified hhall
    · cases hhall
      exact Notified.refl w₄
  refine (((p₁.trans p₂).trans p₃).notified n₄).congr ?_
  rw [p₂.table, p₁.table]

/-- Leaving a running game costs 30 points. -/
theorem leavePenalty_plays {env : Env} {b : BoardPtr} {seat : Seat}
    {u : SessionId} {endGame : Bool} {w w' : World}
    (hdistinct : w.layout.Distinct) (hseat : (w.boards b).seat seat = some u)
    (h : leavePenalty env u endGame w = some w') :
    Plays b w w' (if endGame then (w.table b).modify seat (Table.lose 30)
      else w.table b) := by
  unfold leavePenalty at h
  cases endGame with
  | true => exact reduceScore_plays hdistinct hseat h
  | false =>
      cases h
      exact Plays.refl b w

/-- Two changes of one chair are one. -/
theorem Table.modify_modify (t : Table) (seat : Seat)
    (f g : Player → Player) :
    (t.modify seat f).modify seat g = t.modify seat fun p => g (f p) := by
  refine Table.ext ?_ rfl rfl rfl rfl rfl
  simp [Table.modify, Function.comp_def]

/-- Giving up without leaving. -/
theorem surrender_plays {env : Env} {b : BoardPtr} {seat : Seat}
    {u : SessionId} {w w' : World} (hdistinct : w.layout.Distinct)
    (hseat : (w.boards b).seat seat = some u)
    (h : leaveRoomHandle env b u false w = some w') :
    Plays b w w' ((w.table b).surrender seat) := by
  simp only [leaveRoomHandle, Option.bind_eq_bind,
    Option.bind_eq_some_iff] at h
  obtain ⟨s, hs, w₁, hpenalty, w₂, hleave, w₃, hgiveUp, ⟨u', w₄⟩, hwinner,
    w₅, hend, info, _, w₆, hboard, hhall⟩ := h
  have p₁ := leavePenalty_plays hdistinct hseat hpenalty
  have p₂ := setStatus_plays _ (p₁.distinct hdistinct)
    (by rwa [p₁.seats]) hleave
  have p₃ := leaveRest_plays ((p₁.trans p₂).distinct hdistinct) hgiveUp
    hwinner hend hboard hhall
  refine ((p₁.trans p₂).trans p₃).congr ?_
  rw [p₂.table, p₁.table, Table.surrender, table_isPlaying hseat hs]
  cases s.status == .playing with
  | true => simp [Table.modify_modify]
  | false => simp

/-- Nothing is left on a chair of what was changed there. -/
theorem Table.vacate_modify (t : Table) (seat : Seat) (f : Player → Player) :
    (t.modify seat f).vacate seat = t.vacate seat := by
  refine Table.ext ?_ rfl rfl rfl rfl rfl
  simp [Table.modify, Table.vacate]

/-- Only board `b` changed: the session on `seat` left it, and the table is
now `t`. -/
structure Leaves (b : BoardPtr) (seat : Seat) (w w' : World) (t : Table) :
    Prop where
  layout : w'.layout = w.layout.vacate b seat
  outside : ∀ v, (∀ seat, (w.boards b).seat seat ≠ some v) →
    w'.users v = w.users v
  others : ∀ c, c ≠ b → w'.boards c = w.boards c
  table : w'.table b = t

/-- A play after a departure is part of it, -/
theorem Leaves.plays {b : BoardPtr} {seat : Seat} {w₁ w₂ w₃ : World}
    {t₂ t₃ : Table} (h₁ : Leaves b seat w₁ w₂ t₂) (h₂ : Plays b w₂ w₃ t₃) :
    Leaves b seat w₁ w₃ t₃ where
  layout := h₂.layout.trans h₁.layout
  outside := by
    intro v hv
    rw [h₂.outside v, h₁.outside v hv]
    intro seat' hv'
    have hseats : (w₂.boards b).seat =
        Function.update (w₁.boards b).seat seat none := by
      have := congrFun (congrArg Layout.seats h₁.layout) b
      rwa [Layout.vacate, Layout.setSeat_self] at this
    rw [hseats] at hv'
    by_cases hs : seat' = seat
    · subst hs
      simp at hv'
    · rw [Function.update_of_ne hs] at hv'
      exact hv seat' hv'
  others := fun c hc => (h₂.others c hc).trans (h₁.others c hc)
  table := h₂.table

/-- and so is one before it. -/
theorem Plays.leaves {b : BoardPtr} {seat : Seat} {w₁ w₂ w₃ : World}
    {t₂ t₃ : Table} (h₁ : Plays b w₁ w₂ t₂) (h₂ : Leaves b seat w₂ w₃ t₃) :
    Leaves b seat w₁ w₃ t₃ where
  layout := by rw [h₂.layout, h₁.layout]
  outside := by
    intro v hv
    rw [h₂.outside v (by rwa [h₁.seats b]), h₁.outside v hv]
  others := fun c hc => (h₂.others c hc).trans (h₁.others c hc)
  table := h₂.table

theorem Leaves.congr {b : BoardPtr} {seat : Seat} {w w' : World}
    {t t' : Table} (h : Leaves b seat w w' t) (ht : t = t') :
    Leaves b seat w w' t' := ht ▸ h

theorem setSeat_seat (board : ChessBoard) (seat : Seat)
    (user : Option SessionId) :
    (board.setSeat seat user).seat =
      Function.update board.seat seat user := by
  funext seat'
  cases seat <;> cases seat' <;> rfl

/-- `LeaveOutRoom` of a session that does sit there. -/
theorem leaveOutRoom_leaves {b : BoardPtr} {seat : Seat} {u : SessionId}
    {s : UserSession} {w w' : World} (hseating : w.layout.Seating)
    (hseat : (w.boards b).seat seat = some u) (hs : w.users u = some s)
    (hlocate : s.locate = seat.location)
    (h : leaveOutRoom b u w = some w') :
    Leaves b seat w w' ((w.table b).vacate seat) := by
  simp only [leaveOutRoom, hs, Option.bind_eq_bind, Option.bind_some,
    hlocate, Option.some.injEq] at h
  subst h
  have hpos : (w.boards b).currUserNum > 0 := by
    have hcount := hseating.count b
    have hone : 1 ≤ occupied (w.layout.seats b) := by
      unfold occupied
      have hsome : ((w.layout.seats b) seat).isSome = true := by
        simp [World.layout, hseat]
      cases seat <;> simp [hsome] <;> omega
    have hlt : 0 < ((w.boards b).currUserNum).toNat := by
      have heq : (w.layout.num b).toNat = ((w.boards b).currUserNum).toNat := rfl
      omega
    exact UInt32.lt_iff_toNat_lt.mpr (by simpa using hlt)
  have hboard : ((w.boards b).leaveOutRoom seat.location).2 =
      { (w.boards b).setSeat seat none with
        currUserNum := (w.boards b).currUserNum - 1
        firstComeUserLocate :=
          if seat.location = (w.boards b).firstComeUserLocate then locationMax
          else (w.boards b).firstComeUserLocate } := by
    have hfirst : ((w.boards b).setSeat seat none).firstComeUserLocate =
        (w.boards b).firstComeUserLocate := by cases seat <;> rfl
    simp only [ChessBoard.leaveOutRoom, hpos, if_true, seatAt_location, hseat,
      reduceCtorEq, if_false, hfirst]
    split <;> simp_all
  have hseats : ((w.boards b).leaveOutRoom seat.location).2.seat =
      Function.update (w.boards b).seat seat none := by
    rw [hboard, ← setSeat_seat]
    cases seat <;> funext seat' <;> cases seat' <;> rfl
  exact
    { layout := by
        have hall : ∀ c, ((w.modifyBoard b fun board =>
            (board.leaveOutRoom seat.location).2).boards c).seat =
            (w.layout.vacate b seat).seats c ∧
            ((w.modifyBoard b fun board =>
            (board.leaveOutRoom seat.location).2).boards c).currUserNum =
            (w.layout.vacate b seat).num c := by
          intro c
          by_cases hc : c = b
          · subst hc
            rw [Layout.vacate, Layout.setSeat_self]
            refine ⟨by simp [World.modifyBoard, hseats, World.layout], ?_⟩
            simp [World.modifyBoard, hboard, Layout.setSeat, World.layout]
          · rw [Layout.vacate, Layout.setSeat_other hc]
            simp [World.modifyBoard, hc, Layout.setSeat, World.layout]
        simp only [World.layout, (hall _).1, (hall _).2]
        rfl
      outside := fun _ _ => rfl
      others := fun c hc => by simp [World.modifyBoard, hc]
      table := by
        have hplain : ((w.boards b).setSeat seat none).totalTime =
            (w.boards b).totalTime ∧
            ((w.boards b).setSeat seat none).singleStepTime =
            (w.boards b).singleStepTime ∧
            ((w.boards b).setSeat seat none).recentWinnerLocate =
            (w.boards b).recentWinnerLocate ∧
            ((w.boards b).setSeat seat none).recentLoserLocate =
            (w.boards b).recentLoserLocate := by
          cases seat <;> exact ⟨rfl, rfl, rfl, rfl⟩
        refine Table.ext ?_ ?_ ?_ ?_ ?_ ?_
        · funext seat'
          by_cases hs' : seat' = seat
          · subst hs'
            simp [World.table, World.modifyBoard, hseats, Table.vacate]
          · simp [World.table, World.modifyBoard, hseats, Table.vacate, hs']
        · simp only [World.table, World.modifyBoard, hboard, Table.vacate,
            Function.update_self]
          rfl
        all_goals simp [World.table, World.modifyBoard, hboard, Table.vacate,
          hplain] }

/-- The score of a session that leaves its board. -/
def UserSession.scoreAfter (s : UserSession) : UInt32 :=
  if s.status = .playing then s.userInfo.score - 30 else s.userInfo.score

/-- The score that a session leaves with. -/
theorem leavePenalty_score {env : Env} {u : SessionId} {s : UserSession}
    {w w' : World} (hs : w.users u = some s)
    (h : leavePenalty env u (s.status == .playing) w = some w') :
    ∃ s', w'.users u = some s' ∧ s'.userInfo.score = s.scoreAfter := by
  unfold leavePenalty at h
  unfold UserSession.scoreAfter
  split at h
  · rename_i hplay
    simp only [reduceScore, hs, Option.bind_eq_bind, Option.bind_some,
      Option.bind_eq_some_iff] at h
    obtain ⟨_, _, h⟩ := h
    cases h
    rw [if_pos (by simpa using hplay)]
    exact ⟨_, Function.update_self u _ _, rfl⟩
  · rename_i hplay
    cases h
    rw [if_neg (by simpa using hplay)]
    exact ⟨s, hs, rfl⟩

/-- Nobody sits on a chair that was left. -/
theorem Leaves.nowhere {b : BoardPtr} {seat : Seat} {u : SessionId}
    {w w' : World} {t : Table} (hdistinct : w.layout.Distinct)
    (hseat : (w.boards b).seat seat = some u) (h : Leaves b seat w w' t)
    (seat' : Seat) : (w'.boards b).seat seat' ≠ some u := by
  intro hu
  have hseats := congrFun (congrArg Layout.seats h.layout) b
  rw [Layout.vacate, Layout.setSeat_self] at hseats
  have hu' := (congrFun hseats seat').symm.trans hu
  by_cases hs : seat' = seat
  · subst hs
    rw [Function.update_self] at hu'
    cases hu'
  · rw [Function.update_of_ne hs] at hu'
    exact hs (hdistinct (b := b) hu' hseat)

/-- Leaving for good. -/
theorem leaveRoomHandle_leaves {env : Env} {b : BoardPtr} {seat : Seat}
    {u : SessionId} {w w' : World} (hseating : w.layout.Seating)
    (hseat : (w.boards b).seat seat = some u)
    (h : leaveRoomHandle env b u true w = some w') :
    Leaves b seat w w' ((w.table b).leave seat) ∧
      ∀ s, w.users u = some s → ∃ s', w'.users u = some s' ∧
        s'.userInfo.score = s.scoreAfter := by
  simp only [leaveRoomHandle, Option.bind_eq_bind,
    Option.bind_eq_some_iff] at h
  obtain ⟨s, hs, w₁, hpenalty, w₂, hleave, w₃, hgiveUp, ⟨u', w₄⟩, hwinner,
    w₅, hend, info, _, w₆, hboard, hhall⟩ := h
  simp only [leaveSeat, if_true, Option.bind_eq_bind,
    Option.bind_eq_some_iff] at hleave
  obtain ⟨wx, hexit, hleave⟩ := hleave
  have p₁ := leavePenalty_plays hseating.distinct hseat hpenalty
  have p₂ := setStatus_plays _ (p₁.distinct hseating.distinct)
    (by rwa [p₁.seats]) hexit
  have p := p₁.trans p₂
  have hseating' : wx.layout.Seating := p.layout ▸ hseating
  have hseat' : (wx.boards b).seat seat = some u := by rwa [p.seats]
  obtain ⟨q, hq, _, hlocate⟩ := hseating'.seated hseat'
  simp only [World.layout, Option.map_eq_some_iff] at hq
  obtain ⟨sx, hsx, rfl⟩ := hq
  have l₂ := p.leaves (leaveOutRoom_leaves hseating' hseat' hsx hlocate hleave)
  have hdistinct : w₂.layout.Distinct := by
    rw [l₂.layout]
    exact Layout.Distinct.vacate hseating.distinct b seat
  have p₃ := leaveRest_plays hdistinct hgiveUp hwinner hend hboard hhall
  refine ⟨(l₂.plays p₃).congr ?_, fun s₀ hs₀ => ?_⟩
  · rw [l₂.table, p₂.table, p₁.table, Table.leave, table_isPlaying hseat hs,
      Table.vacate_modify]
    cases s.status == .playing with
    | true => simp only [if_true, Table.vacate_modify]
    | false => rfl
  · rw [hs] at hs₀
    cases hs₀
    obtain ⟨s₁, hs₁, hscore⟩ := leavePenalty_score hs hpenalty
    rw [World.modifyUser, hs₁, Option.map_some, Option.some.injEq] at hexit
    subst hexit
    have hleft : w₂.users u = some { s₁ with status := .exited } := by
      simp only [leaveOutRoom, Option.bind_eq_bind,
        Option.bind_eq_some_iff] at hleave
      obtain ⟨_, _, hleave⟩ := hleave
      cases hleave
      exact Function.update_self u _ _
    refine ⟨_, (p₃.outside u ?_).trans hleft, hscore⟩
    exact l₂.nowhere hseating.distinct hseat

/-! ## Moves -/

@[simp] theorem Table.modifyAt_location (t : Table) (seat : Seat)
    (f : Player → Player) : t.modifyAt seat.location f = t.modify seat f := by
  simp [Table.modifyAt]

/-- Nobody sits where the location points, if anywhere. -/
theorem Table.modifyAt_of_nobody {w : World} {b : BoardPtr}
    {locate : Location} (h : (w.boards b).getUserByLocation locate = none)
    (f : Player → Player) :
    (w.table b).modifyAt locate f = w.table b := by
  unfold Table.modifyAt
  cases hseat : seatAt locate with
  | none => rfl
  | some seat =>
      obtain rfl := seatAt_eq_some_iff.mp hseat
      rw [getUserByLocation_location] at h
      exact Table.modify_of_none (by simp [World.table, h]) f

/-- What a capture does to the table. -/
theorem moveCapture_plays {env : Env} {b : BoardPtr} {m : MoveChess}
    {w w' : World} (hdistinct : w.layout.Distinct)
    (h : moveCapture env b m w = some w') :
    Plays b w w' ((w.table b).capture m) := by
  unfold moveCapture at h
  unfold Table.capture
  split at h
  · rename_i hwin
    simp only [Option.bind_eq_bind, Option.bind_eq_some_iff] at h
    obtain ⟨src, hsrc, w₁, hgain, h⟩ := h
    have p₀ := setRecent_plays w b m.srcLocate m.targetLocate
    obtain ⟨seat, hlocate, hseat⟩ := getUserByLocation_eq_some hsrc
    have p₁ := increaseScore_plays (p₀.distinct hdistinct) hseat hgain
    rw [p₀.table] at p₁
    have p := p₀.trans p₁
    rw [if_pos hwin]
    nth_rewrite 2 [hlocate]
    rw [Table.modifyAt_location]
    split at h
    · rename_i tar htar
      obtain ⟨seat', hlocate', hseat'⟩ := getUserByLocation_eq_some htar
      simp only [Option.bind_eq_some_iff] at h
      obtain ⟨w₂, hlose, h⟩ := h
      have p₂ := reduceScore_plays (p.distinct hdistinct) hseat' hlose
      have p₃ := setStatus_plays _ ((p.trans p₂).distinct hdistinct)
        (by rwa [p₂.seats]) h
      refine ((p.trans p₂).trans p₃).congr ?_
      nth_rewrite 2 [hlocate']
      rw [Table.modifyAt_location, p₂.table, p₁.table, Table.modify_modify]
    · rename_i htar
      cases h
      refine p.congr ?_
      have hkeep := Table.modifyAt_of_nobody htar
        fun q => Table.setStatus .ended (Table.lose 10 q)
      rw [p₁.table] at hkeep
      exact hkeep.symm
  · rename_i hwin
    cases h
    rw [if_neg hwin]
    exact setRecent_plays w b locationMax locationMax

/-- Ending the mover's game when nobody else is left to play. -/
theorem moveToken_plays {b : BoardPtr} {seat : Seat} {u : SessionId}
    {locate : Location} {token : Option UInt32} {w w' : World}
    (hdistinct : w.layout.Distinct) (hseat : (w.boards b).seat seat = some u)
    (h : moveToken b u locate w = some (token, w')) :
    Plays b w w' (if (w.table b).active > 1 then w.table b
      else (w.table b).modify seat (Table.setStatus .ended)) := by
  simp only [moveToken, Option.bind_eq_bind, Option.bind_eq_some_iff] at h
  obtain ⟨num, hnum, h⟩ := h
  rw [← getActiveUsersNum_eq hnum]
  split at h
  · rename_i hmany
    simp only [Option.bind_eq_some_iff] at h
    obtain ⟨_, _, h⟩ := h
    cases h
    rw [if_pos hmany]
    exact Plays.refl b w
  · rename_i hmany
    simp only [Option.bind_eq_some_iff] at h
    obtain ⟨w₁, hstatus, h⟩ := h
    cases h
    rw [if_neg hmany]
    exact setStatus_plays _ hdistinct hseat hstatus

/-- A move is a play of the table, by somebody on a chair. -/
theorem moveChessHandle_plays {env : Env} {b : BoardPtr} {msg : Bytes}
    {m : MoveChess} {ret : Bool} {w w' : World}
    (hdistinct : w.layout.Distinct) (hmsg : env.proto.moveChess msg = some m)
    (h : moveChessHandle env b msg w = some (ret, w')) :
    ret = true ∧ Plays b w w' ((w.table b).move m) ∧
      ∃ seat : Seat, m.srcLocate = seat.location ∧
        (w.boards b).seat seat ≠ none := by
  simp only [moveChessHandle, hmsg, Option.bind_eq_bind,
    Option.bind_eq_some_iff] at h
  obtain ⟨w₁, hcapture, src, hsrc, s, _, ⟨token, w₂⟩, htoken, w₃, hannounce,
    h⟩ := h
  obtain ⟨seat, hlocate, hseat⟩ := getUserByLocation_eq_some hsrc
  have p₁ := moveCapture_plays hdistinct hcapture
  have p₂ := moveToken_plays (p₁.distinct hdistinct)
    (by rwa [p₁.seats]) htoken
  have hn : ret = true ∧ Notified w₃ w' := by
    split at h
    · simp only [Option.bind_eq_some_iff] at h
      obtain ⟨info, _, w₄, hboard, h⟩ := h
      cases h
      exact ⟨rfl, broadCastMsg_notified hboard⟩
    · cases h
      exact ⟨rfl, Notified.refl w'⟩
  refine ⟨hn.1, ?_, seat, hlocate, by simp [hseat]⟩
  refine ((p₁.trans p₂).notified
    ((broadCastMsg_notified hannounce).trans hn.2)).congr ?_
  rw [Table.move, p₁.table, hlocate, Table.modifyAt_location]

/-! ## Chat, draws and undo -/

/-- Chat changes nothing at the table. -/
theorem userMessageHandle_plays {env : Env} {b : BoardPtr} {msg : Bytes}
    {ret : Bool} {w w' : World}
    (h : userMessageHandle env b msg w = some (ret, w')) :
    ret = true ∧ Notified w w' := by
  unfold userMessageHandle at h
  split at h
  · cases h
    exact ⟨rfl, Notified.refl w⟩
  · simp only [Option.bind_eq_bind, Option.bind_eq_some_iff] at h
    obtain ⟨w₁, hsend, h⟩ := h
    cases h
    exact ⟨rfl, broadCastMsg_notified hsend⟩

/-- A draw that is agreed to ends the game for all. -/
theorem reconciledHandle_plays {env : Env} {b : BoardPtr} {msg : Bytes}
    {type : MessageType} {peace : Reconciled} {ret : Bool} {w w' : World}
    (hdistinct : w.layout.Distinct)
    (hmsg : env.proto.reconciled msg = some peace)
    (h : reconciledHandle env b msg type w = some (ret, w')) :
    ret = true ∧ Plays b w w'
      (if peace.draws type then (w.table b).endAll else w.table b) := by
  simp only [reconciledHandle, hmsg, Option.bind_eq_bind] at h
  split at h
  · rename_i happly
    have happly' : (type == .reconciledReq || peace.applyOrReply == 0) =
        true := by simpa using happly
    simp only [Option.bind_eq_some_iff] at h
    obtain ⟨w₁, hsend, w₂, hend, h⟩ := h
    cases h
    have n₁ := broadCastMsg_notified hsend
    rw [Reconciled.draws, happly', Bool.true_and]
    split at hend
    · rename_i hall
      rw [if_pos (by simpa using hall)]
      have p₂ := endAllUsers_plays (n₁.layout ▸ hdistinct) hend
      exact ⟨rfl, ((n₁.plays b).trans p₂).congr (by rw [n₁.table])⟩
    · rename_i hall
      cases hend
      rw [if_neg (by simpa using hall)]
      exact ⟨rfl, n₁.plays b⟩
  · rename_i happly
    have happly' : (type == .reconciledReq || peace.applyOrReply == 0) =
        false := by simpa using happly
    have hn : ret = true ∧ Notified w w' := by
      split at h
      · split at h
        · simp only [Option.bind_eq_some_iff] at h
          obtain ⟨⟨_, w₁⟩, hsend, h⟩ := h
          cases h
          exact ⟨rfl, messageReply_notified hsend⟩
        · cases h
          exact ⟨rfl, Notified.refl w⟩
      · cases h
        exact ⟨rfl, Notified.refl w⟩
    rw [Reconciled.draws, happly', Bool.false_and]
    exact ⟨hn.1, hn.2.plays b⟩

/-- What taking a capture back does to the table. -/
theorem undoCapture_plays {env : Env} {b : BoardPtr} {w w' : World}
    (hdistinct : w.layout.Distinct) (h : undoCapture env b w = some w') :
    Plays b w w' (w.table b).undo := by
  simp only [undoCapture, Option.bind_eq_bind] at h
  unfold Table.undo
  split at h
  · rename_i hrecent
    have hrecent' : (w.table b).recentWinnerLocate ≠ locationMax := hrecent
    simp only [Option.bind_eq_some_iff] at h
    obtain ⟨winner, hwinner, w₁, hlose, loser, hloser, w₂, hgain, h⟩ := h
    obtain ⟨seat, hlocate, hseat⟩ := getUserByLocation_eq_some hwinner
    obtain ⟨seat', hlocate', hseat'⟩ := getUserByLocation_eq_some hloser
    have p₁ := reduceScore_plays hdistinct hseat hlose
    have p₂ := increaseScore_plays (p₁.distinct hdistinct)
      (by rwa [p₁.seats]) hgain
    have p := p₁.trans p₂
    have p₃ := setStatus_plays _ (p.distinct hdistinct) (by rwa [p.seats]) h
    rw [if_pos hrecent']
    refine (p.trans p₃).congr ?_
    have hw : (w.table b).recentWinnerLocate = seat.location := hlocate
    have hl : (w.table b).recentLoserLocate = seat'.location := hlocate'
    rw [hw, hl, Table.modifyAt_location, Table.modifyAt_location, p₂.table,
      p₁.table, Table.modify_modify]
  · rename_i hrecent
    have hrecent' : ¬ (w.table b).recentWinnerLocate ≠ locationMax := hrecent
    cases h
    rw [if_neg hrecent']
    exact Plays.refl b w

/-- Only an undo that is agreed to does it. -/
theorem undoHandle_plays {env : Env} {b : BoardPtr} {msg : Bytes}
    {type : MessageType} {undo : Undo} {ret : Bool} {w w' : World}
    (hdistinct : w.layout.Distinct) (hmsg : env.proto.undo msg = some undo)
    (h : undoHandle env b msg type w = some (ret, w')) :
    ret = true ∧ Plays b w w'
      (if undo.accepted then (w.table b).undo else w.table b) := by
  simp only [undoHandle, hmsg, Option.bind_eq_bind] at h
  split at h
  · rename_i hreq
    have hno : undo.accepted = false := by simp [Undo.accepted, hreq]
    rw [hno]
    split at h
    · simp only [Option.bind_eq_some_iff] at h
      obtain ⟨⟨_, w₁⟩, hsend, h⟩ := h
      cases h
      exact ⟨rfl, (messageReply_notified hsend).plays b⟩
    · cases h
      exact ⟨rfl, Plays.refl b w⟩
  · split at h
    · simp only [Option.bind_eq_some_iff] at h
      obtain ⟨w₁, hsend, w₂, hundo, h⟩ := h
      cases h
      have n₁ := broadCastMsg_notified hsend
      split at hundo
      · rename_i haccepted
        have p₂ := undoCapture_plays (n₁.layout ▸ hdistinct) hundo
        rw [if_pos haccepted]
        exact ⟨rfl, ((n₁.plays b).trans p₂).congr (by rw [n₁.table])⟩
      · rename_i haccepted
        cases hundo
        rw [if_neg haccepted]
        exact ⟨rfl, n₁.plays b⟩
    · rename_i hresp
      have hno : undo.accepted = false := by simp [Undo.accepted, hresp]
      cases h
      rw [hno]
      exact ⟨rfl, Plays.refl b w⟩

/-! ## Starting a game -/

/-- A status assigned where a location points, if anybody sits there. -/
theorem setStatusAt_plays {b : BoardPtr} {locate : Location}
    {status : UserGameStatus} {w w' : World} (hdistinct : w.layout.Distinct)
    (h : w.setSeatStatus ((w.boards b).getUserByLocation locate) status =
      some w') :
    Plays b w w' ((w.table b).modifyAt locate (Table.setStatus status)) := by
  cases hu : (w.boards b).getUserByLocation locate with
  | none =>
      rw [hu] at h
      cases h
      exact (Plays.refl b w).congr (Table.modifyAt_of_nobody hu _).symm
  | some u =>
      obtain ⟨seat, rfl, hseat⟩ := getUserByLocation_eq_some hu
      rw [getUserByLocation_location] at h
      rw [Table.modifyAt_location]
      exact setSeatStatus_plays _ hdistinct h

/-- The user named is BEGAN, and the owner may choose the clocks. -/
theorem readyRequest_plays {b : BoardPtr} {m : GameReadyReq} {w w' : World}
    (hdistinct : w.layout.Distinct) (h : readyRequest b m w = some w') :
    Plays b w w' (((w.table b).modifyAt m.srcUserLocate
      (Table.setStatus .began)).chooseTime m) := by
  simp only [readyRequest, Option.bind_eq_bind, Option.bind_eq_some_iff] at h
  obtain ⟨w₁, hstatus, h⟩ := h
  have p₁ := setStatusAt_plays hdistinct hstatus
  rw [← p₁.table, Table.chooseTime]
  cases htotal : m.totalTime with
  | none =>
      rw [htotal] at h
      cases h
      exact p₁.congr p₁.table.symm
  | some total =>
      cases hsingle : m.singleStepTime with
      | none =>
          rw [htotal, hsingle] at h
          cases h
          exact p₁.congr p₁.table.symm
      | some single =>
          rw [htotal, hsingle] at h
          dsimp only at h ⊢
          split at h
          · rename_i howner
            have howner' : m.srcUserLocate =
                (w₁.table b).firstComeUserLocate := howner
            cases h
            rw [if_pos howner']
            exact p₁.trans (setTime_plays w₁ b total single)
          · rename_i howner
            have howner' : ¬ m.srcUserLocate =
                (w₁.table b).firstComeUserLocate := howner
            cases h
            rw [if_neg howner']
            exact p₁.congr p₁.table.symm

/-- Everybody on a chair is PLAYING. -/
theorem startGame_plays {env : Env} {b : BoardPtr} {w w' : World}
    (hdistinct : w.layout.Distinct) (h : startGame env b w = some w') :
    Plays b w w' ((w.table b).modifyAll (Table.setStatus .playing)) := by
  simp only [startGame, Option.bind_eq_bind, Option.bind_eq_some_iff] at h
  obtain ⟨right, hright, w₁, h₁, left, hleft, w₂, h₂, bottom, hbottom, w₃,
    h₃, hhall⟩ := h
  have p₁ := setStatus_plays .right hdistinct hright h₁
  have p₂ := setStatus_plays .left (p₁.distinct hdistinct) hleft h₂
  have p := p₁.trans p₂
  have p₃ := setStatus_plays .bottom (p.distinct hdistinct) hbottom h₃
  refine ((p.trans p₃).notified (broadCastHallInfo_notified hhall)).congr ?_
  rw [p₂.table, p₁.table]
  exact Table.modify_each _ _ (by intro seat; cases seat <;> simp)
    (by decide) (by decide) (by decide)

/-- Getting ready, and the start of the game if all are. -/
theorem gameReadyHandle_plays {env : Env} {b : BoardPtr} {msg : Bytes}
    {m : GameReadyReq} {ret : Bool} {w w' : World}
    (hdistinct : w.layout.Distinct)
    (hmsg : env.proto.gameReadyReq msg = some m)
    (h : gameReadyHandle env b msg w = some (ret, w')) :
    ret = true ∧ Plays b w w' ((w.table b).ready m) := by
  simp only [gameReadyHandle, hmsg, Option.bind_eq_bind,
    Option.bind_eq_some_iff] at h
  obtain ⟨w₁, hrequest, left, hleft, right, hright, bottom, hbottom, w₂,
    hsend, h⟩ := h
  have p₁ := readyRequest_plays hdistinct hrequest
  have n₂ := broadCastMsg_notified hsend
  have hcount : left.toNat + right.toNat + bottom.toNat =
      (w₁.table b).count (· == .began) := by
    rw [Table.count, ← seatStatus_eq .left hleft,
      ← seatStatus_eq .right hright,
      ← seatStatus_eq .bottom hbottom]
  rw [hcount] at h
  rw [Table.ready, ← p₁.table]
  split at h
  · rename_i hthree
    simp only [Option.bind_eq_some_iff] at h
    obtain ⟨w₃, hstart, h⟩ := h
    cases h
    have p := p₁.notified n₂
    have p₃ := startGame_plays (p.distinct hdistinct) hstart
    rw [if_pos hthree]
    exact ⟨rfl, (p.trans p₃).congr (by rw [n₂.table])⟩
  · rename_i hthree
    cases h
    rw [if_neg hthree]
    exact ⟨rfl, (p₁.notified n₂).congr p₁.table.symm⟩

theorem table_status {w : World} {b : BoardPtr} {seat : Seat}
    {u : SessionId} {s : UserSession}
    (hseat : (w.boards b).seat seat = some u) (hs : w.users u = some s) :
    (w.table b).status seat = some s.status := by
  simp [Table.status, table_players hseat hs]

/-- `GameBegan` looks for a status beyond BEGAN. -/
theorem gameBegan_eq {w : World} {b : BoardPtr} {began : Bool}
    (h : gameBegan b w = some began) : began = (w.table b).began := by
  simp only [gameBegan, Option.bind_eq_bind, Option.bind_eq_some_iff] at h
  obtain ⟨num, hnum, h⟩ := h
  cases h
  rw [Table.began, countSeats_eq hnum]

/-- Whoever is ENDED is READY again, if a game has begun on the board it names.
-/
theorem playAgain_plays {b c : BoardPtr} {seat : Seat} {u : SessionId}
    {ok : Bool} {reply : RequestPlayReply} {w w' : World}
    (hdistinct : w.layout.Distinct) (hseat : (w.boards b).seat seat = some u)
    (h : playAgain c u w = some (ok, reply, w')) :
    Plays b w w' ((w.table b).again seat (w.table c).began) := by
  simp only [playAgain, Option.bind_eq_bind, Option.bind_eq_some_iff] at h
  obtain ⟨began, hbegan, s, hs, h⟩ := h
  have hbegan' := gameBegan_eq hbegan
  unfold Table.again
  rw [table_status hseat hs, ← hbegan']
  split at h
  · rename_i hok
    simp only [Option.bind_eq_some_iff] at h
    obtain ⟨w₁, hstatus, info, _, h⟩ := h
    cases h
    rw [if_pos (by simpa using hok)]
    exact setStatus_plays _ hdistinct hseat hstatus
  · rename_i hok
    cases h
    rw [if_neg (by simpa using hok)]
    exact Plays.refl b w

theorem gameAgainHandle_plays {env : Env} {b : BoardPtr} {msg : Bytes}
    {m : RequestPlay} {hall : UInt32} {ret : Bool} {w w' : World}
    (hdistinct : w.layout.Distinct)
    (hmsg : env.proto.requestPlay msg = some m)
    (hhall : getGameHall m.gameHallId.toUInt32 = some hall)
    (h : gameAgainHandle env b msg w = some (ret, w')) :
    ret = true ∧ Plays b w w'
      (match seatAt m.locate.toUInt32,
          (w.getChessBoardByID hall m.chessBoardId.toUInt32).1 with
        | some seat, some c => (w.table b).again seat (w.table c).began
        | _, _ => w.table b) := by
  simp only [gameAgainHandle, hmsg, hhall] at h
  have n₁ := getChessBoardByID_notified hall m.chessBoardId.toUInt32 w
  revert h n₁
  generalize w.getChessBoardByID hall m.chessBoardId.toUInt32 = found
  obtain ⟨chessBoard, w₁⟩ := found
  intro h n₁
  dsimp only at h n₁ ⊢
  split at h
  · rename_i hnobody
    cases h
    refine ⟨rfl, (n₁.plays b).congr ?_⟩
    split
    · rename_i seat c hseat
      have hlocate := seatAt_eq_some_iff.mp hseat
      rw [hlocate, getUserByLocation_location, n₁.boards] at hnobody
      have hnone : (w.table b).players seat = none := by
        simp [World.table, hnobody]
      unfold Table.again
      rw [Table.modify_of_none hnone, ite_self]
    · rfl
  · rename_i user huser
    obtain ⟨seat, hlocate, hseat⟩ := getUserByLocation_eq_some huser
    simp only [Option.bind_eq_bind, Option.bind_eq_some_iff] at h
    obtain ⟨c, hc, ⟨ok, reply, w₂⟩, hagain, ⟨_, w₃⟩, hreply, h⟩ := h
    rw [hc, hlocate, seatAt_location]
    have p₂ := playAgain_plays (n₁.layout ▸ hdistinct) hseat hagain
    rw [n₁.table, n₁.table] at p₂
    have p := ((n₁.plays b).trans p₂).notified (messageReply_notified hreply)
    dsimp only at h ⊢
    split at h
    · simp only [Option.bind_eq_some_iff] at h
      obtain ⟨s, _, curr, _, w₄, hsend, update, _, w₅, hupdate, h⟩ := h
      cases h
      have n₄ := broadCastMsg_notified hsend
      refine ⟨rfl, p.notified (n₄.trans ?_)⟩
      split at hupdate
      · exact broadCastHallInfo_notified hupdate
      · cases hupdate
        exact Notified.refl _
    · cases h
      exact ⟨rfl, p⟩

end ChessServer
