import ChessServer.Proofs.Changes
import ChessServer.Proofs.Message

/-!
# The changes that the in-game handlers make

The handlers that `TranslateMsg` dispatches to, and `LeaveRoomHandle`, as
sequences of elementary changes.  Who sits where is known from the `Plays`
and `Leaves` lemmas; scores are written to the database on behalf of a
session that is in the game (`translateMsg_changes`).
-/

namespace ChessServer

variable {u : SessionId}

/-! ## Sessions past the login -/

/-- The state object is seen in the place. -/
theorem World.inHall_iff {w : World} :
    w.InHall u ↔ ∃ p, w.layout.place u = some p ∧
      (p.stateMachine = some .gameReady ∨ p.stateMachine = some .gamePlay) := by
  constructor
  · rintro ⟨s, hs, hstate⟩
    exact ⟨s.place, by simp [World.layout, hs], hstate⟩
  · rintro ⟨p, hp, hstate⟩
    simp only [World.layout, Option.map_eq_some_iff] at hp
    obtain ⟨s, hs, rfl⟩ := hp
    exact ⟨s, hs, hstate⟩

theorem World.InHall.congr {w w' : World} (hu : w.InHall u)
    (h : w'.layout.place u = w.layout.place u) : w'.InHall u := by
  rw [World.inHall_iff, h]
  exact World.inHall_iff.mp hu

theorem Notified.inHall {w w' : World} (h : Notified w w')
    (hu : w.InHall u) : w'.InHall u :=
  hu.congr (by rw [h.layout])

theorem Plays.inHall {b : BoardPtr} {w w' : World} {t : Table}
    (h : Plays b w w' t) (hu : w.InHall u) : w'.InHall u :=
  hu.congr (by rw [h.layout])

theorem Leaves.inHall {b : BoardPtr} {seat : Seat} {w w' : World} {t : Table}
    (h : Leaves b seat w w' t) (hu : w.InHall u) : w'.InHall u :=
  hu.congr (by rw [h.layout]; rfl)

/-! ## Statuses and scores -/

/-- A status of somebody on a chair is assigned. -/
theorem setStatus_changes {b : BoardPtr} {seat : Seat} {v : SessionId}
    {status : UserGameStatus} {w w' : World}
    (hseat : (w.boards b).seat seat = some v)
    (h : (w.modifyUser v fun s => { s with status := status }) = some w') :
    Changes u w w' := by
  simp only [World.modifyUser, Option.map_eq_some_iff] at h
  obtain ⟨s, hs, rfl⟩ := h
  exact .single (.mark status hs hseat)

theorem setSeatStatus_changes {b : BoardPtr} (seat : Seat)
    {status : UserGameStatus} {w w' : World}
    (h : w.setSeatStatus ((w.boards b).seat seat) status = some w') :
    Changes u w w' := by
  cases hv : (w.boards b).seat seat with
  | none =>
      rw [hv] at h
      cases h
      exact .refl w
  | some v =>
      rw [hv] at h
      exact setStatus_changes hv h

/-- A score that is changed is stored in the database as well. -/
theorem storeScore_changes {env : Env} {b : BoardPtr} {seat : Seat}
    {v : SessionId} {s : UserSession} {score : UInt32} {w : World}
    (hu : w.InHall u) (hs : w.users v = some s)
    (hseat : (w.boards b).seat seat = some v) :
    Changes u w (updateUserScoreToDB env s.userInfo.account score
      (w.setUser v { s with
        userInfo := { s.userInfo with score := score } })).2 := by
  refine .trans (.single (.score score hs hseat)) (.single (.update _ ?_))
  refine hu.congr ?_
  rw [layout_setUser hs]
  by_cases hvu : u = v
  · subst hvu
    rw [Layout.modify_self]
    simp [World.layout, hs, UserSession.place]
  · rw [Layout.modify_other hvu]

/-- Points for somebody on a chair, and their statement. -/
theorem increaseScore_changes {env : Env} {b : BoardPtr} {seat : Seat}
    {v : SessionId} {score : UInt32} {w w' : World} (hu : w.InHall u)
    (hseat : (w.boards b).seat seat = some v)
    (h : increaseScore env v score w = some w') : Changes u w w' := by
  simp only [increaseScore, Option.bind_eq_bind, Option.bind_eq_some_iff] at h
  obtain ⟨s, hs, _, _, h⟩ := h
  cases h
  exact storeScore_changes hu hs hseat

theorem reduceScore_changes {env : Env} {b : BoardPtr} {seat : Seat}
    {v : SessionId} {score : UInt32} {w w' : World} (hu : w.InHall u)
    (hseat : (w.boards b).seat seat = some v)
    (h : reduceScore env v score w = some w') : Changes u w w' := by
  simp only [reduceScore, Option.bind_eq_bind, Option.bind_eq_some_iff] at h
  obtain ⟨s, hs, _, _, h⟩ := h
  cases h
  exact storeScore_changes hu hs hseat

theorem endAllUsers_changes {b : BoardPtr} {w w' : World}
    (h : endAllUsers b w = some w') : Changes u w w' := by
  simp only [endAllUsers, Option.bind_eq_bind, Option.bind_eq_some_iff] at h
  obtain ⟨w₁, h₁, w₂, h₂, h₃⟩ := h
  have c₁ := setSeatStatus_changes (u := u) .left h₁
  have c₂ := setSeatStatus_changes (u := u) .right h₂
  have c₃ := setSeatStatus_changes (u := u) .bottom h₃
  exact (c₁.trans c₂).trans c₃

theorem setRecent_changes (w : World) (b : BoardPtr)
    (winner loser : Location) :
    Changes u w (w.modifyBoard b (·.setRecent winner loser)) :=
  .single (@Change.note u w b ((w.boards b).setRecent winner loser)
    (setRecent_seat _ _ _) rfl)

theorem setTime_changes (w : World) (b : BoardPtr) (total single : UInt32) :
    Changes u w (w.modifyBoard b (·.setTime total single)) :=
  .single (@Change.note u w b ((w.boards b).setTime total single)
    (setTime_seat _ _ _) rfl)

/-! ## Leaving -/

/-- The last player left gets its points. -/
theorem lastWinner_changes {env : Env} {b : BoardPtr} {v v' : SessionId}
    {w w' : World} (hu : w.InHall u) (hdistinct : w.layout.Distinct)
    (h : lastWinner env b v w = some (v', w')) : Changes u w w' := by
  simp only [lastWinner, Option.bind_eq_bind, Option.bind_eq_some_iff] at h
  obtain ⟨num, _, h⟩ := h
  split at h
  · simp only [Option.bind_eq_some_iff] at h
    obtain ⟨active, hactive, winner, rfl, s, _, h⟩ := h
    obtain ⟨seat, hseat, _⟩ := getOnlyActiveUser_eq_some hactive
    split at h
    · simp only [Option.bind_eq_some_iff] at h
      obtain ⟨w₁, hscore, w₂, hstatus, h⟩ := h
      cases h
      have p₁ := increaseScore_plays hdistinct hseat hscore
      exact (increaseScore_changes hu hseat hscore).trans
        (setStatus_changes (by rwa [p₁.seats]) hstatus)
    · cases h
      exact .refl w
  · cases h
    exact .refl w

/-- Who leaves a running game pays. -/
theorem leavePenalty_changes {env : Env} {b : BoardPtr} {seat : Seat}
    {v : SessionId} {endGame : Bool} {w w' : World} (hu : w.InHall u)
    (hseat : (w.boards b).seat seat = some v)
    (h : leavePenalty env v endGame w = some w') : Changes u w w' := by
  unfold leavePenalty at h
  cases endGame with
  | true => exact reduceScore_changes hu hseat h
  | false =>
      cases h
      exact .refl w

/-- What `LeaveRoomHandle` does after the leaver's own part. -/
theorem leaveRest_changes {env : Env} {b : BoardPtr} {v v' : SessionId}
    {endGame : Bool} {giveUp : GiveUp} {info : ChessBoardInfo}
    {filter filter' : UInt32} {hall : Prop} [Decidable hall]
    {w w₁ w₂ w₃ w₄ w' : World} (hu : w.InHall u)
    (hdistinct : w.layout.Distinct)
    (hgiveUp : broadCastMsg env b .giveUp (.giveUp giveUp) filter w = some w₁)
    (hwinner : lastWinner env b v w₁ = some (v', w₂))
    (hend : (if endGame then endAllUsers b w₂ else some w₂) = some w₃)
    (hinfo : wrapChessBoardInfo b w₃ = some info)
    (hboard : broadCastMsg env b .chessBoard (.chessBoardInfo info) filter'
      w₃ = some w₄)
    (hhall : (if hall then broadCastHallInfo env b v' w₄ else some w₄) =
      some w') : Changes u w w' := by
  have n₁ := broadCastMsg_notified hgiveUp
  have c₁ := broadCastMsg_changes (u := u) hgiveUp
    fun _ => trivial
  have c₂ := lastWinner_changes (n₁.inHall hu) (n₁.layout ▸ hdistinct) hwinner
  have c₃ : Changes u w₂ w₃ := by
    cases endGame with
    | true => exact endAllUsers_changes hend
    | false =>
        cases hend
        exact .refl w₂
  have c₄ := broadCastMsg_changes (u := u) hboard
    (wrapChessBoardInfo_sound hinfo)
  have c₅ : Changes u w₄ w' := by
    split at hhall
    · exact broadCastHallInfo_changes hhall
    · cases hhall
      exact .refl w₄
  exact (((c₁.trans c₂).trans c₃).trans c₄).trans c₅

/-- Giving up without leaving. -/
theorem surrender_changes {env : Env} {b : BoardPtr} {seat : Seat}
    {v : SessionId} {w w' : World} (hu : w.InHall u)
    (hdistinct : w.layout.Distinct) (hseat : (w.boards b).seat seat = some v)
    (h : leaveRoomHandle env b v false w = some w') : Changes u w w' := by
  simp only [leaveRoomHandle, Option.bind_eq_bind,
    Option.bind_eq_some_iff] at h
  obtain ⟨s, _, w₁, hpenalty, w₂, hleave, w₃, hgiveUp, ⟨v', w₄⟩, hwinner,
    w₅, hend, info, hinfo, w₆, hboard, hhall⟩ := h
  have p₁ := leavePenalty_plays hdistinct hseat hpenalty
  have hseat₁ : (w₁.boards b).seat seat = some v := by rwa [p₁.seats]
  have p₂ := setStatus_plays _ (p₁.distinct hdistinct) hseat₁ hleave
  have p := p₁.trans p₂
  have c₁ := leavePenalty_changes hu hseat hpenalty
  have c₂ := setStatus_changes (u := u) hseat₁ hleave
  have c₃ := leaveRest_changes (p.inHall hu) (p.distinct hdistinct) hgiveUp
    hwinner hend hinfo hboard hhall
  exact (c₁.trans c₂).trans c₃

/-- Leaving for good. -/
theorem leaveRoomHandle_changes {env : Env} {b : BoardPtr} {seat : Seat}
    {v : SessionId} {w w' : World} (hu : w.InHall u)
    (hseating : w.layout.Seating) (hseat : (w.boards b).seat seat = some v)
    (h : leaveRoomHandle env b v true w = some w') : Changes u w w' := by
  simp only [leaveRoomHandle, Option.bind_eq_bind,
    Option.bind_eq_some_iff] at h
  obtain ⟨s, _, w₁, hpenalty, w₂, hleave, w₃, hgiveUp, ⟨v', w₄⟩, hwinner,
    w₅, hend, info, hinfo, w₆, hboard, hhall⟩ := h
  simp only [leaveSeat, if_true, Option.bind_eq_bind,
    Option.bind_eq_some_iff] at hleave
  obtain ⟨wx, hexit, hleave⟩ := hleave
  have p₁ := leavePenalty_plays hseating.distinct hseat hpenalty
  have hseat₁ : (w₁.boards b).seat seat = some v := by rwa [p₁.seats]
  have p₂ := setStatus_plays _ (p₁.distinct hseating.distinct) hseat₁ hexit
  have p := p₁.trans p₂
  have c₁ := leavePenalty_changes hu hseat hpenalty
  have c₂ := setStatus_changes (u := u) hseat₁ hexit
  -- the seat is vacated after the status was set
  obtain ⟨s₁, hs₁, rfl⟩ : ∃ s₁, w₁.users v = some s₁ ∧
      wx = w₁.setUser v { s₁ with status := .exited } := by
    simp only [World.modifyUser, Option.map_eq_some_iff] at hexit
    obtain ⟨s₁, hs₁, rfl⟩ := hexit
    exact ⟨s₁, hs₁, rfl⟩
  have hsx := setUser_users_self w₁ v { s₁ with status := .exited }
  have hseatx : ((w₁.setUser v { s₁ with status := .exited }).boards b).seat
      seat = some v := hseat₁
  have hseatingx : (w₁.setUser v
      { s₁ with status := .exited }).layout.Seating := p.layout ▸ hseating
  obtain ⟨q, hq, _, hlocate⟩ := hseatingx.seated hseatx
  simp only [World.layout, setUser_users_self, Option.map_some,
    Option.some.injEq] at hq
  subst hq
  have l₃ := leaveOutRoom_leaves hseatingx hseatx hsx hlocate hleave
  simp only [leaveOutRoom, hsx, Option.bind_eq_bind, Option.bind_some,
    Option.some.injEq] at hleave
  subst hleave
  have c₃ := Changes.single (u := u) (.vacate hsx hseatx hlocate rfl)
  have l := p.leaves l₃
  have hdistinct : Layout.Distinct _ :=
    Layout.Distinct.vacate hseating.distinct b seat
  have c₄ := leaveRest_changes (l.inHall hu) (l.layout ▸ hdistinct) hgiveUp
    hwinner hend hinfo hboard hhall
  exact ((c₁.trans c₂).trans c₃).trans c₄

/-- Nobody who left a chair sits on another one. -/
theorem Leaves.gone {b : BoardPtr} {seat : Seat} {v : SessionId}
    {w w' : World} {t : Table} (l : Leaves b seat w w' t)
    (hseating : w.layout.Seating) (hseat : (w.boards b).seat seat = some v)
    (c : BoardPtr) (seat' : Seat) : (w'.boards c).seat seat' ≠ some v := by
  intro hv
  have hv' : w'.layout.seats c seat' = some v := hv
  rw [l.layout] at hv'
  by_cases hc : c = b
  · subst hc
    rw [Layout.vacate, Layout.setSeat_self] at hv'
    by_cases hs : seat' = seat
    · subst hs
      simp at hv'
    · rw [Function.update_of_ne hs] at hv'
      exact hs (hseating.distinct (b := c) hv' hseat)
  · rw [Layout.vacate, Layout.setSeat_other hc] at hv'
    exact hc (hseating.unique hv' hseat).1

/-- Giving up makes elementary changes only. -/
theorem giveUpHandle_changes {env : Env} {b : BoardPtr} {msg : Bytes}
    {ret : Bool} {w w' : World} (hu : w.InHall u)
    (hseating : w.layout.Seating)
    (h : giveUpHandle env b msg w = some (ret, w')) : Changes u w w' := by
  unfold giveUpHandle at h
  split at h
  · cases h
    exact .refl w
  · split at h
    · cases h
      exact .refl w
    · rename_i giveup _ v huser
      obtain ⟨seat, hlocate, hseat⟩ := getUserByLocation_eq_some huser
      split at h
      · simp only [Option.bind_eq_bind, Option.bind_eq_some_iff] at h
        obtain ⟨w₁, hleave, w₂, hnext, w₃, hboard, h⟩ := h
        cases h
        have l := (leaveRoomHandle_leaves hseating hseat hleave).1
        have c₁ := leaveRoomHandle_changes hu hseating hseat hleave
        obtain ⟨p, hp, hpboard, _⟩ := hseating.seated hseat
        have hp₁ : w₁.layout.place v = some p := by
          rw [l.layout]
          exact hp
        simp only [World.layout, Option.map_eq_some_iff] at hp₁
        obtain ⟨s, hs, rfl⟩ := hp₁
        have hsboard : s.currChessBoard = some b := hpboard
        rw [modifyUser_eq hs] at hnext
        cases hnext
        rw [modifyUser_eq (setUser_users_self _ _ _)] at hboard
        cases hboard
        have c₂ := Changes.single (u := u)
          (.release hs (by simp [hsboard]))
        have c₃ := Changes.single (u := u)
          (.clear (setUser_users_self w₁ v
            { s with nextState := some .gameReady })
            (by simp [hsboard]) (l.gone hseating hseat))
        exact (c₁.trans c₂).trans c₃
      · simp only [Option.bind_eq_bind, Option.bind_eq_some_iff] at h
        obtain ⟨w₁, hleave, h⟩ := h
        cases h
        exact surrender_changes hu hseating.distinct hseat hleave

/-! ## Moves -/

/-- So does a capture, -/
theorem moveCapture_changes {env : Env} {b : BoardPtr} {m : MoveChess}
    {w w' : World} (hu : w.InHall u) (hdistinct : w.layout.Distinct)
    (h : moveCapture env b m w = some w') : Changes u w w' := by
  unfold moveCapture at h
  have p₁ := setRecent_plays w b m.srcLocate m.targetLocate
  have c₁ := setRecent_changes (u := u) w b m.srcLocate m.targetLocate
  split at h
  · simp only [Option.bind_eq_bind, Option.bind_eq_some_iff] at h
    obtain ⟨src, hsrc, w₂, hgain, h⟩ := h
    obtain ⟨seat, _, hseat⟩ := getUserByLocation_eq_some hsrc
    have p₂ := increaseScore_plays (p₁.distinct hdistinct) hseat hgain
    have c₂ := increaseScore_changes (p₁.inHall hu) hseat hgain
    have p := p₁.trans p₂
    have c := c₁.trans c₂
    split at h
    · rename_i tar htar
      obtain ⟨seat', _, hseat'⟩ := getUserByLocation_eq_some htar
      simp only [Option.bind_eq_some_iff] at h
      obtain ⟨w₃, hlose, h⟩ := h
      have p₃ := reduceScore_plays (p.distinct hdistinct) hseat' hlose
      have c₃ := reduceScore_changes (p.inHall hu) hseat' hlose
      exact (c.trans c₃).trans
        (setStatus_changes (by rwa [p₃.seats]) h)
    · cases h
      exact c
  · cases h
    exact setRecent_changes w b locationMax locationMax

theorem moveToken_changes {b : BoardPtr} {seat : Seat} {v : SessionId}
    {locate : Location} {token : Option UInt32} {w w' : World}
    (hseat : (w.boards b).seat seat = some v)
    (h : moveToken b v locate w = some (token, w')) : Changes u w w' := by
  simp only [moveToken, Option.bind_eq_bind, Option.bind_eq_some_iff] at h
  obtain ⟨num, _, h⟩ := h
  split at h
  · simp only [Option.bind_eq_some_iff] at h
    obtain ⟨_, _, h⟩ := h
    cases h
    exact .refl w
  · simp only [Option.bind_eq_some_iff] at h
    obtain ⟨w₁, hstatus, h⟩ := h
    cases h
    exact setStatus_changes hseat hstatus

theorem moveChessHandle_changes {env : Env} {b : BoardPtr} {msg : Bytes}
    {ret : Bool} {w w' : World} (hu : w.InHall u)
    (hdistinct : w.layout.Distinct)
    (h : moveChessHandle env b msg w = some (ret, w')) : Changes u w w' := by
  unfold moveChessHandle at h
  split at h
  · cases h
    exact .refl w
  · rename_i m _
    simp only [Option.bind_eq_bind, Option.bind_eq_some_iff] at h
    obtain ⟨w₁, hcapture, src, hsrc, s, _, ⟨token, w₂⟩, htoken, w₃,
      hannounce, h⟩ := h
    obtain ⟨seat, _, hseat⟩ := getUserByLocation_eq_some hsrc
    have p₁ := moveCapture_plays hdistinct hcapture
    have c₁ := moveCapture_changes hu hdistinct hcapture
    have c₂ := moveToken_changes (u := u)
      ((congrFun (p₁.seats b) seat).trans hseat) htoken
    have c₃ := broadCastMsg_changes (u := u) hannounce
      fun _ => trivial
    have c := (c₁.trans c₂).trans c₃
    split at h
    · simp only [Option.bind_eq_some_iff] at h
      obtain ⟨info, hinfo, w₄, hboard, h⟩ := h
      cases h
      exact c.trans (broadCastMsg_changes hboard
        (wrapChessBoardInfo_sound hinfo))
    · cases h
      exact c

/-! ## Chat, draws and undo -/

theorem userMessageHandle_changes {env : Env} {b : BoardPtr} {msg : Bytes}
    {ret : Bool} {w w' : World}
    (h : userMessageHandle env b msg w = some (ret, w')) :
    Changes u w w' := by
  unfold userMessageHandle at h
  split at h
  · cases h
    exact .refl w
  · simp only [Option.bind_eq_bind, Option.bind_eq_some_iff] at h
    obtain ⟨w₁, hsend, h⟩ := h
    cases h
    exact broadCastMsg_changes hsend fun _ => trivial

theorem reconciledHandle_changes {env : Env} {b : BoardPtr} {msg : Bytes}
    {type : MessageType} {ret : Bool} {w w' : World}
    (h : reconciledHandle env b msg type w = some (ret, w')) :
    Changes u w w' := by
  unfold reconciledHandle at h
  split at h
  · cases h
    exact .refl w
  · split at h
    · simp only [Option.bind_eq_bind, Option.bind_eq_some_iff] at h
      obtain ⟨w₁, hsend, w₂, hend, h⟩ := h
      cases h
      have c₁ := broadCastMsg_changes (u := u) hsend fun _ => trivial
      split at hend
      · exact c₁.trans (endAllUsers_changes hend)
      · cases hend
        exact c₁
    · split at h
      · split at h
        · simp only [Option.bind_eq_bind, Option.bind_eq_some_iff] at h
          obtain ⟨⟨_, w₁⟩, hsend, h⟩ := h
          cases h
          exact messageReply_changes hsend fun _ => trivial
        · cases h
          exact .refl w
      · cases h
        exact .refl w

/-- and the undoing of one. -/
theorem undoCapture_changes {env : Env} {b : BoardPtr} {w w' : World}
    (hu : w.InHall u) (hdistinct : w.layout.Distinct)
    (h : undoCapture env b w = some w') : Changes u w w' := by
  simp only [undoCapture, Option.bind_eq_bind] at h
  split at h
  · simp only [Option.bind_eq_some_iff] at h
    obtain ⟨winner, hwinner, w₁, hlose, loser, hloser, w₂, hgain, h⟩ := h
    obtain ⟨seat, _, hseat⟩ := getUserByLocation_eq_some hwinner
    obtain ⟨seat', _, hseat'⟩ := getUserByLocation_eq_some hloser
    have p₁ := reduceScore_plays hdistinct hseat hlose
    have hseat₁ : (w₁.boards b).seat seat' = some loser := by rwa [p₁.seats]
    have p₂ := increaseScore_plays (p₁.distinct hdistinct) hseat₁ hgain
    have c₁ := reduceScore_changes hu hseat hlose
    have c₂ := increaseScore_changes (p₁.inHall hu) hseat₁ hgain
    exact (c₁.trans c₂).trans (setStatus_changes (by rwa [p₂.seats]) h)
  · cases h
    exact .refl w

theorem undoHandle_changes {env : Env} {b : BoardPtr} {msg : Bytes}
    {type : MessageType} {ret : Bool} {w w' : World} (hu : w.InHall u)
    (hdistinct : w.layout.Distinct)
    (h : undoHandle env b msg type w = some (ret, w')) : Changes u w w' := by
  unfold undoHandle at h
  split at h
  · cases h
    exact .refl w
  · split at h
    · split at h
      · simp only [Option.bind_eq_bind, Option.bind_eq_some_iff] at h
        obtain ⟨⟨_, w₁⟩, hsend, h⟩ := h
        cases h
        exact messageReply_changes hsend fun _ => trivial
      · cases h
        exact .refl w
    · split at h
      · simp only [Option.bind_eq_bind, Option.bind_eq_some_iff] at h
        obtain ⟨w₁, hsend, w₂, hundo, h⟩ := h
        cases h
        have n₁ := broadCastMsg_notified hsend
        have c₁ := broadCastMsg_changes (u := u) hsend fun _ => trivial
        split at hundo
        · exact c₁.trans (undoCapture_changes (n₁.inHall hu)
            (n₁.layout ▸ hdistinct) hundo)
        · cases hundo
          exact c₁
      · cases h
        exact .refl w

/-! ## Starting a game -/

theorem readyRequest_changes {b : BoardPtr} {m : GameReadyReq}
    {w w' : World} (h : readyRequest b m w = some w') : Changes u w w' := by
  simp only [readyRequest, Option.bind_eq_bind, Option.bind_eq_some_iff] at h
  obtain ⟨w₁, hstatus, h⟩ := h
  have c₁ : Changes u w w₁ := by
    cases hv : (w.boards b).getUserByLocation m.srcUserLocate with
    | none =>
        rw [hv] at hstatus
        cases hstatus
        exact .refl w
    | some v =>
        rw [hv] at hstatus
        obtain ⟨seat, _, hseat⟩ := getUserByLocation_eq_some hv
        exact setStatus_changes hseat hstatus
  split at h
  · split at h
    · cases h
      exact c₁.trans (setTime_changes w₁ b _ _)
    · cases h
      exact c₁
  · cases h
    exact c₁

/-- The game starts for everybody on a chair. -/
theorem startGame_changes {env : Env} {b : BoardPtr} {w w' : World}
    (h : startGame env b w = some w') : Changes u w w' := by
  simp only [startGame, Option.bind_eq_bind, Option.bind_eq_some_iff] at h
  obtain ⟨right, hright, w₁, h₁, left, hleft, w₂, h₂, bottom, hbottom, w₃,
    h₃, hhall⟩ := h
  have hr : (w.boards b).seat .right = some right := hright
  have hl : (w₁.boards b).seat .left = some left := hleft
  have hb : (w₂.boards b).seat .bottom = some bottom := hbottom
  have c₁ := setStatus_changes (u := u) hr h₁
  have c₂ := setStatus_changes (u := u) hl h₂
  have c₃ := setStatus_changes (u := u) hb h₃
  exact ((c₁.trans c₂).trans c₃).trans (broadCastHallInfo_changes hhall)

theorem gameReadyHandle_changes {env : Env} {b : BoardPtr} {msg : Bytes}
    {ret : Bool} {w w' : World}
    (h : gameReadyHandle env b msg w = some (ret, w')) : Changes u w w' := by
  unfold gameReadyHandle at h
  split at h
  · cases h
    exact .refl w
  · simp only [Option.bind_eq_bind, Option.bind_eq_some_iff] at h
    obtain ⟨w₁, hrequest, left, _, right, _, bottom, _, w₂, hsend, h⟩ := h
    have c₁ := readyRequest_changes (u := u) hrequest
    have c₂ := c₁.trans (broadCastMsg_changes hsend fun _ => trivial)
    split at h
    · simp only [Option.bind_eq_some_iff] at h
      obtain ⟨w₃, hstart, h⟩ := h
      cases h
      exact c₂.trans (startGame_changes hstart)
    · cases h
      exact c₂

/-- Another game, with a snapshot that is right. -/
theorem playAgain_changes {b c : BoardPtr} {seat : Seat} {v : SessionId}
    {ok : Bool} {reply : RequestPlayReply} {w w' : World}
    (hseat : (w.boards b).seat seat = some v)
    (h : playAgain c v w = some (ok, reply, w')) :
    Changes u w w' ∧ (w'.Counted → ∀ info ∈ reply.chessBoard, info.Sound) := by
  simp only [playAgain, Option.bind_eq_bind, Option.bind_eq_some_iff] at h
  obtain ⟨began, _, s, _, h⟩ := h
  split at h
  · simp only [Option.bind_eq_some_iff] at h
    obtain ⟨w₁, hstatus, info, hinfo, h⟩ := h
    cases h
    refine ⟨setStatus_changes hseat hstatus, fun hcounted i hi => ?_⟩
    cases hi
    exact wrapChessBoardInfo_sound hinfo hcounted
  · cases h
    refine ⟨.refl w, fun _ i hi => ?_⟩
    cases hi

theorem gameAgainHandle_changes {env : Env} {b : BoardPtr} {msg : Bytes}
    {ret : Bool} {w w' : World}
    (h : gameAgainHandle env b msg w = some (ret, w')) : Changes u w w' := by
  unfold gameAgainHandle at h
  split at h
  · cases h
    exact .refl w
  · rename_i m _
    split at h
    · cases h
      exact .refl w
    · rename_i hall hhall
      obtain ⟨_, hself⟩ := getGameHall_self hhall
      have c₁ := getChessBoardByID_changes (u := u)
        m.chessBoardId.toUInt32 w hself
      revert h c₁
      generalize w.getChessBoardByID hall m.chessBoardId.toUInt32 = found
      obtain ⟨chessBoard, w₁⟩ := found
      intro h c₁
      dsimp only at h c₁
      split at h
      · cases h
        exact c₁
      · rename_i v hv
        obtain ⟨seat, _, hseat⟩ := getUserByLocation_eq_some hv
        simp only [Option.bind_eq_bind, Option.bind_eq_some_iff] at h
        obtain ⟨c, _, ⟨ok, reply, w₂⟩, hagain, ⟨_, w₃⟩, hreply, h⟩ := h
        obtain ⟨c₂, hsound⟩ := playAgain_changes (u := u) hseat hagain
        have n₃ := messageReply_notified hreply
        have c₃ := messageReply_changes (u := u) hreply hsound
        have c' := (c₁.trans c₂).trans c₃
        dsimp only at h
        split at h
        · simp only [Option.bind_eq_some_iff] at h
          obtain ⟨s, _, curr, _, w₄, hsend, update, _, w₅, hupdate, h⟩ := h
          cases h
          have c₄ := broadCastMsg_changes (u := u) hsend
            fun hcounted => hsound (n₃.counted.mp hcounted)
          refine (c'.trans c₄).trans ?_
          split at hupdate
          · exact broadCastHallInfo_changes hupdate
          · cases hupdate
            exact .refl _
        · cases h
          exact c'

/-! ## Dispatch -/

/-- Every message of a game makes elementary changes only. -/
theorem translateMsg_changes {env : Env} {b : BoardPtr} {msgType : UInt32}
    {msg : Bytes} {ret : Bool} {w w' : World} (hu : w.InHall u)
    (hseating : w.layout.Seating)
    (h : translateMsg env b msgType msg w = some (ret, w')) :
    Changes u w w' := by
  unfold translateMsg at h
  split at h
  · exact moveChessHandle_changes hu hseating.distinct h
  · exact userMessageHandle_changes h
  · exact reconciledHandle_changes h
  · exact reconciledHandle_changes h
  · exact giveUpHandle_changes hu hseating h
  · exact undoHandle_changes hu hseating.distinct h
  · exact undoHandle_changes hu hseating.distinct h
  · exact gameReadyHandle_changes h
  · exact gameAgainHandle_changes h
  · cases h
    exact .refl w

end ChessServer
