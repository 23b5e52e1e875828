import ChessServer.Model.Stages
import ChessServer.Proofs.Step

/-!
# Who moves a session on

Only a login changes the account of a session, and only the state object that
has the message sets the one that follows it (`msgHandle_advanced`).  Closing a
connection forgets both.
-/

namespace ChessServer

variable {env : Env} {b : BoardPtr} {u : SessionId} {w w' : World}

/-! ## Assignments -/

theorem stage_eq {v : SessionId} {s : UserSession}
    (hs : w.users v = some s) : w.stage v = some s.stage := by
  unfold World.stage
  rw [hs]
  rfl

/-- Writing a session whose stage is the same. -/
theorem setUser_stage {s s' : UserSession} (hs : w.users u = some s)
    (hstage : s'.stage = s.stage) :
    (w.setUser u s').stage = w.stage := by
  funext v
  by_cases hv : v = u
  · subst hv
    rw [stage_eq (setUser_users_self _ _ _), stage_eq hs, hstage]
  · unfold World.stage
    rw [show (w.setUser u s').users v = w.users v from
      Function.update_of_ne hv _ _]

theorem modifyUser_stage {f : UserSession → UserSession}
    (h : w.modifyUser u f = some w')
    (hf : ∀ s, (f s).stage = s.stage) :
    w'.stage = w.stage := by
  obtain ⟨s, hs, rfl⟩ := Option.map_eq_some_iff.mp h
  exact setUser_stage hs (hf s)

theorem Notified.stage (h : Notified w w') : w'.stage = w.stage := by
  unfold World.stage
  rw [h.users]

/-- Somebody may have been sent on to the state object that follows. -/
def Advanced (state : StateType) (w w' : World) : Prop :=
  ∀ v, w'.stage v = w.stage v ∨ w'.stage v = (w.stage v).map fun p =>
    { p with nextState := some state.successor }

variable {state : StateType}

/-- Staying where one is. -/
theorem Advanced.of_eq (h : w'.stage = w.stage) : Advanced state w w' :=
  fun v => Or.inl (congrFun h v)

theorem Advanced.after {w₁ : World} (h : Advanced state w₁ w')
    (hsame : w₁.stage = w.stage) : Advanced state w w' := by
  intro v
  rw [← hsame]
  exact h v

theorem Advanced.before {w₁ : World} (h : Advanced state w w₁)
    (hsame : w'.stage = w₁.stage) : Advanced state w w' := by
  intro v
  rw [hsame]
  exact h v

/-- Advancing twice is no more than advancing once. -/
theorem Advanced.trans {w₁ : World} (h₁ : Advanced state w w₁)
    (h₂ : Advanced state w₁ w') : Advanced state w w' := by
  intro v
  rcases h₂ v with h₂ | h₂
  · rw [h₂]
    exact h₁ v
  · rw [h₂]
    rcases h₁ v with h₁ | h₁
    · rw [h₁]
      exact Or.inr rfl
    · rw [h₁, Option.map_map]
      exact Or.inr rfl

/-- A session is told to go on to the successor. -/
theorem setNextState_advanced
    (h : setNextState u state.successor w = some w') :
    Advanced state w w' := by
  intro v
  obtain ⟨s, hs, rfl⟩ := Option.map_eq_some_iff.mp h
  by_cases hv : v = u
  · subst hv
    rw [stage_eq (setUser_users_self _ _ _), stage_eq hs]
    exact Or.inr rfl
  · left
    unfold World.stage
    rw [show (w.setUser u _).users v = w.users v from
      Function.update_of_ne hv _ _]

theorem increaseScore_stage {score : UInt32}
    (h : increaseScore env u score w = some w') : w'.stage = w.stage := by
  simp only [increaseScore, Option.bind_eq_bind, Option.bind_eq_some_iff] at h
  obtain ⟨s, hs, _, _, h⟩ := h
  cases h
  exact setUser_stage hs rfl

theorem reduceScore_stage {score : UInt32}
    (h : reduceScore env u score w = some w') : w'.stage = w.stage := by
  simp only [reduceScore, Option.bind_eq_bind, Option.bind_eq_some_iff] at h
  obtain ⟨s, hs, _, _, h⟩ := h
  cases h
  exact setUser_stage hs rfl

theorem setSeatStatus_stage {user : Option SessionId}
    {status : UserGameStatus} (h : w.setSeatStatus user status = some w') :
    w'.stage = w.stage := by
  cases user with
  | none =>
      cases h
      rfl
  | some v => exact modifyUser_stage h fun _ => rfl

theorem endAllUsers_stage (h : endAllUsers b w = some w') :
    w'.stage = w.stage := by
  simp only [endAllUsers, Option.bind_eq_bind, Option.bind_eq_some_iff] at h
  obtain ⟨w₁, h₁, w₂, h₂, h₃⟩ := h
  rw [setSeatStatus_stage h₃, setSeatStatus_stage h₂,
    setSeatStatus_stage h₁]

/-! ## The game -/

theorem leavePenalty_stage {endGame : Bool}
    (h : leavePenalty env u endGame w = some w') :
    w'.stage = w.stage := by
  unfold leavePenalty at h
  split at h
  · exact reduceScore_stage h
  · cases h
    rfl

theorem leaveSeat_stage {reallyLeave : Bool}
    (h : leaveSeat b u reallyLeave w = some w') : w'.stage = w.stage := by
  unfold leaveSeat at h
  split at h
  · simp only [leaveOutRoom, Option.bind_eq_bind,
      Option.bind_eq_some_iff] at h
    obtain ⟨w₁, hexit, s, _, h⟩ := h
    have hstatus : w₁.stage = w.stage :=
      modifyUser_stage hexit fun _ => rfl
    cases h
    exact hstatus
  · exact modifyUser_stage h fun _ => rfl

theorem lastWinner_stage {v : SessionId}
    (h : lastWinner env b u w = some (v, w')) : w'.stage = w.stage := by
  simp only [lastWinner, Option.bind_eq_bind, Option.bind_eq_some_iff] at h
  obtain ⟨num, _, h⟩ := h
  split at h
  · simp only [Option.bind_eq_some_iff] at h
    obtain ⟨active, _, winner, _, s, _, h⟩ := h
    split at h
    · simp only [Option.bind_eq_some_iff] at h
      obtain ⟨w₁, hscore, w₂, hstatus, h⟩ := h
      cases h
      rw [modifyUser_stage hstatus fun _ => rfl, increaseScore_stage hscore]
    · cases h
      rfl
  · cases h
    rfl

/-- Leaving a board is not yet leaving its state. -/
theorem leaveRoomHandle_stage {reallyLeave : Bool}
    (h : leaveRoomHandle env b u reallyLeave w = some w') :
    w'.stage = w.stage := by
  simp only [leaveRoomHandle, Option.bind_eq_bind,
    Option.bind_eq_some_iff] at h
  obtain ⟨s, _, w₁, hpenalty, w₂, hleave, w₃, hgiveUp, ⟨v, w₄⟩, hwinner,
    w₅, hend, info, _, w₆, hboard, hhall⟩ := h
  have h₄ : w₄.stage = w.stage := by
    rw [lastWinner_stage hwinner, (broadCastMsg_notified hgiveUp).stage,
      leaveSeat_stage hleave, leavePenalty_stage hpenalty]
  have h₅ : w₅.stage = w₄.stage := by
    split at hend
    · exact endAllUsers_stage hend
    · cases hend
      rfl
  have h₆ := (broadCastMsg_notified hboard).stage
  have hlast : w'.stage = w₆.stage := by
    split at hhall
    · exact (broadCastHallInfo_notified hhall).stage
    · cases hhall
      rfl
  rw [hlast, h₆, h₅, h₄]

/-- Who leaves the board by a message is sent back to the hall. -/
theorem giveUpHandle_advanced {msg : Bytes} {ret : Bool}
    (h : giveUpHandle env b msg w = some (ret, w')) :
    Advanced .gamePlay w w' := by
  unfold giveUpHandle at h
  split at h
  · cases h
    exact .of_eq rfl
  · split at h
    · cases h
      exact .of_eq rfl
    · split at h
      · simp only [Option.bind_eq_bind, Option.bind_eq_some_iff] at h
        obtain ⟨w₁, hleave, w₂, hnext, w₃, hboard, h⟩ := h
        cases h
        have hsent : Advanced .gamePlay w₁ w₂ := setNextState_advanced hnext
        have hforgot : w'.stage = w₂.stage :=
          modifyUser_stage hboard fun _ => rfl
        exact (hsent.before hforgot).after (leaveRoomHandle_stage hleave)
      · simp only [Option.bind_eq_bind, Option.bind_eq_some_iff] at h
        obtain ⟨w₁, hleave, h⟩ := h
        cases h
        exact .of_eq (leaveRoomHandle_stage hleave)

theorem moveCapture_stage {m : MoveChess}
    (h : moveCapture env b m w = some w') : w'.stage = w.stage := by
  unfold moveCapture at h
  split at h
  · simp only [Option.bind_eq_bind, Option.bind_eq_some_iff] at h
    obtain ⟨src, _, w₁, hgain, h⟩ := h
    have hscore : w₁.stage = (w.modifyBoard b _).stage :=
      increaseScore_stage hgain
    have hnote : w₁.stage = w.stage := hscore
    split at h
    · simp only [Option.bind_eq_some_iff] at h
      obtain ⟨w₂, hlose, hstatus⟩ := h
      rw [modifyUser_stage hstatus fun _ => rfl, reduceScore_stage hlose,
        hnote]
    · cases h
      exact hnote
  · cases h
    rfl

theorem moveToken_stage {locate : Location} {token : Option UInt32}
    (h : moveToken b u locate w = some (token, w')) :
    w'.stage = w.stage := by
  simp only [moveToken, Option.bind_eq_bind, Option.bind_eq_some_iff] at h
  obtain ⟨num, _, h⟩ := h
  split at h
  · simp only [Option.bind_eq_some_iff] at h
    obtain ⟨t, _, h⟩ := h
    cases h
    rfl
  · simp only [Option.bind_eq_some_iff] at h
    obtain ⟨w₁, hstatus, h⟩ := h
    cases h
    exact modifyUser_stage hstatus fun _ => rfl

theorem moveChessHandle_stage {msg : Bytes} {ret : Bool}
    (h : moveChessHandle env b msg w = some (ret, w')) :
    w'.stage = w.stage := by
  unfold moveChessHandle at h
  split at h
  · cases h
    rfl
  · simp only [Option.bind_eq_bind, Option.bind_eq_some_iff] at h
    obtain ⟨w₁, hcapture, src, _, s, _, ⟨token, w₂⟩, htoken, w₃, hannounce, h⟩ :=
      h
    have h₃ : w₃.stage = w.stage := by
      rw [(broadCastMsg_notified hannounce).stage, moveToken_stage htoken,
        moveCapture_stage hcapture]
    split at h
    · simp only [Option.bind_eq_some_iff] at h
      obtain ⟨info, _, w₄, hboard, h⟩ := h
      cases h
      rw [(broadCastMsg_notified hboard).stage, h₃]
    · cases h
      exact h₃

theorem userMessageHandle_stage {msg : Bytes} {ret : Bool}
    (h : userMessageHandle env b msg w = some (ret, w')) :
    w'.stage = w.stage := by
  unfold userMessageHandle at h
  split at h
  · cases h
    rfl
  · simp only [Option.bind_eq_bind, Option.bind_eq_some_iff] at h
    obtain ⟨w₁, hsend, h⟩ := h
    cases h
    exact (broadCastMsg_notified hsend).stage

theorem reconciledHandle_stage {msg : Bytes} {type : MessageType}
    {ret : Bool} (h : reconciledHandle env b msg type w = some (ret, w')) :
    w'.stage = w.stage := by
  unfold reconciledHandle at h
  split at h
  · cases h
    rfl
  · split at h
    · simp only [Option.bind_eq_bind, Option.bind_eq_some_iff] at h
      obtain ⟨w₁, hsend, w₂, hend, h⟩ := h
      cases h
      rw [← (broadCastMsg_notified hsend).stage]
      split at hend
      · exact endAllUsers_stage hend
      · cases hend
        rfl
    · split at h
      · split at h
        · simp only [Option.bind_eq_bind, Option.bind_eq_some_iff] at h
          obtain ⟨⟨_, w₁⟩, hsend, h⟩ := h
          cases h
          exact (messageReply_notified hsend).stage
        · cases h
          rfl
      · cases h
        rfl

theorem undoCapture_stage (h : undoCapture env b w = some w') :
    w'.stage = w.stage := by
  dsimp only [undoCapture] at h
  split at h
  · simp only [Option.bind_eq_bind, Option.bind_eq_some_iff] at h
    obtain ⟨winner, _, w₁, hlose, loser, _, w₂, hgain, hstatus⟩ := h
    rw [modifyUser_stage hstatus fun _ => rfl, increaseScore_stage hgain,
      reduceScore_stage hlose]
  · cases h
    rfl

theorem undoHandle_stage {msg : Bytes} {type : MessageType} {ret : Bool}
    (h : undoHandle env b msg type w = some (ret, w')) :
    w'.stage = w.stage := by
  unfold undoHandle at h
  split at h
  · cases h
    rfl
  · split at h
    · split at h
      · simp only [Option.bind_eq_bind, Option.bind_eq_some_iff] at h
        obtain ⟨⟨_, w₁⟩, hsend, h⟩ := h
        cases h
        exact (messageReply_notified hsend).stage
      · cases h
        rfl
    · split at h
      · simp only [Option.bind_eq_bind, Option.bind_eq_some_iff] at h
        obtain ⟨w₁, hsend, w₂, hundo, h⟩ := h
        cases h
        rw [← (broadCastMsg_notified hsend).stage]
        split at hundo
        · exact undoCapture_stage hundo
        · cases hundo
          rfl
      · cases h
        rfl

theorem readyRequest_stage {m : GameReadyReq}
    (h : readyRequest b m w = some w') : w'.stage = w.stage := by
  simp only [readyRequest, Option.bind_eq_bind, Option.bind_eq_some_iff] at h
  obtain ⟨w₁, hstatus, h⟩ := h
  rw [← setSeatStatus_stage hstatus]
  split at h
  · split at h
    · cases h
      rfl
    · cases h
      rfl
  · cases h
    rfl

theorem startGame_stage (h : startGame env b w = some w') :
    w'.stage = w.stage := by
  simp only [startGame, Option.bind_eq_bind, Option.bind_eq_some_iff] at h
  obtain ⟨right, _, w₁, h₁, left, _, w₂, h₂, bottom, _, w₃, h₃, hhall⟩ := h
  rw [(broadCastHallInfo_notified hhall).stage,
    modifyUser_stage h₃ fun _ => rfl, modifyUser_stage h₂ fun _ => rfl,
    modifyUser_stage h₁ fun _ => rfl]

theorem gameReadyHandle_stage {msg : Bytes} {ret : Bool}
    (h : gameReadyHandle env b msg w = some (ret, w')) :
    w'.stage = w.stage := by
  unfold gameReadyHandle at h
  split at h
  · cases h
    rfl
  · simp only [Option.bind_eq_bind, Option.bind_eq_some_iff] at h
    obtain ⟨w₁, hready, _, _, _, _, _, _, w₂, hsend, h⟩ := h
    have h₂ : w₂.stage = w.stage := by
      rw [(broadCastMsg_notified hsend).stage, readyRequest_stage hready]
    split at h
    · simp only [Option.bind_eq_some_iff] at h
      obtain ⟨w₃, hstart, h⟩ := h
      cases h
      rw [startGame_stage hstart, h₂]
    · cases h
      exact h₂

theorem playAgain_stage {added : Bool} {reply : RequestPlayReply}
    (h : playAgain b u w = some (added, reply, w')) :
    w'.stage = w.stage := by
  simp only [playAgain, Option.bind_eq_bind, Option.bind_eq_some_iff] at h
  obtain ⟨began, _, s, _, h⟩ := h
  split at h
  · simp only [Option.bind_eq_some_iff] at h
    obtain ⟨w₁, hstatus, info, _, h⟩ := h
    cases h
    exact modifyUser_stage hstatus fun _ => rfl
  · cases h
    rfl

theorem gameAgainHandle_stage {msg : Bytes} {ret : Bool}
    (h : gameAgainHandle env b msg w = some (ret, w')) :
    w'.stage = w.stage := by
  unfold gameAgainHandle at h
  split at h
  · cases h
    rfl
  · rename_i m _
    split at h
    · cases h
      rfl
    · rename_i hall _
      have n := getChessBoardByID_notified hall m.chessBoardId.toUInt32 w
      dsimp only at h
      rw [← n.stage]
      split at h
      · cases h
        rfl
      · simp only [Option.bind_eq_bind, Option.bind_eq_some_iff] at h
        obtain ⟨c, _, ⟨added, reply, w₁⟩, hagain, ⟨_, w₂⟩, hreply, h⟩ := h
        have h₂ : w₂.stage = _ :=
          (messageReply_notified hreply).stage.trans (playAgain_stage hagain)
        rw [← h₂]
        split at h
        · simp only [Option.bind_eq_some_iff] at h
          obtain ⟨s, _, curr, _, w₃, hsend, update, _, w₄, hhall, h⟩ := h
          cases h
          rw [← (broadCastMsg_notified hsend).stage]
          split at hhall
          · exact (broadCastHallInfo_notified hhall).stage
          · cases hhall
            rfl
        · cases h
          rfl

/-- A message of a game sends nobody further than the hall. -/
theorem translateMsg_advanced {msgType : UInt32} {msg : Bytes} {ret : Bool}
    (h : translateMsg env b msgType msg w = some (ret, w')) :
    Advanced .gamePlay w w' := by
  unfold translateMsg at h
  split at h
  · exact .of_eq (moveChessHandle_stage h)
  · exact .of_eq (userMessageHandle_stage h)
  · exact .of_eq (reconciledHandle_stage h)
  · exact .of_eq (reconciledHandle_stage h)
  · exact giveUpHandle_advanced h
  · exact .of_eq (undoHandle_stage h)
  · exact .of_eq (undoHandle_stage h)
  · exact .of_eq (gameReadyHandle_stage h)
  · exact .of_eq (gameAgainHandle_stage h)
  · cases h
    exact .of_eq rfl

/-! ## The states -/

theorem echoMsgHandle_stage {msg : Bytes} {ret : Bool}
    (h : echoMsgHandle env u msg w = some (ret, w')) :
    w'.stage = w.stage := by
  simp only [echoMsgHandle, Option.bind_eq_bind, Option.bind_eq_some_iff] at h
  obtain ⟨⟨_, w₁⟩, hreply, h⟩ := h
  cases h
  exact (messageReply_notified hreply).stage

theorem gameHallSumaryHandle_stage {ret : Bool}
    (h : gameHallSumaryHandle env u w = some (ret, w')) :
    w'.stage = w.stage :=
  (gameHallSumaryHandle_notified h).stage

theorem hallInfoReqHandle_stage {msg : Bytes} {ret : Bool}
    (h : hallInfoReqHandle env u msg w = some (ret, w')) :
    w'.stage = w.stage := by
  unfold hallInfoReqHandle at h
  split at h
  · cases h
    rfl
  · simp only [Option.bind_eq_bind, Option.bind_eq_some_iff] at h
    obtain ⟨⟨info, w₁⟩, hwrap, h⟩ := h
    rw [← (wrapHallInfo_notified hwrap).stage]
    cases info with
    | none =>
        cases h
        rfl
    | some info =>
        simp only [Option.bind_eq_some_iff] at h
        obtain ⟨⟨_, w₂⟩, hreply, h⟩ := h
        cases h
        exact (messageReply_notified hreply).stage

theorem chessBoardReq_stage {msg : Bytes} {ret : Bool}
    (h : chessBoardReq env u msg w = some (ret, w')) :
    w'.stage = w.stage := by
  unfold chessBoardReq at h
  split at h
  · cases h
    rfl
  · simp only [Option.bind_eq_bind, Option.bind_eq_some_iff] at h
    obtain ⟨_, _, _, _, _, _, ⟨_, w₁⟩, hreply, h⟩ := h
    cases h
    exact (messageReply_notified hreply).stage

/-- Editing a field that is not the account. -/
theorem updateField_stage {value : Option Bytes}
    {set : Bytes → UsersInfo → UsersInfo}
    {toDB : Bytes → Bytes → World → Bool × World}
    (h : updateField u value set toDB w = some w')
    (hset : ∀ x i, (set x i).account = i.account)
    (htoDB : ∀ a x w, (toDB a x w).2.stage = w.stage) :
    w'.stage = w.stage := by
  unfold updateField at h
  split at h
  · cases h
    rfl
  · simp only [Option.bind_eq_bind, Option.bind_eq_some_iff] at h
    obtain ⟨s, hs, _, _, h⟩ := h
    cases h
    rw [htoDB]
    refine setUser_stage hs ?_
    unfold UserSession.stage
    rw [hset]

theorem updateUserInfos_stage {msg : Bytes} {ret : Bool}
    (h : updateUserInfos env u msg w = some (ret, w')) :
    w'.stage = w.stage := by
  unfold updateUserInfos at h
  split at h
  · cases h
    rfl
  · simp only [Option.bind_eq_bind, Option.bind_eq_some_iff] at h
    obtain ⟨s, _, w₁, h₁, w₂, h₂, w₃, h₃, w₄, h₄, w₅, h₅, h⟩ := h
    cases h
    rw [updateField_stage h₅ (fun _ _ => rfl) fun _ _ _ => rfl,
      updateField_stage h₄ (fun _ _ => rfl) fun _ _ _ => rfl,
      updateField_stage h₃ (fun _ _ => rfl) fun _ _ _ => rfl,
      updateField_stage h₂ (fun _ _ => rfl) fun _ _ _ => rfl,
      updateField_stage h₁ (fun _ _ => rfl) fun _ _ _ => rfl]

/-- Registering logs nobody in. -/
theorem handleRegister_stage {msg : Bytes} {ret : Bool}
    (h : handleRegister env u msg w = some (ret, w')) :
    w'.stage = w.stage := by
  unfold handleRegister at h
  split at h
  · cases h
    rfl
  · simp only [Option.bind_eq_bind, Option.bind_eq_some_iff] at h
    obtain ⟨s, _, _, _, ⟨_, w₁⟩, hreply, h⟩ := h
    cases h
    exact (messageReply_notified hreply).stage

/-- In the first state only a login changes an stage. -/
theorem stateAuthMsgHandle_stage {msgType : UInt32} {msg : Bytes}
    {ret : Bool} (hlogin : MessageType.ofCode msgType ≠ some .login)
    (h : stateAuthMsgHandle env u msgType msg w = some (ret, w')) :
    w'.stage = w.stage := by
  unfold stateAuthMsgHandle at h
  split at h
  · exact handleRegister_stage h
  · rename_i htype
    exact absurd htype hlogin
  · cases h
    rfl
  · exact echoMsgHandle_stage h
  · unfold handleFindPwd at h
    split at h
    · cases h
      rfl
    · cases h
      rfl
  · cases h
    rfl

theorem getAdPicturesInfoFromDB_stage (env : Env) (id : UInt32)
    (info : AdPicturesInfo) (w : World) :
    (getAdPicturesInfoFromDB env id info w).2.2.stage = w.stage := by
  unfold getAdPicturesInfoFromDB
  dsimp only
  split <;> rfl

theorem sendImageContent_stage {ret : Bool}
    (h : sendImageContent env u w = some (ret, w')) :
    w'.stage = w.stage := by
  simp only [sendImageContent, Option.bind_eq_bind,
    Option.bind_eq_some_iff] at h
  obtain ⟨s, _, h⟩ := h
  rw [← (getBuffer_notified u maxDataLength w).stage]
  split at h
  · cases h
    rfl
  · split at h
    · simp only [Option.bind_eq_some_iff] at h
      obtain ⟨w₁, hread, ⟨ok, w₂⟩, hreply, h⟩ := h
      rw [← modifyUser_stage hread fun _ => rfl,
        ← (messageReply_notified hreply).stage]
      dsimp only at h
      split at h
      · cases h
        rfl
      · simp only [Option.bind_eq_some_iff] at h
        obtain ⟨w₃, hclose, h⟩ := h
        cases h
        exact modifyUser_stage hclose fun _ => rfl
    · simp only [Option.bind_eq_some_iff] at h
      obtain ⟨w₁, hclose, ⟨_, w₂⟩, hreply, h⟩ := h
      cases h
      rw [(messageReply_notified hreply).stage,
        modifyUser_stage hclose fun _ => rfl]

theorem openImage_stage {id : UInt32} (h : openImage env u id w = some w') :
    w'.stage = w.stage := by
  simp only [openImage, Option.bind_eq_bind, Option.bind_eq_some_iff] at h
  obtain ⟨s, _, h⟩ := h
  split at h
  · simp only [Option.bind_eq_some_iff] at h
    obtain ⟨_, _, h⟩ := h
    rw [← getAdPicturesInfoFromDB_stage env id {} w]
    split at h
    · exact modifyUser_stage h fun _ => rfl
    · cases h
      rfl
  · cases h
    rfl

theorem adPictureReply_stage {item : AdPictureReq} {ret : Bool}
    (h : adPictureReply env u item w = some (ret, w')) :
    w'.stage = w.stage := by
  unfold adPictureReply at h
  split at h
  · simp only [Option.bind_eq_bind, Option.bind_eq_some_iff] at h
    obtain ⟨s, _, _, _, ⟨_, w₁⟩, hreply, h⟩ := h
    cases h
    rw [← getAdPicturesInfoFromDB_stage env item.imageId {} w]
    exact (messageReply_notified hreply).stage
  · split at h
    · simp only [Option.bind_eq_bind, Option.bind_eq_some_iff] at h
      obtain ⟨w₁, hopen, h⟩ := h
      rw [sendImageContent_stage h, openImage_stage hopen]
    · cases h
      rfl

/-- The pictures are followed by the hall. -/
theorem stateAdPictureDownloadMsgHandle_advanced {msgType : UInt32}
    {msg : Bytes} {ret : Bool}
    (h : stateAdPictureDownloadMsgHandle env u msgType msg w =
      some (ret, w')) : Advanced .downAd w w' := by
  unfold stateAdPictureDownloadMsgHandle at h
  split at h
  · unfold adPictureItemHandle at h
    split at h
    · cases h
      exact .of_eq rfl
    · simp only [Option.bind_eq_bind, Option.bind_eq_some_iff] at h
      obtain ⟨⟨ok, w₁⟩, hreply, s, _, w₂, hnext, h⟩ := h
      cases h
      have hlast : Advanced .downAd w₁ w' := by
        split at hnext
        · exact setNextState_advanced hnext
        · cases hnext
          exact .of_eq rfl
      exact hlast.after (adPictureReply_stage hreply)
  · exact .of_eq (echoMsgHandle_stage h)
  · cases h
    exact .of_eq rfl

theorem joinBoard_stage {locate : Location} {added : Bool}
    (h : joinBoard b u locate w = some (added, w')) :
    w'.stage = w.stage := by
  simp only [joinBoard, Option.bind_eq_bind, Option.bind_eq_some_iff] at h
  obtain ⟨w₁, hlocate, began, _, h⟩ := h
  rw [← modifyUser_stage hlocate fun _ => rfl]
  split at h
  · cases h
    rfl
  · split at h
    · cases h
      rfl
    · cases h
      rfl

theorem joinAccepted_advanced {locate : Location} {reply : RequestPlayReply}
    (h : joinAccepted b u locate w = some (reply, w')) :
    Advanced .gameReady w w' := by
  simp only [joinAccepted, Option.bind_eq_bind, Option.bind_eq_some_iff] at h
  obtain ⟨w₁, hstatus, w₂, hboard, info, _, w₃, hnext, h⟩ := h
  cases h
  have hsent : Advanced .gameReady _ w' := setNextState_advanced hnext
  refine hsent.after ?_
  rw [← modifyUser_stage hstatus fun _ => rfl,
    ← modifyUser_stage hboard fun _ => rfl]
  split <;> rfl

/-- A request that is granted is followed by the game. -/
theorem gameRequestHandle_advanced {msg : Bytes} {ret : Bool}
    (h : gameRequestHandle env u msg w = some (ret, w')) :
    Advanced .gameReady w w' := by
  unfold gameRequestHandle at h
  split at h
  · cases h
    exact .of_eq rfl
  · rename_i m _
    split at h
    · cases h
      exact .of_eq rfl
    · rename_i hall _
      have n := getChessBoardByID_notified hall m.chessBoardId.toUInt32 w
      simp only [Option.bind_eq_bind, Option.bind_eq_some_iff] at h
      obtain ⟨c, _, ⟨added, w₁⟩, hjoin, h⟩ := h
      have h₁ : w₁.stage = w.stage := (joinBoard_stage hjoin).trans n.stage
      split at h
      · simp only [Option.bind_eq_some_iff] at h
        obtain ⟨⟨reply, w₂⟩, haccept, ⟨_, w₃⟩, hreply, w₄, hsend, w₅, hhall,
          h⟩ := h
        cases h
        have hlast : w'.stage = w₂.stage := by
          rw [(broadCastHallInfo_notified hhall).stage,
            (broadCastMsg_notified hsend).stage,
            (messageReply_notified hreply).stage]
        exact ((joinAccepted_advanced haccept).before hlast).after h₁
      · simp only [Option.bind_eq_some_iff] at h
        obtain ⟨⟨_, w₂⟩, hreply, h⟩ := h
        cases h
        exact .of_eq ((messageReply_notified hreply).stage.trans h₁)

/-- So is any message in the hall, if it leads anywhere. -/
theorem stateGameReadyMsgHandle_advanced {msgType : UInt32} {msg : Bytes}
    {ret : Bool}
    (h : stateGameReadyMsgHandle env u msgType msg w = some (ret, w')) :
    Advanced .gameReady w w' := by
  unfold stateGameReadyMsgHandle at h
  split at h
  · exact .of_eq (gameHallSumaryHandle_stage h)
  · exact .of_eq (hallInfoReqHandle_stage h)
  · exact gameRequestHandle_advanced h
  · exact .of_eq (echoMsgHandle_stage h)
  · exact .of_eq (updateUserInfos_stage h)
  · cases h
    exact .of_eq rfl

theorem stateGamePlaySwitch_advanced {msgType : UInt32} {msg : Bytes}
    {ret : Bool} (h : stateGamePlaySwitch env u msgType msg w = some (ret, w')) :
    Advanced .gamePlay w w' := by
  unfold stateGamePlaySwitch at h
  split at h
  · exact .of_eq (gameHallSumaryHandle_stage h)
  · exact .of_eq (hallInfoReqHandle_stage h)
  · exact .of_eq (echoMsgHandle_stage h)
  · exact .of_eq (chessBoardReq_stage h)
  · exact .of_eq (updateUserInfos_stage h)
  · split at h
    · simp only [Option.bind_eq_bind, Option.bind_eq_some_iff] at h
      obtain ⟨s, _, h⟩ := h
      split at h
      · exact translateMsg_advanced h
      · exact .of_eq (translateMsgNull_notified (by assumption) h).2.2.2.stage
    · cases h
      exact .of_eq rfl
  · cases h
    exact .of_eq rfl

/-- The game is followed by the hall. -/
theorem stateGamePlayMsgHandle_advanced {msgType : UInt32} {msg : Bytes}
    {ret : Bool}
    (h : stateGamePlayMsgHandle env u msgType msg w = some (ret, w')) :
    Advanced .gamePlay w w' := by
  simp only [stateGamePlayMsgHandle, Option.bind_eq_bind,
    Option.bind_eq_some_iff] at h
  obtain ⟨⟨ok, w₁⟩, hswitch, h⟩ := h
  have h₁ := stateGamePlaySwitch_advanced hswitch
  split at h
  · cases h
    exact h₁
  · simp only [Option.bind_eq_some_iff] at h
    obtain ⟨w₂, hnext, w₃, hstatus, h⟩ := h
    cases h
    have h₂ : Advanced .gamePlay w₁ w₂ := setNextState_advanced hnext
    exact (h₁.trans h₂).before (modifyUser_stage hstatus fun _ => rfl)

/-- A message that is no login sends on, and changes no account. -/
theorem msgHandle_advanced {msgType : UInt32} {msg : Bytes} {ret : Bool}
    (hlogin : state = .auth → MessageType.ofCode msgType ≠ some .login)
    (h : state.msgHandle env u msgType msg w = some (ret, w')) :
    Advanced state w w' := by
  cases state with
  | auth => exact .of_eq (stateAuthMsgHandle_stage (hlogin rfl) h)
  | downAd => exact stateAdPictureDownloadMsgHandle_advanced h
  | gameReady => exact stateGameReadyMsgHandle_advanced h
  | gamePlay => exact stateGamePlayMsgHandle_advanced h

end ChessServer
