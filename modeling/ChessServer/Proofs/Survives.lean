import ChessServer.Lib.Returns
import ChessServer.Proofs.Login
import ChessServer.Proofs.Requests

/-!
# Handlers that cannot fail

What a handler follows when it serves its own session is there: the session,
its thread, its connection, and whoever is told the news
(`updateUserInfos_survives`, `stateAdPictureDownloadMsgHandle_survives`).  The
handlers that look for somebody else are in `Results.Crashes`.
-/

namespace ChessServer

variable {env : Env} {u : SessionId} {s : UserSession} {w : World}

/-- Session `u` is a guest of the world that a handler returns. -/
def Hosts {α : Type} (u : SessionId) (r : α × World) : Prop :=
  ∃ s, Guest r.2 u s

/-- A handler of `u` completes and keeps `u` connected. -/
def Survives {α : Type} (u : SessionId) (result : Option (α × World)) : Prop :=
  Returns (Hosts u) result

theorem Guest.survives {α : Type} (h : Guest w u s) (x : α) :
    Survives u (some (x, w)) := .pure ⟨s, h⟩

theorem Guest.thread (h : Guest w u s) : s.thread.isSome := h.online.thread

/-- A statement was sent. -/
theorem Guest.logged (h : Guest w u s) (log : List Bytes) :
    Guest { w with sqlLog := log } u s :=
  ⟨h.session, h.online, h.state, h.connected⟩

theorem Guest.buffer (h : Guest w u s) (size : Nat) :
    Guest (w.getBuffer u size) u s := h.notified (getBuffer_notified u size w)

/-- Assign fields that are no part of the connection. -/
theorem Guest.assign (h : Guest w u s) {f : UserSession → UserSession}
    (hclifd : (f s).place.clifd = s.place.clifd)
    (hthread : (f s).place.thread = s.place.thread)
    (hbufev : (f s).place.bufev = s.place.bufev)
    (hstate : (f s).place.stateMachine = s.place.stateMachine) :
    Returns (fun w' => Guest w' u (f s)) (w.modifyUser u f) :=
  ⟨_, modifyUser_eq h.session f, h.set hclifd hthread hbufev hstate⟩

/-- A guest can be replied to. -/
theorem Guest.replies (h : Guest w u s) (env : Env) (type : MessageType)
    (body : Payload) :
    Returns (fun r => Guest r.2 u s) (messageReply env u type body w) := by
  obtain ⟨w', hreply, n, _⟩ := h.reply env type body
  exact ⟨_, hreply, h.notified n⟩

/-! ## State -/

theorem echoMsgHandle_survives (env : Env) (msg : Bytes) (h : Guest w u s) :
    Survives u (echoMsgHandle env u msg w) := by
  unfold echoMsgHandle
  apply (h.replies env _ _).bind
  intro r g
  exact g.survives true

theorem hallInfoReqHandle_survives (env : Env) (msg : Bytes)
    (h : Guest w u s) : Survives u (hallInfoReqHandle env u msg w) := by
  unfold hallInfoReqHandle
  cases env.proto.hallInfoReq msg with
  | none => exact h.survives true
  | some req =>
      obtain ⟨info, w₁, hwrap⟩ :=
        wrapHallInfo_completes req.gameHallId.toUInt32 h.connected
      have g₁ := h.notified (wrapHallInfo_notified hwrap)
      apply Returns.bind_some hwrap
      cases info with
      | none => exact g₁.survives true
      | some info =>
          apply (g₁.replies env _ _).bind
          intro r g
          exact g.survives true

theorem gameHallSumaryHandle_survives (env : Env) (h : Guest w u s) :
    Survives u (gameHallSumaryHandle env u w) := by
  unfold gameHallSumaryHandle
  apply Returns.bind_some h.session
  apply (h.replies env _ _).bind
  intro r g
  exact g.survives true

/-- One field: what follows it is reached with `u` still connected. -/
theorem updateField_bind {value : Option Bytes}
    {set : Bytes → UsersInfo → UsersInfo}
    {toDB : Bytes → Bytes → World → Bool × World}
    {k : World → Option (Bool × World)}
    (hlog : ∀ account value w, ∃ log,
      (toDB account value w).2 = { w with sqlLog := log })
    (h : Guest w u s) (hk : ∀ w' s', Guest w' u s' → Survives u (k w')) :
    Survives u ((updateField u value set toDB w).bind k) := by
  cases value with
  | none => exact hk w s h
  | some value =>
      refine Returns.bind (p := fun w' => ∃ s', Guest w' u s') ?_
        fun w' hw' => hw'.elim (hk w')
      unfold updateField
      apply Returns.bind_some h.session
      apply (Returns.of_isSome h.thread).bind
      intro _ _
      obtain ⟨log, hlog⟩ := hlog s.userInfo.account value
        (w.setUser u { s with userInfo := set value s.userInfo })
      have g : Guest (w.setUser u { s with userInfo := set value s.userInfo })
          u { s with userInfo := set value s.userInfo } :=
        h.set rfl rfl rfl rfl
      dsimp only
      rw [hlog]
      exact .pure ⟨_, g.logged log⟩

/-- Editing one's own data completes. -/
theorem updateUserInfos_survives (env : Env) (msg : Bytes)
    (h : Guest w u s) : Survives u (updateUserInfos env u msg w) := by
  unfold updateUserInfos
  cases env.proto.updateUserInfo msg with
  | none => exact h.survives true
  | some info =>
      apply Returns.bind_some h.session
      apply updateField_bind (fun _ _ _ => ⟨_, rfl⟩) h
      intro w₁ s₁ g₁
      apply updateField_bind (fun _ _ _ => ⟨_, rfl⟩) g₁
      intro w₂ s₂ g₂
      apply updateField_bind (fun _ _ _ => ⟨_, rfl⟩) g₂
      intro w₃ s₃ g₃
      apply updateField_bind (fun _ _ _ => ⟨_, rfl⟩) g₃
      intro w₄ s₄ g₄
      apply updateField_bind (fun _ _ _ => ⟨_, rfl⟩) g₄
      intro w₅ s₅ g₅
      exact g₅.survives true

/-! ## StateAuth -/

/-- Registering completes. -/
theorem handleRegister_survives (env : Env) (msg : Bytes)
    (h : Guest w u s) : Survives u (handleRegister env u msg w) := by
  unfold handleRegister
  cases env.proto.register msg with
  | none => exact h.survives true
  | some info =>
      apply Returns.bind_some h.session
      apply (Returns.of_isSome h.thread).bind
      intro _ _
      apply ((h.logged _).replies env _ _).bind
      intro r g
      exact g.survives true

/-- Everybody whose account is looked at is there. -/
theorem getIndividualUser_completes (account : Bytes)
    (hc : w.layout.Connected) :
    ∃ free, getIndividualUser account w = some free := by
  obtain ⟨found, hfound, _⟩ := OptionFold.completes (P := fun _ => True)
    (f := fun found v => if found then some true
      else (w.users v).map fun s => s.userInfo.account == account)
    (w.fdSessionMap.toList.map Prod.snd) (a := false) trivial
    fun found v hv _ => by
      cases found with
      | true => exact ⟨true, rfl, trivial⟩
      | false =>
          obtain ⟨fd, hreg⟩ := mem_fdSessionMap hv
          obtain ⟨p, hp, _⟩ := hc.registered hreg
          obtain ⟨s, hs, _⟩ := place_session hp
          exact ⟨s.userInfo.account == account, by simp [hs], trivial⟩
  exact ⟨!found, by
    simp only [getIndividualUser, hfound, Option.bind_eq_bind,
      Option.bind_some]⟩

/-- An accepted login completes. -/
theorem loginAccepted_survives (env : Env) (h : Guest w u s) :
    Survives u (loginAccepted env u w) := by
  obtain ⟨log, hphoto⟩ : ∃ log, (getHeadImageFromDB env s.userInfo.account
      s.userInfo.headPhoto w).2.2 = { w with sqlLog := log } := by
    unfold getHeadImageFromDB
    dsimp only
    split <;> exact ⟨_, rfl⟩
  have hversion (w : World) : ∃ log, (getImageVersionInfoFromDB env {} w).2.2 =
      { w with sqlLog := log } := by
    unfold getImageVersionInfoFromDB
    dsimp only
    split <;> exact ⟨_, rfl⟩
  unfold loginAccepted
  apply Returns.bind_some h.session
  dsimp only
  rw [hphoto]
  apply ((h.logged log).assign rfl rfl rfl rfl).bind
  intro w₁ g₁
  apply Returns.bind_some g₁.session
  obtain ⟨log', hlog'⟩ := hversion w₁
  dsimp only
  rw [hlog']
  exact (g₁.logged log').survives _

/-! ## StateAdPictureDownload -/

/-- Asking for a picture leaves a statement. -/
theorem getAdPicturesInfoFromDB_logged (env : Env) (id : UInt32)
    (info : AdPicturesInfo) (w : World) :
    ∃ log, (getAdPicturesInfoFromDB env id info w).2.2 =
      { w with sqlLog := log } := by
  unfold getAdPicturesInfoFromDB
  dsimp only
  split <;> exact ⟨_, rfl⟩

theorem sendImageContent_survives (env : Env) (h : Guest w u s) :
    Survives u (sendImageContent env u w) := by
  have g := h.buffer maxDataLength
  unfold sendImageContent
  apply Returns.bind_some g.session
  cases s.adImgFp with
  | none => exact g.survives false
  | some fp =>
      dsimp only
      apply Returns.ite
      · intro _
        apply (g.assign rfl rfl rfl rfl).bind
        intro w₁ g₁
        apply (g₁.replies env _ _).bind
        intro r g₂
        apply Returns.ite
        · intro _
          exact g₂.survives true
        · intro _
          apply (g₂.assign rfl rfl rfl rfl).bind
          intro w₃ g₃
          exact g₃.survives false
      · intro _
        apply (g.assign rfl rfl rfl rfl).bind
        intro w₁ g₁
        apply (g₁.replies env _ _).bind
        intro r g₂
        exact g₂.survives true

theorem openImage_survives (env : Env) (imageId : UInt32)
    (h : Guest w u s) :
    Returns (fun w' => ∃ s', Guest w' u s') (openImage env u imageId w) := by
  unfold openImage
  apply Returns.bind_some h.session
  apply Returns.ite
  · intro _
    apply (Returns.of_isSome h.thread).bind
    intro _ _
    obtain ⟨log, hlog⟩ := getAdPicturesInfoFromDB_logged env imageId {} w
    dsimp only
    rw [hlog]
    apply Returns.ite
    · intro _
      apply ((h.logged log).assign rfl rfl rfl rfl).mono
      intro w₁ g₁
      exact ⟨_, g₁⟩
    · intro _
      exact .pure ⟨s, h.logged log⟩
  · intro _
    exact .pure ⟨s, h⟩

/-- A request for a picture completes, whether or not it can be opened. -/
theorem adPictureReply_survives (env : Env) (item : AdPictureReq)
    (h : Guest w u s) : Survives u (adPictureReply env u item w) := by
  unfold adPictureReply
  apply Returns.ite
  · intro _
    apply Returns.bind_some h.session
    apply (Returns.of_isSome h.thread).bind
    intro _ _
    obtain ⟨log, hlog⟩ := getAdPicturesInfoFromDB_logged env item.imageId {} w
    dsimp only
    rw [hlog]
    apply ((h.logged log).replies env _ _).bind
    intro r g
    exact g.survives true
  · intro _
    apply Returns.ite
    · intro _
      apply (openImage_survives env item.imageId h).bind
      intro w₁ hw₁
      obtain ⟨s₁, g₁⟩ := hw₁
      exact sendImageContent_survives env g₁
    · intro _
      exact h.survives true

theorem setNextState_survives (state : StateType) (h : Guest w u s) :
    Returns (fun w' => ∃ s', Guest w' u s') (setNextState u state w) :=
  (h.assign (f := fun s => { s with nextState := some state }) rfl rfl rfl
    rfl).mono fun _ g => ⟨_, g⟩

/-- So does any message while pictures are sent. -/
theorem stateAdPictureDownloadMsgHandle_survives (env : Env)
    (msgType : UInt32) (msg : Bytes) (h : Guest w u s) :
    Survives u (stateAdPictureDownloadMsgHandle env u msgType msg w) := by
  unfold stateAdPictureDownloadMsgHandle
  split
  · unfold adPictureItemHandle
    cases env.proto.adPictureReq msg with
    | none => exact h.survives true
    | some item =>
        apply (adPictureReply_survives env item h).bind
        intro r hr
        obtain ⟨s₁, g₁⟩ := hr
        apply Returns.bind_some g₁.session
        apply Returns.bind (p := fun w' => ∃ s', Guest w' u s')
        · apply Returns.ite
          · intro _
            exact setNextState_survives .gameReady g₁
          · intro _
            exact .pure ⟨s₁, g₁⟩
        · intro w₂ hw₂
          obtain ⟨s₂, g₂⟩ := hw₂
          exact g₂.survives r.1
  · exact echoMsgHandle_survives env _ h
  · exact h.survives false

end ChessServer
