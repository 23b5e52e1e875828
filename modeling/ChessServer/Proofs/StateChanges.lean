import ChessServer.Proofs.GameChanges

/-!
# The changes that the state objects make

The handlers of `StateAuth`, `StateAdPictureDownload`, `StateGameReady` and
`StateGamePlay` as sequences of elementary changes.  Each assignment is
allowed in one state only, so the lemmas carry the state of the session
(`msgHandle_changes`).
-/

namespace ChessServer

variable {u : SessionId}

/-- In the hall and in the game a session has logged in. -/
theorem World.InState.inHall {w : World} {state : StateType}
    (hu : w.InState u state) (h : state = .gameReady ∨ state = .gamePlay) :
    w.InHall u := by
  obtain ⟨s, hs, hstate⟩ := hu
  rcases h with rfl | rfl
  · exact ⟨s, hs, Or.inl hstate⟩
  · exact ⟨s, hs, Or.inr hstate⟩

/-! ## Requests that any state may answer -/

theorem echoMsgHandle_changes {env : Env} {msg : Bytes} {w w' : World}
    {ret : Bool} (h : echoMsgHandle env u msg w = some (ret, w')) :
    Changes u w w' := by
  simp only [echoMsgHandle, Option.bind_eq_bind, Option.bind_eq_some_iff] at h
  obtain ⟨⟨_, w₁⟩, hreply, h⟩ := h
  cases h
  exact messageReply_changes hreply fun _ => trivial

theorem hallInfoReqHandle_changes {env : Env} {msg : Bytes} {w w' : World}
    {ret : Bool} (h : hallInfoReqHandle env u msg w = some (ret, w')) :
    Changes u w w' := by
  unfold hallInfoReqHandle at h
  split at h
  · cases h
    exact .refl w
  · simp only [Option.bind_eq_bind, Option.bind_eq_some_iff] at h
    obtain ⟨⟨info, w₁⟩, hwrap, h⟩ := h
    obtain ⟨c₁, hsound⟩ := wrapHallInfo_changes (u := u) hwrap
    have n₁ := wrapHallInfo_notified hwrap
    cases info with
    | none =>
        cases h
        exact c₁
    | some info =>
        simp only [Option.bind_eq_some_iff] at h
        obtain ⟨⟨_, w₂⟩, hreply, h⟩ := h
        cases h
        exact c₁.trans (messageReply_changes hreply fun hcounted =>
          hsound (n₁.counted.mp hcounted) info rfl)

theorem chessBoardReq_changes {env : Env} {msg : Bytes} {w w' : World}
    {ret : Bool} (h : chessBoardReq env u msg w = some (ret, w')) :
    Changes u w w' := by
  unfold chessBoardReq at h
  split at h
  · cases h
    exact .refl w
  · simp only [Option.bind_eq_bind, Option.bind_eq_some_iff] at h
    obtain ⟨_, _, _, _, info, hinfo, ⟨_, w₁⟩, hreply, h⟩ := h
    cases h
    exact messageReply_changes hreply (wrapChessBoardInfo_sound hinfo)

/-- A field that is changed is stored in the database as well. -/
theorem updateField_changes {value : Option Bytes}
    {set : Bytes → UsersInfo → UsersInfo}
    {toDB : Bytes → Bytes → World → Bool × World} {w w' : World}
    (h : updateField u value set toDB w = some w') (hu : w.InHall u)
    (hset : ∀ x i, (set x i).account = i.account ∧ (set x i).score = i.score)
    (htoDB : ∀ account x w, ∃ sql,
      (toDB account x w).2 = { w with sqlLog := sql :: w.sqlLog }) :
    Changes u w w' ∧ w'.InHall u := by
  unfold updateField at h
  split at h
  · cases h
    exact ⟨.refl w, hu⟩
  · rename_i x
    simp only [Option.bind_eq_bind, Option.bind_eq_some_iff] at h
    obtain ⟨s, hs, _, _, h⟩ := h
    cases h
    have hu' : (w.setUser u
        { s with userInfo := set x s.userInfo }).InHall u := by
      refine hu.congr ?_
      rw [layout_setUser hs, Layout.modify_self]
      simp [World.layout, hs, UserSession.place]
    obtain ⟨hacc, hscore⟩ := hset x s.userInfo
    have c₁ := Changes.single (.edit hs hu hacc hscore)
    obtain ⟨sql, hsql⟩ := htoDB s.userInfo.account x
      (w.setUser u { s with userInfo := set x s.userInfo })
    rw [hsql]
    exact ⟨c₁.trans (.single (.update sql hu')), hu'⟩

/-- Editing one's own data sends an `UPDATE` for it. -/
theorem updateUserInfos_changes {env : Env} {msg : Bytes} {w w' : World}
    {ret : Bool} (hu : w.InHall u)
    (h : updateUserInfos env u msg w = some (ret, w')) : Changes u w w' := by
  unfold updateUserInfos at h
  split at h
  · cases h
    exact .refl w
  · simp only [Option.bind_eq_bind, Option.bind_eq_some_iff] at h
    obtain ⟨s, _, w₁, h₁, w₂, h₂, w₃, h₃, w₄, h₄, w₅, h₅, h⟩ := h
    cases h
    obtain ⟨c₁, hu₁⟩ := updateField_changes h₁ hu (fun _ _ => ⟨rfl, rfl⟩)
      fun _ _ _ => ⟨_, rfl⟩
    obtain ⟨c₂, hu₂⟩ := updateField_changes h₂ hu₁ (fun _ _ => ⟨rfl, rfl⟩)
      fun _ _ _ => ⟨_, rfl⟩
    obtain ⟨c₃, hu₃⟩ := updateField_changes h₃ hu₂ (fun _ _ => ⟨rfl, rfl⟩)
      fun _ _ _ => ⟨_, rfl⟩
    obtain ⟨c₄, hu₄⟩ := updateField_changes h₄ hu₃ (fun _ _ => ⟨rfl, rfl⟩)
      fun _ _ _ => ⟨_, rfl⟩
    obtain ⟨c₅, _⟩ := updateField_changes h₅ hu₄ (fun _ _ => ⟨rfl, rfl⟩)
      fun _ _ _ => ⟨_, rfl⟩
    exact (((c₁.trans c₂).trans c₃).trans c₄).trans c₅

/-! ## StateAuth -/

/-- A statement that does not begin with `U`. -/
theorem isUpdate_eq_false {c : UInt8} {sql : Bytes}
    (h : sql.head? = some c) (hc : c ≠ 85) : isUpdate sql = false := by
  cases sql with
  | nil => cases h
  | cons d rest =>
      cases h
      have hlit : lit "UPDATE" = [85, 80, 68, 65, 84, 69] := by
        decide +kernel
      simp [isUpdate, hlit, List.isPrefixOf, hc.symm]

/-- A statement that is cut begins as it should. -/
theorem snprintf_head {size : Nat} {text rest : Bytes} {c : UInt8}
    (htext : text.head? = some c) :
    (snprintf (size + 2) (text ++ rest)).head? = some c := by
  cases text with
  | nil => cases htext
  | cons d text =>
      cases htext
      simp [snprintf]

theorem query_changes (env : Env) {sql : Bytes} (w : World)
    (hsql : isUpdate sql = false) : Changes u w (w.query env sql).2 :=
  .single (.read hsql)

theorem modifyUserInfo_changes {g : UserSession → UsersInfo} {w w' : World}
    (hu : w.InState u .auth)
    (h : (w.modifyUser u fun s => { s with userInfo := g s }) = some w') :
    Changes u w w' := by
  obtain ⟨s, hs, hstate⟩ := hu
  rw [modifyUser_eq hs] at h
  cases h
  exact .single (.load (g s) hs hstate)

/-- Registering makes elementary changes only. -/
theorem handleRegister_changes {env : Env} {msg : Bytes} {w w' : World}
    {ret : Bool} (h : handleRegister env u msg w = some (ret, w')) :
    Changes u w w' := by
  unfold handleRegister at h
  split at h
  · cases h
    exact .refl w
  · simp only [Option.bind_eq_bind, Option.bind_eq_some_iff] at h
    obtain ⟨s, _, _, _, ⟨_, w₁⟩, hreply, h⟩ := h
    cases h
    refine Changes.trans (query_changes env w ?_)
      (messageReply_changes hreply fun _ => trivial)
    have hinsert : (lit "INSERT INTO users_info (account,password,email,score,head_photo,user_name,phone) VALUES ('").head? =
        some 73 := by decide +kernel
    simp only [List.append_assoc]
    exact isUpdate_eq_false (snprintf_head hinsert) (by decide)

/-- A `SELECT` is no `UPDATE`. -/
theorem select_not_update {size : Nat} {text rest : Bytes}
    (htext : text.head? = some 83) :
    isUpdate (snprintf (size + 2) (text ++ rest)) = false :=
  isUpdate_eq_false (snprintf_head htext) (by decide)

theorem mysqlDbQuery_changes {env : Env} {sql : Bytes} {info info' : UsersInfo}
    {ret : Int} {w w' : World} (hsql : isUpdate sql = false)
    (h : mysqlDbQuery env sql info w = some (ret, info', w')) :
    Changes u w w' := by
  unfold mysqlDbQuery at h
  dsimp only at h
  split at h
  · simp only [Option.bind_eq_bind, Option.bind_eq_some_iff] at h
    obtain ⟨_, _, h⟩ := h
    cases h
    exact query_changes env w hsql
  · cases h
    exact query_changes env w hsql

theorem getUsersInfoFromDB_changes {env : Env} {account : Bytes}
    {info info' : UsersInfo} {found : Bool} {w w' : World}
    (h : getUsersInfoFromDB env account info w = some (found, info', w')) :
    Changes u w w' := by
  unfold getUsersInfoFromDB at h
  split at h
  · cases h
    exact .refl w
  · simp only [Option.bind_eq_bind, Option.bind_eq_some_iff] at h
    obtain ⟨⟨_, _, w₁⟩, hquery, h⟩ := h
    cases h
    refine mysqlDbQuery_changes ?_ hquery
    simp only [List.append_assoc]
    exact select_not_update (by decide +kernel)

theorem getHeadImageFromDB_changes (env : Env) (account data : Bytes)
    (w : World) : Changes u w (getHeadImageFromDB env account data w).2.2 := by
  have hsql : isUpdate (snprintf 254
      (lit "SELECT head_photo FROM users_info WHERE account='" ++
        cString account ++ lit "'")) = false := by
    simp only [List.append_assoc]
    exact select_not_update (by decide +kernel)
  unfold getHeadImageFromDB
  dsimp only
  split <;> exact query_changes env w hsql

theorem getImageVersionInfoFromDB_changes (env : Env) (info : ImageVersions)
    (w : World) :
    Changes u w (getImageVersionInfoFromDB env info w).2.2 := by
  have hsql : isUpdate (lit
      "SELECT version, mandatory_update, image_info, locate_path FROM image_version ORDER BY id DESC limit 1") =
      false := by decide +kernel
  unfold getImageVersionInfoFromDB
  dsimp only
  split <;> exact query_changes env w hsql

theorem getAdPicturesInfoFromDB_changes (env : Env) (id : UInt32)
    (info : AdPicturesInfo) (w : World) :
    Changes u w (getAdPicturesInfoFromDB env id info w).2.2 := by
  have hsql : isUpdate (snprintf 254
      (lit "SELECT * FROM ad_pictures WHERE id=" ++ decimal id)) = false :=
    select_not_update (by decide +kernel)
  unfold getAdPicturesInfoFromDB
  dsimp only
  split <;> exact query_changes env w hsql

theorem loginAccepted_changes {env : Env} {status : ReplyStatus}
    {w w' : World} (hu : w.InState u .auth)
    (h : loginAccepted env u w = some (status, w')) : Changes u w w' := by
  simp only [loginAccepted, Option.bind_eq_bind, Option.bind_eq_some_iff] at h
  obtain ⟨s, _, w₁, hphoto, s₁, _, h⟩ := h
  cases h
  have q₁ := (getHeadImageFromDB_quiet env s.userInfo.account
    s.userInfo.headPhoto w).own u
  have c₁ := getHeadImageFromDB_changes (u := u) env s.userInfo.account
    s.userInfo.headPhoto w
  have c₂ := modifyUserInfo_changes (q₁.inState hu) hphoto
  exact (c₁.trans c₂).trans (getImageVersionInfoFromDB_changes env {} w₁)

/-- So does a login, which loads a row. -/
theorem checkLogin_changes {env : Env} {login : LogOnorOut} {ret : Bool}
    {status : ReplyStatus} {w w' : World} (hu : w.InState u .auth)
    (h : checkLogin env u login w = some (ret, status, w')) :
    Changes u w w' := by
  simp only [checkLogin, Option.bind_eq_bind, Option.bind_eq_some_iff] at h
  obtain ⟨s, _, _, _, free, _, h⟩ := h
  split at h
  · cases h
    exact .refl w
  · simp only [Option.bind_eq_some_iff] at h
    obtain ⟨⟨found, info, w₁⟩, hquery, w₂, hinfo, h⟩ := h
    have q₁ := (getUsersInfoFromDB_quiet hquery).own u
    have q₂ : Own u w₁ w₂ := modifyUser_own hinfo (fun _ _ => .of_eq rfl)
      fun hstate => absurd (q₁.inState hu) hstate
    have c₁ := getUsersInfoFromDB_changes (u := u) hquery
    have c₂ := modifyUserInfo_changes (q₁.inState hu) hinfo
    have c := c₁.trans c₂
    have hu₂ := (q₁.trans q₂).inState hu
    split at h
    · cases h
      exact c
    · split at h
      · simp only [Option.bind_eq_some_iff] at h
        obtain ⟨⟨status, w₃⟩, haccept, h⟩ := h
        cases h
        exact c.trans (loginAccepted_changes hu₂ haccept)
      · simp only [Option.bind_eq_some_iff] at h
        obtain ⟨w₃, hclear, h⟩ := h
        cases h
        exact c.trans (modifyUserInfo_changes hu₂ hclear)

theorem setNextState_changes {state next : StateType} {w w' : World}
    (hu : w.InState u state)
    (hnext : (state, next) ∈ [(.auth, .downAd), (.downAd, .gameReady),
      (.gameReady, .gamePlay), (.gamePlay, .gameReady)])
    (h : setNextState u next w = some w') : Changes u w w' := by
  obtain ⟨s, hs, hstate⟩ := hu
  simp only [setNextState, modifyUser_eq hs, Option.some.injEq] at h
  subst h
  exact .single (.advance hs hstate hnext)

theorem handleLogin_changes {env : Env} {msg : Bytes} {w w' : World}
    {ret : Bool} (hu : w.InState u .auth)
    (h : handleLogin env u msg w = some (ret, w')) : Changes u w w' := by
  unfold handleLogin at h
  split at h
  · cases h
    exact .refl w
  · simp only [Option.bind_eq_bind, Option.bind_eq_some_iff] at h
    obtain ⟨⟨_, _, w₁⟩, hcheck, ⟨_, w₂⟩, hreply, h⟩ := h
    cases h
    exact (checkLogin_changes hu hcheck).trans
      (messageReply_changes hreply fun _ => trivial)

/-- And everything else in the login state. -/
theorem stateAuthMsgHandle_changes {env : Env} {msgType : UInt32}
    {msg : Bytes} {w w' : World} {ret : Bool} (hu : w.InState u .auth)
    (h : stateAuthMsgHandle env u msgType msg w = some (ret, w')) :
    Changes u w w' := by
  unfold stateAuthMsgHandle at h
  split at h
  · exact handleRegister_changes h
  · simp only [Option.bind_eq_bind, Option.bind_eq_some_iff] at h
    obtain ⟨⟨ok, w₁⟩, hlogin, w₂, hnext, h⟩ := h
    cases h
    have c := handleLogin_changes hu hlogin
    split at hnext
    · exact c.trans (setNextState_changes
        ((handleLogin_own hu hlogin).inState hu) (by decide) hnext)
    · cases hnext
      exact c
  · cases h
    exact .refl w
  · exact echoMsgHandle_changes h
  · unfold handleFindPwd at h
    split at h
    · cases h
      exact .refl w
    · cases h
      exact .single (.request _)
  · cases h
    exact .refl w

/-! ## StateAdPictureDownload -/

theorem modifyFp_changes {g : UserSession → Option Bytes} {w w' : World}
    (hu : w.InState u .downAd)
    (h : (w.modifyUser u fun s => { s with adImgFp := g s }) = some w') :
    Changes u w w' := by
  obtain ⟨s, hs, hstate⟩ := hu
  rw [modifyUser_eq hs] at h
  cases h
  exact .single (.download (g s) hs hstate)

theorem sendImageContent_changes {env : Env} {w w' : World} {ret : Bool}
    (hu : w.InState u .downAd)
    (h : sendImageContent env u w = some (ret, w')) : Changes u w w' := by
  simp only [sendImageContent, Option.bind_eq_bind,
    Option.bind_eq_some_iff] at h
  obtain ⟨s, _, h⟩ := h
  have q := (getBuffer_notified u maxDataLength w).own u
  have c := Changes.single (u := u) (.buffer (w := w) u maxDataLength)
  have hu₁ := q.inState hu
  split at h
  · cases h
    exact c
  · split at h
    · simp only [Option.bind_eq_some_iff] at h
      obtain ⟨w₁, hread, ⟨ok, w₂⟩, hreply, h⟩ := h
      have q₁ : Own u _ w₁ :=
        modifyUser_own hread (fun _ _ => .of_eq rfl) fun _ _ => rfl
      have c₁ := modifyFp_changes hu₁ hread
      have q₂ := (messageReply_notified hreply).own u
      have c₂ := messageReply_changes (u := u) hreply fun _ => trivial
      dsimp only at h
      split at h
      · cases h
        exact (c.trans c₁).trans c₂
      · simp only [Option.bind_eq_some_iff] at h
        obtain ⟨w₃, hclose, h⟩ := h
        cases h
        exact ((c.trans c₁).trans c₂).trans
          (modifyFp_changes ((q₁.trans q₂).inState hu₁) hclose)
    · simp only [Option.bind_eq_some_iff] at h
      obtain ⟨w₁, hclose, ⟨_, w₂⟩, hreply, h⟩ := h
      cases h
      exact (c.trans (modifyFp_changes hu₁ hclose)).trans
        (messageReply_changes hreply fun _ => trivial)

theorem openImage_changes {env : Env} {id : UInt32} {w w' : World}
    (hu : w.InState u .downAd) (h : openImage env u id w = some w') :
    Changes u w w' := by
  simp only [openImage, Option.bind_eq_bind, Option.bind_eq_some_iff] at h
  obtain ⟨s, _, h⟩ := h
  split at h
  · simp only [Option.bind_eq_some_iff] at h
    obtain ⟨_, _, h⟩ := h
    have q := (getAdPicturesInfoFromDB_quiet env id {} w).own u
    have c := getAdPicturesInfoFromDB_changes (u := u) env id {} w
    split at h
    · exact c.trans (modifyFp_changes (q.inState hu) h)
    · cases h
      exact c
  · cases h
    exact .refl w

theorem adPictureReply_changes {env : Env} {item : AdPictureReq}
    {w w' : World} {ret : Bool} (hu : w.InState u .downAd)
    (h : adPictureReply env u item w = some (ret, w')) : Changes u w w' := by
  unfold adPictureReply at h
  split at h
  · simp only [Option.bind_eq_bind, Option.bind_eq_some_iff] at h
    obtain ⟨s, _, _, _, ⟨_, w₁⟩, hreply, h⟩ := h
    cases h
    exact (getAdPicturesInfoFromDB_changes env item.imageId {} w).trans
      (messageReply_changes hreply fun _ => trivial)
  · split at h
    · simp only [Option.bind_eq_bind, Option.bind_eq_some_iff] at h
      obtain ⟨w₁, hopen, h⟩ := h
      exact (openImage_changes hu hopen).trans
        (sendImageContent_changes ((openImage_own hopen).inState hu) h)
    · cases h
      exact .refl w

/-- Sending pictures opens and closes files. -/
theorem stateAdPictureDownloadMsgHandle_changes {env : Env}
    {msgType : UInt32} {msg : Bytes} {w w' : World} {ret : Bool}
    (hu : w.InState u .downAd)
    (h : stateAdPictureDownloadMsgHandle env u msgType msg w =
      some (ret, w')) : Changes u w w' := by
  unfold stateAdPictureDownloadMsgHandle at h
  split at h
  · unfold adPictureItemHandle at h
    split at h
    · cases h
      exact .refl w
    · simp only [Option.bind_eq_bind, Option.bind_eq_some_iff] at h
      obtain ⟨⟨ok, w₁⟩, hreply, s, _, w₂, hnext, h⟩ := h
      cases h
      have c := adPictureReply_changes hu hreply
      split at hnext
      · exact c.trans (setNextState_changes
          ((adPictureReply_own hreply).inState hu) (by decide) hnext)
      · cases hnext
        exact c
  · exact echoMsgHandle_changes h
  · cases h
    exact .refl w

/-! ## StateGameReady -/

/-- The owner's mark is no chair. -/
@[simp] theorem firstCome_seat (board : ChessBoard) (locate : UInt32) :
    ({ board with firstComeUserLocate := locate } : ChessBoard).seat =
      board.seat := by
  funext seat
  cases seat <;> rfl

/-- A request that is granted enters a board whose snapshot is right. -/
theorem joinAccepted_changes {c : BoardPtr} {seat : Seat} {s : UserSession}
    {locate : Location} {reply : RequestPlayReply} {w w' : World}
    (hs : w.users u = some s) (hstate : s.stateMachine = some .gameReady)
    (hseat : (w.boards c).seat seat = some u)
    (h : joinAccepted c u locate w = some (reply, w')) :
    Changes u w w' ∧ (w'.Counted → ∀ info ∈ reply.chessBoard, info.Sound) := by
  simp only [joinAccepted, modifyUser_eq hs, setNextState,
    Option.bind_eq_bind, Option.bind_some, Option.bind_eq_some_iff,
    modifyUser_eq (setUser_users_self _ _ _), setUser_setUser] at h
  obtain ⟨info, hinfo, w₁, hnext, h⟩ := h
  cases h
  have c₁ := Changes.single (u := u) (.mark .ready hs hseat)
  have c₂ := Changes.single (u := u) (.enter
    (setUser_users_self w u { s with status := .ready }) hseat)
  rw [setUser_setUser] at c₂
  have c₁₂ := c₁.trans c₂
  have hboards : ((w.setUser u { s with
      status := .ready
      currChessBoard := some c }).boards c).currUserNum =
      (w.boards c).currUserNum := rfl
  rw [hboards] at hinfo hnext
  have hadvance : (StateType.gameReady, StateType.gamePlay) ∈
      [(StateType.auth, .downAd), (.downAd, .gameReady),
        (.gameReady, .gamePlay), (.gamePlay, .gameReady)] := by decide
  by_cases hone : (w.boards c).currUserNum = 1
  · rw [if_pos hone] at hinfo hnext
    have c₃ := Changes.single (u := u) (.note
      (w := w.setUser u { s with
        status := .ready
        currChessBoard := some c })
      (firstCome_seat (w.boards c) locate) rfl)
    have hu : ((w.setUser u { s with
        status := .ready
        currChessBoard := some c }).modifyBoard c fun _ =>
          { w.boards c with firstComeUserLocate := locate }).users u =
        some { s with
          status := .ready
          currChessBoard := some c } := setUser_users_self _ _ _
    have hnext' := modifyUser_eq hu fun s =>
      { s with nextState := some .gamePlay }
    have hworld := hnext.symm.trans hnext'
    cases hworld
    refine ⟨(c₁₂.trans c₃).trans (.single (.advance hu hstate hadvance)),
      fun hcounted i hi => ?_⟩
    cases hi
    exact wrapChessBoardInfo_sound hinfo hcounted
  · rw [if_neg hone] at hinfo hnext
    rw [modifyUser_eq (setUser_users_self _ _ _)] at hnext
    cases hnext
    refine ⟨c₁₂.trans (.single (.advance (setUser_users_self _ _ _) hstate
      hadvance)), fun hcounted i hi => ?_⟩
    cases hi
    exact wrapChessBoardInfo_sound hinfo hcounted

/-- The board that was looked up is published. -/
theorem getChessBoardByID_known {hall id : UInt32} {c : BoardPtr}
    {w : World} (h : (w.getChessBoardByID hall id).1 = some c) :
    ((w.getChessBoardByID hall id).2.halls hall).chessBoardInfo[id]? =
      some c := by
  unfold World.getChessBoardByID at h ⊢
  split at h
  · cases h
  · rename_i hid
    rw [if_neg hid]
    split at h
    · rename_i found hfound
      cases h
      exact hfound
    · dsimp only at h ⊢
      split at h
      · rename_i hret
        rw [if_pos hret]
        exact h
      · cases h

/-- A request for a chair, granted or not. -/
theorem gameRequestHandle_changes {env : Env} {msg : Bytes} {w w' : World}
    {ret : Bool} (hu : w.InState u .gameReady)
    (h : gameRequestHandle env u msg w = some (ret, w')) :
    Changes u w w' := by
  unfold gameRequestHandle at h
  split at h
  · cases h
    exact .refl w
  · rename_i m _
    split at h
    · cases h
      exact .refl w
    · rename_i hall hhall
      obtain ⟨_, hself⟩ := getGameHall_self hhall
      have n₁ := getChessBoardByID_notified hall m.chessBoardId.toUInt32 w
      have c₁ := getChessBoardByID_changes (u := u)
        m.chessBoardId.toUInt32 w hself
      have hknown : ∀ c,
          (w.getChessBoardByID hall m.chessBoardId.toUInt32).1 = some c →
          ∃ hall' id : UInt32,
            ((w.getChessBoardByID hall m.chessBoardId.toUInt32).2.halls
              hall').chessBoardInfo[id]? = some c :=
        fun c hc => ⟨_, _, getChessBoardByID_known hc⟩
      revert h c₁ n₁ hknown
      generalize w.getChessBoardByID hall m.chessBoardId.toUInt32 = found
      obtain ⟨chessBoard, w₁⟩ := found
      intro h n₁ c₁ hknown
      simp only [Option.bind_eq_bind, Option.bind_eq_some_iff] at h n₁ c₁
      obtain ⟨c, rfl, ⟨ok, w₂⟩, hjoin, h⟩ := h
      obtain ⟨s, hs, hstate⟩ := hu
      have hs₁ : w₁.users u = some s := by rw [n₁.users, hs]
      have c₂ := c₁.trans
        (.single (.seek m.locate.toUInt32 hs₁ hstate))
      rcases joinBoard_cases hs₁ hjoin with
        ⟨rfl, hbegan, hfull, seat, hlocate, hfree, rfl⟩ | ⟨rfl, rfl, _⟩
      · simp only [if_true, Option.bind_eq_some_iff] at h
        obtain ⟨⟨reply, w₃⟩, hacc, ⟨_, w₄⟩, hreply, w₅, hsend, w₆, hhall',
          h⟩ := h
        cases h
        have c₃ := c₂.trans (.single (.take (setUser_users_self _ _ _)
          hlocate hstate hfree hfull (hknown c rfl)))
        have hseat : ((((w₁.setUser u { s with
            locate := m.locate.toUInt32 }).modifyBoard c
              (·.seated u seat)).boards c).seat seat) = some u := by
          have hset : ((w₁.boards c).seated u seat).seat =
              Function.update (w₁.boards c).seat seat (some u) := by
            rw [← setSeat_seat]
            funext x
            cases seat <;> cases x <;> rfl
          simp [World.modifyBoard, World.setUser, hset]
        have hs₂ : ((w₁.setUser u { s with
            locate := m.locate.toUInt32 }).modifyBoard c
              (·.seated u seat)).users u = some { s with
            locate := m.locate.toUInt32 } := setUser_users_self _ _ _
        obtain ⟨c₄, hsound⟩ := joinAccepted_changes hs₂ hstate hseat hacc
        have n₄ := messageReply_notified hreply
        have c₅ := messageReply_changes (u := u) hreply hsound
        have c₆ := broadCastMsg_changes (u := u) hsend
          fun hcounted => hsound (n₄.counted.mp hcounted)
        exact (((c₃.trans c₄).trans c₅).trans c₆).trans
          (broadCastHallInfo_changes hhall')
      · simp only [Bool.false_eq_true, if_false,
          Option.bind_eq_some_iff] at h
        obtain ⟨⟨_, w₃⟩, hreply, h⟩ := h
        cases h
        refine c₂.trans (messageReply_changes hreply fun _ info hinfo => ?_)
        cases hinfo

theorem stateGameReadyMsgHandle_changes {env : Env} {msgType : UInt32}
    {msg : Bytes} {w w' : World} {ret : Bool} (hu : w.InState u .gameReady)
    (h : stateGameReadyMsgHandle env u msgType msg w = some (ret, w')) :
    Changes u w w' := by
  unfold stateGameReadyMsgHandle at h
  split at h
  · exact gameHallSumaryHandle_changes h
  · exact hallInfoReqHandle_changes h
  · exact gameRequestHandle_changes hu h
  · exact echoMsgHandle_changes h
  · exact updateUserInfos_changes (hu.inHall (Or.inl rfl)) h
  · cases h
    exact .refl w

/-! ## StateGamePlay -/

/-- A session without a board can make boards known at most. -/
theorem translateMsgNull_changes {env : Env} {msgType : UInt32} {msg : Bytes}
    {w w' : World} {ret : Bool}
    (h : translateMsgNull env msgType msg w = some (ret, w')) :
    Changes u w w' := by
  unfold translateMsgNull at h
  split at h
  · cases h
    exact .refl w
  · split at h
    · cases h
    · cases h
      split
      · exact publishNamed_changes env msg w
      · exact .refl w

theorem stateGamePlaySwitch_changes {env : Env} {msgType : UInt32}
    {msg : Bytes} {w w' : World} {ret : Bool} (hu : w.InHall u)
    (hseating : w.layout.Seating)
    (h : stateGamePlaySwitch env u msgType msg w = some (ret, w')) :
    Changes u w w' := by
  unfold stateGamePlaySwitch at h
  split at h
  · exact gameHallSumaryHandle_changes h
  · exact hallInfoReqHandle_changes h
  · exact echoMsgHandle_changes h
  · exact chessBoardReq_changes h
  · exact updateUserInfos_changes hu h
  · split at h
    · simp only [Option.bind_eq_bind, Option.bind_eq_some_iff] at h
      obtain ⟨s, _, h⟩ := h
      split at h
      · exact translateMsg_changes hu hseating h
      · exact translateMsgNull_changes h
    · cases h
      exact .refl w
  · cases h
    exact .refl w

/-- A message in the game state, rejected or not. -/
theorem stateGamePlayMsgHandle_changes {env : Env} {msgType : UInt32}
    {msg : Bytes} {w w' : World} {ret : Bool} (hu : w.InState u .gamePlay)
    (hseating : w.layout.Seating)
    (h : stateGamePlayMsgHandle env u msgType msg w = some (ret, w')) :
    Changes u w w' := by
  simp only [stateGamePlayMsgHandle, Option.bind_eq_bind,
    Option.bind_eq_some_iff] at h
  obtain ⟨⟨ok, w₁⟩, hswitch, h⟩ := h
  have hout := stateGamePlaySwitch_outcome hseating hswitch
  have c₁ := stateGamePlaySwitch_changes (hu.inHall (Or.inr rfl)) hseating
    hswitch
  cases ok with
  | true =>
      cases h
      exact c₁
  | false =>
      -- nothing happened before the message was turned down
      obtain ⟨_, rfl⟩ : rejectsCode msgType = true ∧ w₁ = w := by
        by_cases hrej : rejectsCode msgType = true
        · rw [if_pos hrej] at hout
          exact ⟨hrej, hout.2⟩
        · rw [if_neg hrej] at hout
          cases hout.1
      simp only [Bool.false_eq_true, if_false, Option.bind_eq_some_iff] at h
      obtain ⟨w₂, hnext, w₃, hstatus, h⟩ := h
      cases h
      have c₂ := setNextState_changes hu (by decide) hnext
      obtain ⟨s, hs, _⟩ := (setNextState_own (Or.inr rfl) hnext).inState hu
      rw [modifyUser_eq hs] at hstatus
      cases hstatus
      exact c₂.trans (.single (.reject hs))

/-! ## Any state -/

/-- A message in any state. -/
theorem msgHandle_changes {env : Env} {state : StateType} {msgType : UInt32}
    {msg : Bytes} {w w' : World} {ret : Bool} (hu : w.InState u state)
    (hseating : w.layout.Seating)
    (h : state.msgHandle env u msgType msg w = some (ret, w')) :
    Changes u w w' := by
  cases state with
  | auth => exact stateAuthMsgHandle_changes hu h
  | downAd => exact stateAdPictureDownloadMsgHandle_changes hu h
  | gameReady => exact stateGameReadyMsgHandle_changes hu h
  | gamePlay => exact stateGamePlayMsgHandle_changes hu hseating h

/-- The end of `UserSession::MessageHandle`. -/
theorem switch_changes {w w' : World} {ret : Bool}
    (h : (do
      let s ← w.users u
      match s.nextState, s.stateMachine with
      | some next, some state =>
          if next ≠ state then
            some (true, w.setUser u { s with stateMachine := some next })
          else some (true, w)
      | _, _ => some (true, w)) = some (ret, w')) : Changes u w w' := by
  simp only [Option.bind_eq_bind, Option.bind_eq_some_iff] at h
  obtain ⟨s, hs, h⟩ := h
  split at h
  · rename_i next state hnext hstate
    split at h
    · cases h
      exact .single (.switch hs hstate hnext)
    · cases h
      exact .refl w
  · cases h
    exact .refl w

/-- A message with the exchange of the state object. -/
theorem sessionMessageHandle_changes {env : Env} {s : UserSession}
    {msgType : UInt32} {msg : Bytes} {w w' : World} {ret : Bool}
    (hseating : w.layout.Seating) (hs : w.users u = some s)
    (hclifd : s.clifd ≠ -1)
    (h : sessionMessageHandle env u msgType msg w = some (ret, w')) :
    Changes u w w' := by
  simp only [sessionMessageHandle, hs, Option.bind_eq_bind,
    Option.bind_some] at h
  cases hstate : s.stateMachine with
  | none =>
      rw [hstate] at h
      simp only [Option.bind_eq_some_iff] at h
      obtain ⟨⟨ok, w₁⟩, hmsg, h⟩ := h
      have c₀ := Changes.single (.start hs hclifd hstate)
      have hseating₀ : (w.setUser u { s with
          stateMachine := some .auth
          nextState := some .auth }).layout.Seating := by
        rw [layout_setUser hs]
        refine hseating.modify fun p hp => ?_
        simp only [World.layout, hs, Option.map_some, Option.some.injEq] at hp
        subst hp
        exact ⟨rfl, fun _ => rfl⟩
      have c₁ := c₀.trans (msgHandle_changes
        ⟨_, setUser_users_self _ _ _, rfl⟩ hseating₀ hmsg)
      cases ok with
      | true => exact c₁.trans (switch_changes h)
      | false =>
          cases h
          exact c₁
  | some state =>
      rw [hstate] at h
      simp only [Option.bind_eq_some_iff] at h
      obtain ⟨⟨ok, w₁⟩, hmsg, h⟩ := h
      have c₁ := msgHandle_changes ⟨s, hs, hstate⟩ hseating hmsg
      cases ok with
      | true => exact c₁.trans (switch_changes h)
      | false =>
          cases h
          exact c₁

end ChessServer
