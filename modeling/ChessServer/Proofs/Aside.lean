import ChessServer.Proofs.Badges
import ChessServer.Proofs.StateChanges

/-!
# Before the hall

What a session does in its first two states concerns nobody else: the database
is asked and not told, and the replies go to the session itself
(`stateAuthMsgHandle_aside`, `stateAdPictureDownloadMsgHandle_aside`).
-/

namespace ChessServer

/-- Nothing but session `u`, its buffer and the logs has changed; `u` was
replied to and the database was not updated. -/
structure Aside (u : SessionId) (w w' : World) : Prop where
  users : ∀ v, v ≠ u → w'.users v = w.users v
  boards : w'.boards = w.boards
  halls : w'.halls = w.halls
  fdSessionMap : w'.fdSessionMap = w.fdSessionMap
  sent : ∃ new, w'.sent = new ++ w.sent ∧ ∀ m ∈ new, m.user = u
  sqlLog : ∃ new, w'.sqlLog = new ++ w.sqlLog ∧
    ∀ sql ∈ new, isUpdate sql = false

variable {env : Env} {u : SessionId} {w w' : World}

theorem Aside.refl (u : SessionId) (w : World) : Aside u w w :=
  ⟨fun _ _ => rfl, rfl, rfl, rfl, ⟨[], rfl, by simp⟩, ⟨[], rfl, by simp⟩⟩

theorem Aside.trans {w₁ : World} (h₁ : Aside u w w₁) (h₂ : Aside u w₁ w') :
    Aside u w w' := by
  obtain ⟨sent₁, hsent₁, hto₁⟩ := h₁.sent
  obtain ⟨sent₂, hsent₂, hto₂⟩ := h₂.sent
  obtain ⟨sql₁, hsql₁, hread₁⟩ := h₁.sqlLog
  obtain ⟨sql₂, hsql₂, hread₂⟩ := h₂.sqlLog
  refine ⟨fun v hv => (h₂.users v hv).trans (h₁.users v hv),
    h₂.boards.trans h₁.boards, h₂.halls.trans h₁.halls,
    h₂.fdSessionMap.trans h₁.fdSessionMap, ⟨sent₂ ++ sent₁, ?_, ?_⟩,
    ⟨sql₂ ++ sql₁, ?_, ?_⟩⟩
  · rw [hsent₂, hsent₁, List.append_assoc]
  · intro m hm
    rcases List.mem_append.mp hm with hm | hm
    · exact hto₂ m hm
    · exact hto₁ m hm
  · rw [hsql₂, hsql₁, List.append_assoc]
  · intro sql hm
    rcases List.mem_append.mp hm with hm | hm
    · exact hread₂ sql hm
    · exact hread₁ sql hm

/-! ## Assignments, replies, statements -/

theorem setUser_aside (w : World) (u : SessionId) (s : UserSession) :
    Aside u w (w.setUser u s) :=
  ⟨fun _ hv => Function.update_of_ne hv _ _, rfl, rfl, rfl,
    ⟨[], rfl, by simp⟩, ⟨[], rfl, by simp⟩⟩

theorem modifyUser_aside {f : UserSession → UserSession}
    (h : w.modifyUser u f = some w') : Aside u w w' := by
  obtain ⟨s, _, rfl⟩ := Option.map_eq_some_iff.mp h
  exact setUser_aside w u (f s)

theorem getBuffer_aside (u : SessionId) (size : Nat) (w : World) :
    Aside u w (w.getBuffer u size) := by
  have hsame : ∀ sizes : SessionId → Nat,
      Aside u w { w with bufSize := sizes } := fun _ =>
    ⟨fun _ _ => rfl, rfl, rfl, rfl, ⟨[], rfl, by simp⟩, ⟨[], rfl, by simp⟩⟩
  unfold World.getBuffer
  split
  · exact hsame _
  · split
    · exact hsame _
    · exact Aside.refl u w

theorem messageReply_aside {type : MessageType} {body : Payload} {ret : Bool}
    (h : messageReply env u type body w = some (ret, w')) : Aside u w w' := by
  simp only [messageReply, onWrite, Option.bind_eq_bind,
    Option.bind_eq_some_iff] at h
  obtain ⟨s, _, t, _, h⟩ := h
  have hbuf := getBuffer_aside u ((body.bytes env).length + dataHeadLength) w
  split at h
  · cases h
    exact hbuf
  · simp only [Option.bind_eq_some_iff] at h
    obtain ⟨_, _, _, _, h⟩ := h
    cases h
    exact hbuf.trans ⟨fun _ _ => rfl, rfl, rfl, rfl,
      ⟨[⟨u, type, body⟩], rfl, by simp⟩, ⟨[], rfl, by simp⟩⟩

/-- A statement that is no `UPDATE` leaves everybody else as they are. -/
theorem query_aside (env : Env) (u : SessionId) (w : World) (sql : Bytes)
    (hsql : isUpdate sql = false) : Aside u w (w.query env sql).2 :=
  ⟨fun _ _ => rfl, rfl, rfl, rfl, ⟨[], rfl, by simp⟩,
    ⟨[sql], rfl, by simp [hsql]⟩⟩

theorem getUsersInfoFromDB_aside {account : Bytes} {info info' : UsersInfo}
    {found : Bool}
    (h : getUsersInfoFromDB env account info w = some (found, info', w')) :
    Aside u w w' := by
  unfold getUsersInfoFromDB at h
  split at h
  · cases h
    exact Aside.refl u w
  · simp only [mysqlDbQuery, Option.bind_eq_bind,
      Option.bind_eq_some_iff] at h
    obtain ⟨r, hr, h⟩ := h
    cases h
    have hsql := query_aside env u w (snprintf 254
      (lit "SELECT * FROM users_info WHERE account='" ++ cString account ++
        lit "'")) (by
          simp only [List.append_assoc]
          exact select_not_update (by decide +kernel))
    split at hr
    · obtain ⟨_, _, hr⟩ := Option.bind_eq_some_iff.mp hr
      cases hr
      exact hsql
    · cases hr
      exact hsql

theorem getHeadImageFromDB_aside (env : Env) (u : SessionId)
    (account data : Bytes) (w : World) :
    Aside u w (getHeadImageFromDB env account data w).2.2 := by
  have hsql := query_aside env u w (snprintf 254
    (lit "SELECT head_photo FROM users_info WHERE account='" ++
      cString account ++ lit "'")) (by
        simp only [List.append_assoc]
        exact select_not_update (by decide +kernel))
  unfold getHeadImageFromDB
  dsimp only
  split <;> exact hsql

theorem getImageVersionInfoFromDB_aside (env : Env) (u : SessionId)
    (info : ImageVersions) (w : World) :
    Aside u w (getImageVersionInfoFromDB env info w).2.2 := by
  have hsql := query_aside env u w (lit
    "SELECT version, mandatory_update, image_info, locate_path FROM image_version ORDER BY id DESC limit 1")
    (by decide +kernel)
  unfold getImageVersionInfoFromDB
  dsimp only
  split <;> exact hsql

theorem getAdPicturesInfoFromDB_aside (env : Env) (u : SessionId) (id : UInt32)
    (info : AdPicturesInfo) (w : World) :
    Aside u w (getAdPicturesInfoFromDB env id info w).2.2 := by
  have hsql := query_aside env u w (snprintf 254
    (lit "SELECT * FROM ad_pictures WHERE id=" ++ decimal id))
    (select_not_update (by decide +kernel))
  unfold getAdPicturesInfoFromDB
  dsimp only
  split <;> exact hsql

/-! ## StateAuth -/

/-- Registering asks the database and answers. -/
theorem handleRegister_aside {msg : Bytes} {ret : Bool}
    (h : handleRegister env u msg w = some (ret, w')) : Aside u w w' := by
  unfold handleRegister at h
  split at h
  · cases h
    exact Aside.refl u w
  · simp only [Option.bind_eq_bind, Option.bind_eq_some_iff] at h
    obtain ⟨s, _, _, _, ⟨_, w₁⟩, hreply, h⟩ := h
    cases h
    refine Aside.trans (query_aside env u w _ ?_) (messageReply_aside hreply)
    have hinsert : (lit "INSERT INTO users_info (account,password,email,score,head_photo,user_name,phone) VALUES ('").head? =
        some 73 := by decide +kernel
    simp only [List.append_assoc]
    exact isUpdate_eq_false (snprintf_head hinsert) (by decide)

theorem loginAccepted_aside {status : ReplyStatus}
    (h : loginAccepted env u w = some (status, w')) : Aside u w w' := by
  simp only [loginAccepted, Option.bind_eq_bind, Option.bind_eq_some_iff] at h
  obtain ⟨s, _, w₁, hphoto, s₁, _, h⟩ := h
  cases h
  exact ((getHeadImageFromDB_aside env u _ _ w).trans
    (modifyUser_aside hphoto)).trans (getImageVersionInfoFromDB_aside env u {} w₁)

/-- A login changes the session that logs in. -/
theorem checkLogin_aside {login : LogOnorOut} {ret : Bool}
    {status : ReplyStatus}
    (h : checkLogin env u login w = some (ret, status, w')) :
    Aside u w w' := by
  simp only [checkLogin, Option.bind_eq_bind, Option.bind_eq_some_iff] at h
  obtain ⟨s, _, _, _, free, _, h⟩ := h
  split at h
  · cases h
    exact Aside.refl u w
  · simp only [Option.bind_eq_some_iff] at h
    obtain ⟨⟨found, info, w₁⟩, hquery, w₂, hinfo, h⟩ := h
    have ha : Aside u w w₂ :=
      (getUsersInfoFromDB_aside hquery).trans (modifyUser_aside hinfo)
    split at h
    · cases h
      exact ha
    · split at h
      · simp only [Option.bind_eq_some_iff] at h
        obtain ⟨⟨status, w₃⟩, haccept, h⟩ := h
        cases h
        exact ha.trans (loginAccepted_aside haccept)
      · simp only [Option.bind_eq_some_iff] at h
        obtain ⟨w₃, hclear, h⟩ := h
        cases h
        exact ha.trans (modifyUser_aside hclear)

theorem handleLogin_aside {msg : Bytes} {ret : Bool}
    (h : handleLogin env u msg w = some (ret, w')) : Aside u w w' := by
  unfold handleLogin at h
  split at h
  · cases h
    exact Aside.refl u w
  · simp only [Option.bind_eq_bind, Option.bind_eq_some_iff] at h
    obtain ⟨⟨_, _, w₁⟩, hcheck, ⟨_, w₂⟩, hreply, h⟩ := h
    cases h
    exact (checkLogin_aside hcheck).trans (messageReply_aside hreply)

theorem echoMsgHandle_aside {msg : Bytes} {ret : Bool}
    (h : echoMsgHandle env u msg w = some (ret, w')) : Aside u w w' := by
  simp only [echoMsgHandle, Option.bind_eq_bind, Option.bind_eq_some_iff] at h
  obtain ⟨⟨_, w₁⟩, hreply, h⟩ := h
  cases h
  exact messageReply_aside hreply

/-- Nothing in the login state concerns another session. -/
theorem stateAuthMsgHandle_aside {msgType : UInt32} {msg : Bytes} {ret : Bool}
    (h : stateAuthMsgHandle env u msgType msg w = some (ret, w')) :
    Aside u w w' := by
  unfold stateAuthMsgHandle at h
  split at h
  · exact handleRegister_aside h
  · simp only [Option.bind_eq_bind, Option.bind_eq_some_iff] at h
    obtain ⟨⟨ok, w₁⟩, hlogin, w₂, hnext, h⟩ := h
    cases h
    have ha : Aside u w w₁ := handleLogin_aside hlogin
    split at hnext
    · exact ha.trans (modifyUser_aside hnext)
    · cases hnext
      exact ha
  · cases h
    exact Aside.refl u w
  · exact echoMsgHandle_aside h
  · unfold handleFindPwd at h
    split at h
    · cases h
      exact Aside.refl u w
    · cases h
      exact ⟨fun _ _ => rfl, rfl, rfl, rfl, ⟨[], rfl, by simp⟩,
        ⟨[], rfl, by simp⟩⟩
  · cases h
    exact Aside.refl u w

/-! ## StateAdPictureDownload -/

theorem sendImageContent_aside {ret : Bool}
    (h : sendImageContent env u w = some (ret, w')) : Aside u w w' := by
  simp only [sendImageContent, Option.bind_eq_bind,
    Option.bind_eq_some_iff] at h
  obtain ⟨s, _, h⟩ := h
  have hbuf := getBuffer_aside u maxDataLength w
  split at h
  · cases h
    exact hbuf
  · split at h
    · simp only [Option.bind_eq_some_iff] at h
      obtain ⟨w₁, hread, ⟨ok, w₂⟩, hreply, h⟩ := h
      have ha := (hbuf.trans (modifyUser_aside hread)).trans
        (messageReply_aside hreply)
      dsimp only at h
      split at h
      · cases h
        exact ha
      · simp only [Option.bind_eq_some_iff] at h
        obtain ⟨w₃, hclose, h⟩ := h
        cases h
        exact ha.trans (modifyUser_aside hclose)
    · simp only [Option.bind_eq_some_iff] at h
      obtain ⟨w₁, hclose, ⟨_, w₂⟩, hreply, h⟩ := h
      cases h
      exact (hbuf.trans (modifyUser_aside hclose)).trans
        (messageReply_aside hreply)

theorem openImage_aside {id : UInt32} (h : openImage env u id w = some w') :
    Aside u w w' := by
  simp only [openImage, Option.bind_eq_bind, Option.bind_eq_some_iff] at h
  obtain ⟨s, _, h⟩ := h
  split at h
  · simp only [Option.bind_eq_some_iff] at h
    obtain ⟨_, _, h⟩ := h
    have hsql := getAdPicturesInfoFromDB_aside env u id {} w
    split at h
    · exact hsql.trans (modifyUser_aside h)
    · cases h
      exact hsql
  · cases h
    exact Aside.refl u w

theorem adPictureReply_aside {item : AdPictureReq} {ret : Bool}
    (h : adPictureReply env u item w = some (ret, w')) : Aside u w w' := by
  unfold adPictureReply at h
  split at h
  · simp only [Option.bind_eq_bind, Option.bind_eq_some_iff] at h
    obtain ⟨s, _, _, _, ⟨_, w₁⟩, hreply, h⟩ := h
    cases h
    exact (getAdPicturesInfoFromDB_aside env u item.imageId {} w).trans
      (messageReply_aside hreply)
  · split at h
    · simp only [Option.bind_eq_bind, Option.bind_eq_some_iff] at h
      obtain ⟨w₁, hopen, h⟩ := h
      exact (openImage_aside hopen).trans (sendImageContent_aside h)
    · cases h
      exact Aside.refl u w

/-- Nor does anything in the state that sends pictures. -/
theorem stateAdPictureDownloadMsgHandle_aside {msgType : UInt32} {msg : Bytes}
    {ret : Bool} (h : stateAdPictureDownloadMsgHandle env u msgType msg w =
      some (ret, w')) : Aside u w w' := by
  unfold stateAdPictureDownloadMsgHandle at h
  split at h
  · unfold adPictureItemHandle at h
    split at h
    · cases h
      exact Aside.refl u w
    · simp only [Option.bind_eq_bind, Option.bind_eq_some_iff] at h
      obtain ⟨⟨ok, w₁⟩, hreply, s, _, w₂, hnext, h⟩ := h
      cases h
      have ha : Aside u w w₁ := adPictureReply_aside hreply
      split at hnext
      · exact ha.trans (modifyUser_aside hnext)
      · cases hnext
        exact ha
  · exact echoMsgHandle_aside h
  · cases h
    exact Aside.refl u w

/-! ## A message -/

/-- A message for a session in one of the first two states. -/
theorem sessionMessageHandle_aside {s : UserSession} {msgType : UInt32}
    {msg : Bytes} {ret : Bool} (hs : w.users u = some s)
    (hearly : s.state = .auth ∨ s.state = .downAd)
    (h : sessionMessageHandle env u msgType msg w = some (ret, w')) :
    Aside u w w' := by
  have hobject : ∀ {state : StateType} {w₁ w₂ : World} {ok : Bool},
      state = .auth ∨ state = .downAd →
      state.msgHandle env u msgType msg w₁ = some (ok, w₂) →
      Aside u w₁ w₂ := by
    intro state w₁ w₂ ok hstate hmsg
    rcases hstate with rfl | rfl
    · exact stateAuthMsgHandle_aside hmsg
    · exact stateAdPictureDownloadMsgHandle_aside hmsg
  simp only [sessionMessageHandle, hs, Option.bind_eq_bind,
    Option.bind_some] at h
  obtain ⟨⟨ok, w₁⟩, hmsg, h⟩ := Option.bind_eq_some_iff.mp h
  have ha : Aside u w w₁ := by
    cases hstate : s.stateMachine with
    | none =>
        rw [hstate] at hmsg
        exact (setUser_aside w u _).trans (hobject (Or.inl rfl) hmsg)
    | some state =>
        rw [hstate] at hmsg
        rw [UserSession.state, hstate, Option.getD_some] at hearly
        exact hobject hearly hmsg
  cases ok with
  | true =>
      -- the state object may be replaced by the next one
      obtain ⟨t, _, h⟩ := Option.bind_eq_some_iff.mp h
      split at h
      · split at h
        · cases h
          exact ha.trans (setUser_aside w₁ u _)
        · cases h
          exact ha
      · cases h
        exact ha
  | false =>
      cases h
      exact ha

end ChessServer
