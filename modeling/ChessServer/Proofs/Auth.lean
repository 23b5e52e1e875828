import ChessServer.Proofs.Badges

/-!
# The first state

What `StateAuth` does with a message: a login that meets the conditions moves
the session on (`admitted_badge`), one that does not may leave the row that it
looked up, and no other message changes the score (`read_score`).
-/

namespace ChessServer

variable {env : Env} {u : SessionId} {s : UserSession} {w w' : World}

/-! ## The state object -/

/-- The session gets its first state. -/
def UserSession.started (s : UserSession) : UserSession :=
  { s with stateMachine := some .auth, nextState := some .auth }

theorem setUser_eq_self (hs : w.users u = some s) : w.setUser u s = w := by
  unfold World.setUser
  rw [← hs, Function.update_eq_self]

/-- A session without a state object gets its first one. -/
theorem sessionMessageHandle_first {msgType : UInt32} {msg : Bytes}
    (hs : w.users u = some s) (hstate : s.stateMachine = none) :
    sessionMessageHandle env u msgType msg w =
      sessionMessageHandle env u msgType msg (w.setUser u s.started) := by
  unfold sessionMessageHandle
  simp only [hs, hstate, Option.bind_eq_bind, Option.bind_some,
    setUser_users_self]
  rfl

/-- A message finds the first state, or puts it there. -/
theorem sessionMessageHandle_started {msgType : UInt32} {msg : Bytes}
    (hs : w.users u = some s)
    (hauth : (s.stateMachine = none ∧ s.nextState = none) ∨
      (s.stateMachine = some .auth ∧ s.nextState = some .auth)) :
    sessionMessageHandle env u msgType msg w =
      sessionMessageHandle env u msgType msg (w.setUser u s.started) := by
  rcases hauth with ⟨hstate, _⟩ | ⟨hstate, hnext⟩
  · exact sessionMessageHandle_first hs hstate
  · have hstarted : s.started = s := by
      cases s
      cases hstate
      cases hnext
      rfl
    rw [hstarted, setUser_eq_self hs]

/-- In the first state nobody has asked for another. -/
theorem settled_auth (hsettled : s.place.Settled) (hauth : s.state = .auth) :
    (s.stateMachine = none ∧ s.nextState = none) ∨
      (s.stateMachine = some .auth ∧ s.nextState = some .auth) := by
  unfold UserSession.state at hauth
  cases hstate : s.stateMachine with
  | none =>
      have hnone : s.place.stateMachine = none := hstate
      unfold Place.Settled at hsettled
      rw [hnone] at hsettled
      split at hsettled
      · cases hsettled.1
      · rcases hsettled with ⟨hnext, _⟩ | ⟨hplay, _⟩
        · exact Or.inl ⟨rfl, hnext⟩
        · cases hplay
  | some state =>
      rw [hstate, Option.getD_some] at hauth
      subst hauth
      rcases settled_next hsettled hstate with hnext | ⟨hne, _⟩
      · exact Or.inr ⟨rfl, hnext⟩
      · exact absurd rfl hne

/-- A message that `StateAuth` handles, after which the state object may be
exchanged. -/
theorem sessionMessageHandle_auth {msgType : UInt32} {msg : Bytes}
    (hstate : s.stateMachine = some .auth) (hs : w.users u = some s)
    (h : sessionMessageHandle env u msgType msg w = some (true, w')) :
    ∃ w₁ s₁ s', stateAuthMsgHandle env u msgType msg w = some (true, w₁) ∧
      w₁.users u = some s₁ ∧ w'.users u = some s' ∧
      s'.userInfo = s₁.userInfo ∧
      (∀ next state, s₁.nextState = some next →
        s₁.stateMachine = some state → s'.stateMachine = some next) := by
  simp only [sessionMessageHandle, hs, hstate, StateType.msgHandle,
    Option.bind_eq_bind, Option.bind_some] at h
  obtain ⟨⟨ok, w₁⟩, hhandle, h⟩ := Option.bind_eq_some_iff.mp h
  cases ok with
  | false => cases h
  | true =>
      rw [if_pos rfl] at h
      obtain ⟨s₁, hs₁, h⟩ := Option.bind_eq_some_iff.mp h
      split at h
      · rename_i next state hnext hstate₁
        split at h
        · cases h
          refine ⟨w₁, s₁, _, hhandle, hs₁, setUser_users_self _ _ _, rfl,
            fun next' state' hnext' _ => ?_⟩
          rw [← hnext, hnext']
        · rename_i hsame
          cases h
          have hsame : next = state := by simpa using hsame
          refine ⟨w₁, s₁, s₁, hhandle, hs₁, hs₁, rfl,
            fun next' state' hnext' hstate' => ?_⟩
          rw [hstate₁, ← hsame, ← hnext, hnext']
      · rename_i hnone
        cases h
        exact ⟨w₁, s₁, s₁, hhandle, hs₁, hs₁, rfl,
          fun next' state' hnext' hstate' =>
            absurd hstate' (hnone next' state' hnext')⟩

/-! ## A login that meets the conditions -/

theorem checkLogin_admits {login : LogOnorOut} {row : UserRow} {ret : Bool}
    {status : ReplyStatus} (hadmits : w.Admits env login row)
    (h : checkLogin env u login w = some (ret, status, w')) : ret = true := by
  simp only [checkLogin, hadmits.free, Option.bind_eq_bind, Option.bind_some,
    Option.bind_eq_some_iff] at h
  obtain ⟨s, _, _, _, h⟩ := h
  rw [if_neg (by decide)] at h
  obtain ⟨⟨found, info, w₁⟩, hquery, h⟩ := Option.bind_eq_some_iff.mp h
  obtain ⟨w₂, _, h⟩ := Option.bind_eq_some_iff.mp h
  cases found with
  | false =>
      have hnone := getUsersInfoFromDB_none hquery
      rw [hadmits.found] at hnone
      cases hnone
  | true =>
      obtain ⟨row', hrow, hfetched⟩ := getUsersInfoFromDB_row hquery
      rw [hadmits.found, Option.some.injEq] at hrow
      subst hrow
      rw [if_neg (by simp),
        if_pos (hfetched.password.trans hadmits.password)] at h
      obtain ⟨r, _, h⟩ := Option.bind_eq_some_iff.mp h
      cases h
      rfl

theorem handleLogin_admits {msg : Bytes} {login : LogOnorOut} {row : UserRow}
    {ret : Bool} (hparse : env.proto.logOnorOut msg = some login)
    (hadmits : w.Admits env login row)
    (h : handleLogin env u msg w = some (ret, w')) : ret = true := by
  simp only [handleLogin, hparse, Option.bind_eq_bind,
    Option.bind_eq_some_iff] at h
  obtain ⟨⟨ok, status, w₁⟩, hcheck, ⟨_, w₂⟩, _, h⟩ := h
  cases h
  exact checkLogin_admits hadmits hcheck

/-- A login that meets the conditions moves the session on. -/
theorem sessionMessageHandle_admits {msgType : UInt32} {msg : Bytes}
    {login : LogOnorOut} {row : UserRow} {ret : Bool}
    (hs : w.users u = some s) (hstate : s.stateMachine = some .auth)
    (hnext : s.nextState = some .auth)
    (hcode : MessageType.ofCode msgType = some .login)
    (hparse : env.proto.logOnorOut msg = some login)
    (hadmits : w.Admits env login row)
    (h : sessionMessageHandle env u msgType msg w = some (ret, w')) :
    ret = true ∧ w'.badge u = some (.downAd, row.account) := by
  have hret : ret = true := by
    simp only [sessionMessageHandle, hs, hstate, Option.bind_eq_bind,
      Option.bind_some] at h
    obtain ⟨⟨ok, w₁⟩, hhandle, h⟩ := Option.bind_eq_some_iff.mp h
    obtain ⟨rfl, _⟩ := login_stage hs hnext hcode hhandle
    rw [if_pos rfl] at h
    obtain ⟨s₁, _, h⟩ := Option.bind_eq_some_iff.mp h
    split at h
    · split at h
      · cases h
        rfl
      · cases h
        rfl
    · cases h
      rfl
  subst hret
  refine ⟨rfl, ?_⟩
  obtain ⟨w₁, s₁, s', hhandle, hs₁, hs', hinfo, hswitch⟩ :=
    sessionMessageHandle_auth hstate hs h
  simp only [stateAuthMsgHandle, hcode, Option.bind_eq_bind,
    Option.bind_eq_some_iff] at hhandle
  obtain ⟨⟨ok, w₂⟩, hlogin, w₃, hadvance, hhandle⟩ := hhandle
  cases hhandle
  obtain rfl : ok = true := handleLogin_admits hparse hadmits hlogin
  obtain ⟨account, hstage, _, hrow⟩ := handleLogin_stage hs hlogin
  obtain ⟨login', row', hparse', hadmits', rfl⟩ := hrow rfl
  rw [hparse, Option.some.injEq] at hparse'
  subst hparse'
  have hsame := hadmits'.found
  rw [hadmits.found, Option.some.injEq] at hsame
  subst hsame
  have hself : w₂.stage u = some { s.stage with account := row.account } := by
    rw [hstage, Function.update_self]
  obtain ⟨s₂, hs₂, hstage₂⟩ := stage_session hself
  rw [if_pos rfl, setNextState, modifyUser_eq hs₂] at hadvance
  cases hadvance
  rw [setUser_users_self, Option.some.injEq] at hs₁
  subst hs₁
  have hmachine : s₂.stateMachine = some .auth :=
    (congrArg Stage.stateMachine hstage₂).trans hstate
  have haccount : s₂.userInfo.account = row.account :=
    congrArg Stage.account hstage₂
  rw [badge_eq hs', hswitch .downAd .auth rfl hmachine, hinfo, ← haccount]
  rfl

/-! ## The score -/

/-- The score is as it was, or the one in the row that a login looks up. -/
def ScoreOf (env : Env) (w : World) (account : Bytes) (s s' : UserSession) :
    Prop :=
  s'.userInfo.score = s.userInfo.score ∨ ∃ row,
    w.userRow env account = some row ∧
      row.score.map Int32.toUInt32 = some s'.userInfo.score

/-- A login that is accepted fetches the picture. -/
theorem loginAccepted_session {status : ReplyStatus} (hs : w.users u = some s)
    (h : loginAccepted env u w = some (status, w')) :
    ∃ photo, w'.users u = some { s with
      userInfo := { s.userInfo with headPhoto := photo } } := by
  have hphoto : (getHeadImageFromDB env s.userInfo.account
      s.userInfo.headPhoto w).2.2.users u = some s := by
    rw [getHeadImageFromDB_users, hs]
  simp only [loginAccepted, hs, Option.bind_eq_bind, Option.bind_some,
    modifyUser_eq hphoto, setUser_users_self, Option.some.injEq,
    Prod.mk.injEq] at h
  rw [← h.2, getImageVersionInfoFromDB_users]
  exact ⟨_, setUser_users_self _ _ _⟩

theorem checkLogin_score {login : LogOnorOut} {ret : Bool}
    {status : ReplyStatus} (hs : w.users u = some s)
    (h : checkLogin env u login w = some (ret, status, w')) :
    ∃ s', w'.users u = some s' ∧ ScoreOf env w login.account s s' := by
  simp only [checkLogin, hs, Option.bind_eq_bind, Option.bind_some,
    Option.bind_eq_some_iff] at h
  obtain ⟨_, _, free, _, h⟩ := h
  split at h
  · cases h
    exact ⟨s, hs, Or.inl rfl⟩
  · obtain ⟨⟨found, info, w₁⟩, hquery, h⟩ := Option.bind_eq_some_iff.mp h
    obtain ⟨_, husers, hnone⟩ := getUsersInfoFromDB_keeps hquery
    have hs₁ : w₁.users u = some s := by rw [husers, hs]
    rw [modifyUser_eq hs₁, Option.bind_some] at h
    split at h
    · rename_i hfound
      cases h
      have hinfo := hnone (by simpa using hfound)
      exact ⟨_, setUser_users_self _ _ _, Or.inl (by rw [hinfo])⟩
    · rename_i hfound
      have hfound : found = true := by simpa using hfound
      subst hfound
      obtain ⟨row, hrow, hfetched⟩ := getUsersInfoFromDB_row hquery
      split at h
      · obtain ⟨r, haccept, h⟩ := Option.bind_eq_some_iff.mp h
        cases h
        obtain ⟨_, hs'⟩ :=
          loginAccepted_session (setUser_users_self _ _ _) haccept
        exact ⟨_, hs', Or.inr ⟨row, hrow, hfetched.score⟩⟩
      · -- the password is wrong: the account alone is cleared
        rw [modifyUser_eq (setUser_users_self _ _ _), Option.bind_some] at h
        cases h
        exact ⟨_, setUser_users_self _ _ _, Or.inr ⟨row, hrow, hfetched.score⟩⟩

/-- No message but a login changes the score in the first state. -/
theorem stateAuthMsgHandle_score {msgType : UInt32} {msg : Bytes} {ret : Bool}
    (hs : w.users u = some s)
    (h : stateAuthMsgHandle env u msgType msg w = some (ret, w')) :
    ∃ s', w'.users u = some s' ∧ (s'.userInfo.score = s.userInfo.score ∨
      ∃ login, MessageType.ofCode msgType = some .login ∧
        env.proto.logOnorOut msg = some login ∧
        ScoreOf env w login.account s s') := by
  have hsame : ∀ {w₁ : World}, w₁.users = w.users → ∃ s',
      w₁.users u = some s' ∧ (s'.userInfo.score = s.userInfo.score ∨
        ∃ login, MessageType.ofCode msgType = some .login ∧
          env.proto.logOnorOut msg = some login ∧
          ScoreOf env w login.account s s') := fun husers =>
    ⟨s, by rw [husers, hs], Or.inl rfl⟩
  unfold stateAuthMsgHandle at h
  split at h
  · unfold handleRegister at h
    split at h
    · cases h
      exact hsame rfl
    · simp only [Option.bind_eq_bind, Option.bind_eq_some_iff] at h
      obtain ⟨_, _, _, _, ⟨_, w₁⟩, hreply, h⟩ := h
      cases h
      exact hsame (messageReply_notified hreply).users
  · rename_i hcode
    simp only [Option.bind_eq_bind, Option.bind_eq_some_iff] at h
    obtain ⟨⟨ok, w₁⟩, hlogin, w₂, hadvance, h⟩ := h
    cases h
    have hkept : ∀ {s₁}, w₁.users u = some s₁ →
        ∃ s', w'.users u = some s' ∧ s'.userInfo = s₁.userInfo := by
      intro s₁ hs₁
      split at hadvance
      · rw [setNextState, modifyUser_eq hs₁] at hadvance
        cases hadvance
        exact ⟨_, setUser_users_self _ _ _, rfl⟩
      · cases hadvance
        exact ⟨s₁, hs₁, rfl⟩
    unfold handleLogin at hlogin
    split at hlogin
    · cases hlogin
      obtain ⟨s', hs', hinfo⟩ := hkept hs
      exact ⟨s', hs', Or.inl (by rw [hinfo])⟩
    · rename_i login hparse
      simp only [Option.bind_eq_bind, Option.bind_eq_some_iff] at hlogin
      obtain ⟨⟨_, status, w₃⟩, hcheck, ⟨_, w₄⟩, hreply, hlogin⟩ := hlogin
      cases hlogin
      obtain ⟨s₃, hs₃, hscore⟩ := checkLogin_score hs hcheck
      obtain ⟨s', hs', hinfo⟩ := hkept
        ((congrFun (messageReply_notified hreply).users u).trans hs₃)
      refine ⟨s', hs', Or.inr ⟨login, hcode, hparse, ?_⟩⟩
      unfold ScoreOf
      rw [hinfo]
      exact hscore
  · cases h
    exact hsame rfl
  · simp only [echoMsgHandle, Option.bind_eq_bind,
      Option.bind_eq_some_iff] at h
    obtain ⟨⟨_, w₁⟩, hreply, h⟩ := h
    cases h
    exact hsame (messageReply_notified hreply).users
  · unfold handleFindPwd at h
    split at h
    · cases h
      exact hsame rfl
    · cases h
      exact hsame rfl
  · cases h
    exact hsame rfl

/-! ## One event -/

/-- The world in which `StateAuth` handles a message: the session has its
first state. -/
theorem Buffers.auth (hb : Buffers u w w') (hinv' : w'.layout.Inv)
    (hs : w.users u = some s) (hauth : s.state = .auth) :
    ∃ w₁ s₁, w₁.users u = some s₁ ∧ s₁.stateMachine = some .auth ∧
      s₁.nextState = some .auth ∧ s₁.userInfo = s.userInfo ∧
      w₁.fdSessionMap = w.fdSessionMap ∧ w₁.sqlLog = w.sqlLog ∧
      (∀ v, (w₁.users v).map (fun s => s.userInfo.account) =
        (w.users v).map fun s => s.userInfo.account) ∧
      ∀ env msgType msg, sessionMessageHandle env u msgType msg w' =
        sessionMessageHandle env u msgType msg w₁ := by
  obtain ⟨s', hs', hcore⟩ := hb.session s hs
  obtain ⟨_, _, _, _, hstate, _, hinfo, _⟩ := core_eq hcore
  have hsettled := hinv'.settled u s'.place (by simp [World.layout, hs'])
    (by simp)
  have hauth' := settled_auth hsettled
    (by rw [UserSession.state, hstate]; exact hauth)
  refine ⟨w'.setUser u s'.started, s'.started, setUser_users_self _ _ _, rfl,
    rfl, hinfo, hb.fdSessionMap, hb.sqlLog, fun v => ?_,
    fun _ _ _ => sessionMessageHandle_started hs' hauth'⟩
  by_cases hv : v = u
  · rw [hv, setUser_users_self, hs, Option.map_some, Option.map_some]
    exact congrArg (fun info : UsersInfo => some info.account) hinfo
  · rw [show (w'.setUser u s'.started).users v = w'.users v from
      Function.update_of_ne hv _ _, hb.users v hv]

/-- A message after which the connection is still open. -/
theorem read_message_stays {data msg : Bytes} {msgType : UInt32} {k : Int}
    (hinv : w.layout.Inv) (hs : w.users u = some s)
    (hrecv : w.received u data = .message msgType msg)
    (hreg' : w'.layout.registry k = some u)
    (h : World.step env (.read u data) w = some w') :
    ∃ w₁ w₂, Buffers u w w₁ ∧ w₁.layout.Inv ∧
      sessionMessageHandle env u msgType msg w₁ = some (true, w₂) ∧
      w₂.modifyUser u (fun s => { s with bufInfo := {} }) = some w' := by
  obtain ⟨input, hbuf⟩ := received_buffer hs hrecv
  have hreg := enabled_registered hinv hs (Or.inl (by simp [hbuf]))
  obtain ⟨w₁, hb, hread⟩ := hinv.readsAs env hs (by simp [hbuf]) data
  have hinv₁ := hb.inv hinv hreg
  have hreg₁ : w₁.layout.registry s.clifd = some u := by rw [hb.registry, hreg]
  rw [h, hrecv] at hread
  simp only [World.handleReceived, Option.bind_eq_bind] at hread
  obtain ⟨⟨ret, w₂⟩, hmsg, hend⟩ := Option.bind_eq_some_iff.mp hread.symm
  rcases messageHandle_cases hinv₁ hreg₁ hmsg with
    ⟨rfl, _⟩ | ⟨rfl, _, w₃, c, hregistry, hsame, _⟩
  · rw [if_pos rfl] at hend
    have hlookup : w₁.fdSessionMap[s.clifd]? = some u := hreg₁
    simp only [messageHandle, hlookup, Option.bind_eq_bind,
      Option.bind_eq_some_iff] at hmsg
    obtain ⟨⟨ok, w₃⟩, hsession, hmsg⟩ := hmsg
    cases ok with
    | true =>
        cases hmsg
        exact ⟨w₁, _, hb, hinv₁, hsession, hend⟩
    | false =>
        simp only [Bool.false_eq_true, if_false,
          Option.bind_eq_some_iff] at hmsg
        obtain ⟨_, _, hmsg⟩ := hmsg
        cases hmsg
  · -- the connection was closed
    cases hend
    exact absurd rfl
      (c.place_registered hregistry (by rw [hsame, hreg₁]) hreg').1

/-- Where a login comes from. -/
theorem loginOf_read {e : Event} {login : LogOnorOut}
    (h : w.loginOf env e = some (u, login)) :
    ∃ data msgType msg s, e = .read u data ∧
      w.received u data = .message msgType msg ∧ w.users u = some s ∧
      s.state = .auth ∧ MessageType.ofCode msgType = some .login ∧
      env.proto.logOnorOut msg = some login := by
  unfold World.loginOf at h
  split at h
  · rename_i v data
    split at h
    · rename_i msgType msg s hrecv hs
      split at h
      · rename_i hauth
        obtain ⟨login', hparse, heq⟩ := Option.map_eq_some_iff.mp h
        cases heq
        exact ⟨data, msgType, msg, s, rfl, hrecv, hs, hauth.1, hauth.2, hparse⟩
      · cases h
    · cases h
  · cases h

/-- The row that lets a login in gives the session its account. -/
theorem admitted_badge {e : Event} {login : LogOnorOut} {row : UserRow}
    (hinv : w.layout.Inv) (hlogin : w.loginOf env e = some (u, login))
    (hadmits : w.Admits env login row)
    (h : World.step env e w = some w') :
    w'.badge u = some (.downAd, row.account) := by
  obtain ⟨data, msgType, msg, s, rfl, hrecv, hs, hauth, hcode, hparse⟩ :=
    loginOf_read hlogin
  obtain ⟨w₀, _, ret, w₂, hb, hinv₀, _, _, _, hmsg, hend⟩ :=
    read_message hinv hs hrecv h
  obtain ⟨w₁, s₁, hs₁, hstate, hnext, _, hmap, hsql, haccounts, hsame⟩ :=
    hb.auth hinv₀ hs hauth
  rw [hsame] at hmsg
  have hadmits₁ : w₁.Admits env login row :=
    hadmits.congr hmap.symm hsql.symm fun v => (haccounts v).symm
  obtain ⟨hret, hbadge⟩ := sessionMessageHandle_admits hs₁ hstate hnext hcode
    hparse hadmits₁ hmsg
  rw [modifyUser_badge (hend hret) fun _ => rfl]
  exact hbadge

/-- Bytes for a session in the first state leave its score, or its login
looks it up. -/
theorem read_score {data : Bytes} {k : Int} {s' : UserSession}
    (hinv : w.layout.Inv) (henabled : (Event.read u data).Enabled w)
    (hs : w.users u = some s) (hauth : s.state = .auth)
    (hs' : w'.users u = some s') (hreg' : w'.layout.registry k = some u)
    (h : World.step env (.read u data) w = some w') :
    s'.userInfo.score = s.userInfo.score ∨ ∃ login,
      w.loginOf env (.read u data) = some (u, login) ∧
        ScoreOf env w login.account s s' := by
  obtain ⟨t, ht, hbuf⟩ := henabled
  rw [hs, Option.some.injEq] at ht
  subst ht
  have hreg := enabled_registered hinv hs (Or.inl hbuf)
  obtain ⟨w₀, hb, hstep⟩ := hinv.readsAs env hs hbuf data
  have hreg₀ : w₀.layout.registry s.clifd = some u := by rw [hb.registry, hreg]
  have hinv₀ := hb.inv hinv hreg
  cases hrecv : w.received u data with
  | waiting =>
      rw [h, hrecv] at hstep
      cases hstep
      obtain ⟨t, ht, hcore⟩ := hb.session s hs
      rw [hs', Option.some.injEq] at ht
      subst ht
      obtain ⟨_, _, _, _, _, _, hinfo, _⟩ := core_eq hcore
      exact Or.inl (by rw [hinfo])
  | refused =>
      rw [h, hrecv] at hstep
      obtain ⟨c, _⟩ := closing_step hinv hreg hb hstep.symm
      exact absurd rfl (c.place_registered hinv₀.registry hreg₀ hreg').1
  | broken =>
      rw [h, hrecv] at hstep
      cases hstep
  | message msgType msg =>
      obtain ⟨w₃, w₂, hb₃, hinv₃, hmsg, hend⟩ :=
        read_message_stays hinv hs hrecv hreg' h
      obtain ⟨w₁, s₁, hs₁, hstate, _, hinfo, _, hsql, _, hsame⟩ :=
        hb₃.auth hinv₃ hs hauth
      rw [hsame] at hmsg
      obtain ⟨w₄, s₄, s₂, hhandle, hs₄, hs₂, hinfo₂, _⟩ :=
        sessionMessageHandle_auth hstate hs₁ hmsg
      obtain ⟨t, ht, hscore⟩ := stateAuthMsgHandle_score hs₁ hhandle
      rw [hs₄, Option.some.injEq] at ht
      subst ht
      have hinfo' : s'.userInfo = s₄.userInfo := by
        rw [modifyUser_eq hs₂] at hend
        cases hend
        rw [setUser_users_self, Option.some.injEq] at hs'
        rw [← hs', ← hinfo₂]
      unfold ScoreOf at hscore ⊢
      rw [hinfo']
      rcases hscore with hsame | ⟨login, hcode, hparse, hscore⟩
      · exact Or.inl (by rw [hsame, hinfo])
      · refine Or.inr ⟨login, ?_, ?_⟩
        · unfold World.loginOf
          simp only [hrecv, hs, hauth, hcode, and_self, if_true, hparse,
            Option.map_some]
        · rw [hinfo, userRow_congr login.account hsql] at hscore
          exact hscore

end ChessServer
