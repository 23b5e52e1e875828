import ChessServer.Proofs.Login
import ChessServer.Proofs.Stages

/-!
# What a session is held for

One event lets a session log in, moves it on, or leaves it where it is
(`step_staged`).
-/

namespace ChessServer

variable {env : Env} {u : SessionId} {s : UserSession} {w w' : World}

/-! ## A login -/

theorem stage_congr (h : w'.users = w.users) : w'.stage = w.stage := by
  unfold World.stage
  rw [h]

/-- Writing a session changes the stage of that session. -/
theorem setUser_stage_update (w : World) (u : SessionId) (s : UserSession) :
    (w.setUser u s).stage = Function.update w.stage u (some s.stage) := by
  funext v
  by_cases hv : v = u
  · subst hv
    rw [stage_eq (setUser_users_self _ _ _), Function.update_self]
  · rw [Function.update_of_ne hv]
    unfold World.stage
    rw [show (w.setUser u s).users v = w.users v from
      Function.update_of_ne hv _ _]

/-- What an accepted login fetches is no part of the stage. -/
theorem loginAccepted_stage {status : ReplyStatus}
    (h : loginAccepted env u w = some (status, w')) : w'.stage = w.stage := by
  simp only [loginAccepted, Option.bind_eq_bind, Option.bind_eq_some_iff] at h
  obtain ⟨s, _, w₁, hphoto, s', _, h⟩ := h
  injection h with h
  injection h with _ h
  rw [← h, stage_congr (getImageVersionInfoFromDB_users _ _ _),
    modifyUser_stage hphoto fun _ => rfl,
    stage_congr (getHeadImageFromDB_users _ _ _ _)]

/-- A login that fails takes the account away or leaves it; one that does not
gives the session the account of the row that let it in. -/
theorem checkLogin_stage {login : LogOnorOut} {ret : Bool}
    {status : ReplyStatus} (hs : w.users u = some s)
    (h : checkLogin env u login w = some (ret, status, w')) :
    ∃ account, w'.stage =
        Function.update w.stage u (some { s.stage with account := account }) ∧
      (ret = false → account = s.userInfo.account ∨ account = []) ∧
      (ret = true → ∃ row, w.Admits env login row ∧
        account = row.account) := by
  have hsame : w.stage = Function.update w.stage u
      (some { s.stage with account := s.userInfo.account }) := by
    rw [show ({ s.stage with account := s.userInfo.account } : Stage) =
      s.stage from rfl, ← stage_eq hs, Function.update_eq_self]
  simp only [checkLogin, hs, Option.bind_eq_bind, Option.bind_some,
    Option.bind_eq_some_iff] at h
  obtain ⟨_, _, free, hfree, h⟩ := h
  split at h
  · cases h
    exact ⟨_, hsame, fun _ => Or.inl rfl, fun hret => absurd hret (by decide)⟩
  · rename_i hnot
    obtain ⟨⟨found, info, w₁⟩, hquery, h⟩ := Option.bind_eq_some_iff.mp h
    obtain ⟨_, husers, hnone⟩ := getUsersInfoFromDB_keeps hquery
    have hs₁ : w₁.users u = some s := by rw [husers, hs]
    rw [modifyUser_eq hs₁, Option.bind_some] at h
    have hstage : (w₁.setUser u { s with userInfo := info }).stage =
        Function.update w.stage u
          (some { s.stage with account := info.account }) := by
      rw [setUser_stage_update, stage_congr husers]
      rfl
    split at h
    · rename_i hfound
      cases h
      have hinfo := hnone (by simpa using hfound)
      exact ⟨info.account, hstage, fun _ => Or.inl (by rw [hinfo]),
        fun hret => absurd hret (by decide)⟩
    · rename_i hfound
      have hfound : found = true := by simpa using hfound
      subst hfound
      obtain ⟨row, hrow, haccount, hpassword, _⟩ :=
        getUsersInfoFromDB_row hquery
      split at h
      · rename_i hright
        obtain ⟨r, haccept, h⟩ := Option.bind_eq_some_iff.mp h
        cases h
        refine ⟨row.account, ?_, fun hret => absurd hret (by decide),
          fun _ => ⟨row, ⟨?_, hrow, ?_⟩, rfl⟩⟩
        · rw [loginAccepted_stage haccept, hstage, haccount]
        · have hfree' : free = true := by simpa using hnot
          rw [hfree, hfree']
        · rw [← hpassword, hright]
      · rw [modifyUser_eq (setUser_users_self _ _ _), Option.bind_some] at h
        cases h
        refine ⟨[], ?_, fun _ => Or.inr rfl,
          fun hret => absurd hret (by decide)⟩
        rw [setUser_setUser, setUser_stage_update, stage_congr husers]
        rfl

/-- A login sets the account, which a failure may clear. -/
theorem handleLogin_stage {msg : Bytes} {ret : Bool} (hs : w.users u = some s)
    (h : handleLogin env u msg w = some (ret, w')) :
    ∃ account, w'.stage =
        Function.update w.stage u (some { s.stage with account := account }) ∧
      (ret = false → account = s.userInfo.account ∨ account = []) ∧
      (ret = true → ∃ login row, env.proto.logOnorOut msg = some login ∧
        w.Admits env login row ∧ account = row.account) := by
  unfold handleLogin at h
  split at h
  · cases h
    refine ⟨s.userInfo.account, ?_, fun _ => Or.inl rfl,
      fun hret => absurd hret (by decide)⟩
    rw [show ({ s.stage with account := s.userInfo.account } : Stage) =
      s.stage from rfl, ← stage_eq hs, Function.update_eq_self]
  · rename_i login hlogin
    simp only [Option.bind_eq_bind, Option.bind_eq_some_iff] at h
    obtain ⟨⟨ok, status, w₁⟩, hcheck, ⟨sent, w₂⟩, hreply, h⟩ := h
    cases h
    obtain ⟨account, hstage, hfails, hadmits⟩ := checkLogin_stage hs hcheck
    refine ⟨account, ?_, hfails, fun hret => ?_⟩
    · rw [(messageReply_notified hreply).stage, hstage]
    · obtain ⟨row, hrow, haccount⟩ := hadmits hret
      exact ⟨login, row, hlogin, hrow, haccount⟩

/-! ## A message -/

/-- A badge is read off the session. -/
theorem badge_eq (hs : w.users u = some s) :
    w.badge u = some (s.stateMachine.getD .auth, s.userInfo.account) := by
  unfold World.badge
  rw [stage_eq hs]
  rfl

/-- It depends on the stage only. -/
theorem badge_congr {v : SessionId} (h : w'.stage v = w.stage v) :
    w'.badge v = w.badge v := by
  unfold World.badge
  rw [h]

/-- Being sent on does not show yet. -/
theorem Advanced.badge {state : StateType} (h : Advanced state w w')
    (v : SessionId) : w'.badge v = w.badge v := by
  unfold World.badge
  rcases h v with h | h
  · rw [h]
  · rw [h, Option.map_map]
    rfl

theorem modifyUser_badge {f : UserSession → UserSession}
    (h : w.modifyUser u f = some w')
    (hf : ∀ s, (f s).stage.badge = s.stage.badge) : w'.badge = w.badge := by
  obtain ⟨s, hs, rfl⟩ := Option.map_eq_some_iff.mp h
  funext v
  unfold World.badge
  rw [setUser_stage_update]
  by_cases hv : v = u
  · rw [hv, Function.update_self, stage_eq hs, Option.map_some, Option.map_some,
      hf s]
  · rw [Function.update_of_ne hv]

theorem stage_session {p : Stage} (h : w.stage u = some p) :
    ∃ s, w.users u = some s ∧ s.stage = p :=
  Option.map_eq_some_iff.mp h

/-- The end of `UserSession::MessageHandle`. -/
theorem switch_stage {ret : Bool} {p : Stage} {state next : StateType}
    (hp : w.stage u = some p) (hstate : p.stateMachine = some state)
    (hnext : p.nextState = some next)
    (h : (do
      let s ← w.users u
      match s.nextState, s.stateMachine with
      | some next, some state =>
          if next ≠ state then
            some (true, w.setUser u { s with stateMachine := some next })
          else some (true, w)
      | _, _ => some (true, w)) = some (ret, w')) :
    ret = true ∧ w'.stage =
      Function.update w.stage u (some { p with stateMachine := some next }) := by
  obtain ⟨s, hs, rfl⟩ := stage_session hp
  have hstate' : s.stateMachine = some state := hstate
  have hnext' : s.nextState = some next := hnext
  simp only [hs, hstate', hnext', Option.bind_eq_bind, Option.bind_some] at h
  split at h
  · cases h
    refine ⟨rfl, ?_⟩
    rw [setUser_stage_update]
    simp only [UserSession.stage, hnext']
  · rename_i hsame
    cases h
    have hsame : next = state := by simpa using hsame
    refine ⟨rfl, ?_⟩
    rw [show ({ s.stage with stateMachine := some next } : Stage) = s.stage from
      by rw [hsame, ← hstate], ← hp, Function.update_eq_self]

/-- Who has a state object is about to keep it, or to go on to the next. -/
theorem settled_next {state : StateType} (hsettled : s.place.Settled)
    (hstate : s.stateMachine = some state) :
    s.nextState = some state ∨
      (state ≠ .auth ∧ s.nextState = some state.successor) := by
  have hstate' : s.place.stateMachine = some state := hstate
  unfold Place.Settled at hsettled
  rw [hstate'] at hsettled
  split at hsettled
  · exact Or.inl (hsettled.2.trans hsettled.1.symm)
  · rcases hsettled with ⟨hnext, _⟩ | ⟨hplay, hnext⟩
    · exact Or.inl hnext
    · injection hplay with hplay
      subst hplay
      exact Or.inr ⟨by decide, hnext⟩

/-- What a message for `u` leaves, when `e` brought it to the world `w₀`. -/
structure Carried (env : Env) (w₀ : World) (e : Event) (u : SessionId)
    (p : Stage) (ret : Bool) (w w' : World) : Prop where
  others : ∀ v, v ≠ u → w'.badge v = w.badge v
  session : ∃ s', w'.users u = some s' ∧ s'.clifd = p.clifd
  own : ret = true →
    ∃ b, w'.badge u = some b ∧ w₀.Passes env e u p.badge b

/-- One session's stage is replaced. -/
theorem Carried.of_update {w₀ : World} {e : Event} {p p' : Stage} {ret : Bool}
    (h : w'.stage = Function.update w.stage u (some p'))
    (hclifd : p'.clifd = p.clifd)
    (hpasses : ret = true → w₀.Passes env e u p.badge p'.badge) :
    Carried env w₀ e u p ret w w' := by
  have hself : w'.stage u = some p' := by rw [h, Function.update_self]
  refine ⟨fun v hv => badge_congr ?_, ?_, fun hret => ⟨p'.badge, ?_,
    hpasses hret⟩⟩
  · rw [h, Function.update_of_ne hv]
  · obtain ⟨s', hs', hstage⟩ := stage_session hself
    exact ⟨s', hs', by rw [← hclifd, ← hstage]; rfl⟩
  · unfold World.badge
    rw [hself]
    rfl

/-- A login sets the account, and the next state object if it succeeds. -/
theorem login_stage {msgType : UInt32} {msg : Bytes} {ok : Bool} {w₁ : World}
    (hs : w.users u = some s) (hnext : s.nextState = some .auth)
    (hcode : MessageType.ofCode msgType = some .login)
    (hmsg : StateType.auth.msgHandle env u msgType msg w = some (ok, w₁)) :
    ok = true ∧ ∃ next account, w₁.stage = Function.update w.stage u (some
        { s.stage with nextState := some next, account := account }) ∧
      (next = .auth ∧ (account = s.userInfo.account ∨ account = []) ∨
        next = .downAd ∧ ∃ login row, env.proto.logOnorOut msg = some login ∧
          w.Admits env login row ∧ account = row.account) := by
  simp only [StateType.msgHandle, stateAuthMsgHandle, hcode,
    Option.bind_eq_bind, Option.bind_eq_some_iff] at hmsg
  obtain ⟨⟨accepted, w₂⟩, hhandle, w₃, hadvance, hmsg⟩ := hmsg
  cases hmsg
  obtain ⟨account, hstage, hfails, hsucceeds⟩ := handleLogin_stage hs hhandle
  refine ⟨rfl, ?_⟩
  cases accepted with
  | false =>
      cases hadvance
      refine ⟨.auth, account, ?_, Or.inl ⟨rfl, hfails rfl⟩⟩
      rw [hstage, ← hnext]
      rfl
  | true =>
      have hself : w₂.stage u = some { s.stage with account := account } := by
        rw [hstage, Function.update_self]
      rw [if_pos rfl] at hadvance
      obtain ⟨s₂, hs₂, hstage₂⟩ := stage_session hself
      rw [setNextState, modifyUser_eq hs₂] at hadvance
      injection hadvance with hadvance
      refine ⟨.downAd, account, ?_, Or.inr ⟨rfl, hsucceeds rfl⟩⟩
      rw [← hadvance, setUser_stage_update, hstage, Function.update_idem]
      have hsent : ({ s₂ with nextState := some .downAd } :
          UserSession).stage = { s₂.stage with nextState := some .downAd } :=
        rfl
      rw [hsent, hstage₂]

/-- What a login leaves when the state object was exchanged for the next. -/
theorem login_carried {w₀ : World} {e : Event} {msg : Bytes} {ret : Bool}
    {next : StateType} {account : Bytes} (hstate : s.stateMachine = some .auth)
    (hlogin : w₀.loginOf env e =
      (env.proto.logOnorOut msg).map fun login => (u, login))
    (hadmits : ∀ {login row}, w.Admits env login row →
      w₀.Admits env login row)
    (hstage : w'.stage = Function.update w.stage u (some { s.stage with
      stateMachine := some next, nextState := some next, account := account }))
    (hcases : next = .auth ∧ (account = s.userInfo.account ∨ account = []) ∨
      next = .downAd ∧ ∃ login row, env.proto.logOnorOut msg = some login ∧
        w.Admits env login row ∧ account = row.account) :
    Carried env w₀ e u s.stage ret w w' := by
  have hbadge : s.stage.badge = (.auth, s.userInfo.account) := by
    unfold Stage.badge UserSession.stage
    rw [hstate, Option.getD_some]
  refine .of_update hstage rfl fun _ => ?_
  rw [hbadge]
  rcases hcases with ⟨rfl, rfl | rfl⟩ | ⟨rfl, login, row, hparse, hrow, rfl⟩
  · exact .stay _
  · exact .refused
  · refine .login ?_ (hadmits hrow)
    rw [hlogin, hparse, Option.map_some]

/-- Any other message leaves the state object or asks for the next one. -/
theorem advanced_next {state : StateType} {msgType : UInt32} {msg : Bytes}
    {ok : Bool} {w₁ : World} (hs : w.users u = some s)
    (hstate : s.stateMachine = some state) (hsettled : s.place.Settled)
    (hother : state = .auth → MessageType.ofCode msgType ≠ some .login)
    (hmsg : state.msgHandle env u msgType msg w = some (ok, w₁)) :
    ∃ next, w₁.stage u = some { s.stage with nextState := some next } ∧
      (next = state ∨ (state ≠ .auth ∧ next = state.successor)) := by
  have hkept : w₁.stage u = w.stage u → ∃ next, w₁.stage u =
      some { s.stage with nextState := some next } ∧
        (next = state ∨ (state ≠ .auth ∧ next = state.successor)) := by
    intro hsame
    rw [hsame, stage_eq hs]
    rcases settled_next hsettled hstate with hnext | ⟨hne, hnext⟩
    · exact ⟨state, by rw [← hnext]; rfl, Or.inl rfl⟩
    · exact ⟨state.successor, by rw [← hnext]; rfl, Or.inr ⟨hne, rfl⟩⟩
  by_cases hauth : state = .auth
  · subst hauth
    exact hkept (congrFun (stateAuthMsgHandle_stage (hother rfl) hmsg) u)
  · rcases msgHandle_advanced hother hmsg u with hsame | hsent
    · exact hkept hsame
    · rw [hsent, stage_eq hs]
      exact ⟨state.successor, rfl, Or.inr ⟨hauth, rfl⟩⟩

/-- The state object gets a message, and may be exchanged for the next. -/
theorem object_carried {w₀ : World} {e : Event} {state : StateType}
    {msgType : UInt32} {msg : Bytes} {ret : Bool}
    (hs : w.users u = some s) (hstate : s.stateMachine = some state)
    (hsettled : s.place.Settled)
    (hlogin : state = .auth → MessageType.ofCode msgType = some .login →
      w₀.loginOf env e =
        (env.proto.logOnorOut msg).map fun login => (u, login))
    (hadmits : ∀ {login row}, w.Admits env login row →
      w₀.Admits env login row)
    (h : (do
      let (ret, w) ← state.msgHandle env u msgType msg w
      if ret then do
        let s ← w.users u
        match s.nextState, s.stateMachine with
        | some next, some state =>
            if next ≠ state then
              some (true, w.setUser u { s with stateMachine := some next })
            else some (true, w)
        | _, _ => some (true, w)
      else some (false, w)) = some (ret, w')) :
    Carried env w₀ e u s.stage ret w w' := by
  obtain ⟨⟨ok, w₁⟩, hmsg, h⟩ := Option.bind_eq_some_iff.mp h
  by_cases hcode : state = .auth ∧ MessageType.ofCode msgType = some .login
  · obtain ⟨rfl, hcode⟩ := hcode
    have hnext : s.nextState = some .auth := by
      rcases settled_next hsettled hstate with hnext | ⟨hne, _⟩
      · exact hnext
      · exact absurd rfl hne
    obtain ⟨rfl, next, account, hstage, hcases⟩ :=
      login_stage hs hnext hcode hmsg
    have hself := congrFun hstage u
    rw [Function.update_self] at hself
    obtain ⟨_, hswitch⟩ := switch_stage hself hstate rfl h
    rw [hstage, Function.update_idem] at hswitch
    exact login_carried hstate (hlogin rfl hcode) hadmits hswitch hcases
  · have hother : state = .auth → MessageType.ofCode msgType ≠ some .login :=
      fun hauth hlogin => hcode ⟨hauth, hlogin⟩
    have hadvanced : Advanced state w w₁ := msgHandle_advanced hother hmsg
    obtain ⟨next, hself, hcases⟩ :=
      advanced_next hs hstate hsettled hother hmsg
    cases ok with
    | false =>
        cases h
        refine ⟨fun v _ => hadvanced.badge v, ?_,
          fun hret => absurd hret (by decide)⟩
        obtain ⟨s', hs', hstage⟩ := stage_session hself
        exact ⟨s', hs', congrArg Stage.clifd hstage⟩
    | true =>
        dsimp only at h
        rw [if_pos rfl] at h
        obtain ⟨_, hswitch⟩ := switch_stage hself hstate rfl h
        have hown := congrFun hswitch u
        rw [Function.update_self] at hown
        refine ⟨fun v hv => ?_, ?_, fun _ =>
          ⟨(next, s.userInfo.account), ?_, ?_⟩⟩
        · rw [← hadvanced.badge v]
          exact badge_congr (by rw [hswitch, Function.update_of_ne hv])
        · obtain ⟨s', hs', hstage⟩ := stage_session hown
          exact ⟨s', hs', congrArg Stage.clifd hstage⟩
        · unfold World.badge
          rw [hown]
          rfl
        · unfold Stage.badge UserSession.stage
          rw [hstate, Option.getD_some]
          rcases hcases with rfl | ⟨hne, rfl⟩
          · exact .stay _
          · exact .switch hne

/-- What is carried does not depend on how the world came to be. -/
theorem Carried.congr {w₀ w₁ : World} {e : Event} {p p₁ : Stage} {ret : Bool}
    (h : Carried env w₀ e u p₁ ret w₁ w')
    (hothers : ∀ v, v ≠ u → w₁.badge v = w.badge v)
    (hclifd : p₁.clifd = p.clifd) (hbadge : p₁.badge = p.badge) :
    Carried env w₀ e u p ret w w' := by
  refine ⟨fun v hv => (h.others v hv).trans (hothers v hv), ?_, ?_⟩
  · rw [← hclifd]
    exact h.session
  · rw [← hbadge]
    exact h.own

/-- Who is let in depends on who is online and what was asked before. -/
theorem World.Admits.congr {login : LogOnorOut} {row : UserRow}
    (h : w'.Admits env login row) (hmap : w'.fdSessionMap = w.fdSessionMap)
    (hsql : w'.sqlLog = w.sqlLog)
    (haccount : ∀ v, (w'.users v).map (fun s => s.userInfo.account) =
      (w.users v).map fun s => s.userInfo.account) :
    w.Admits env login row := by
  refine ⟨?_, ?_, h.password⟩
  · rw [← getIndividualUser_congr login.account hmap haccount]
    exact h.free
  · rw [← userRow_congr login.account hsql]
    exact h.found

/-- What `UserSession::MessageHandle` leaves. -/
theorem sessionMessageHandle_carried {w₀ : World} {e : Event}
    {msgType : UInt32} {msg : Bytes} {ret : Bool} (hinv : w.layout.Inv)
    (hs : w.users u = some s)
    (hlogin : s.state = .auth → MessageType.ofCode msgType = some .login →
      w₀.loginOf env e =
        (env.proto.logOnorOut msg).map fun login => (u, login))
    (hadmits : ∀ {login row}, w.Admits env login row →
      w₀.Admits env login row)
    (h : sessionMessageHandle env u msgType msg w = some (ret, w')) :
    Carried env w₀ e u s.stage ret w w' := by
  have hsettled := hinv.settled u s.place (by simp [World.layout, hs])
    (by simp)
  simp only [sessionMessageHandle, hs, Option.bind_eq_bind,
    Option.bind_some] at h
  cases hstate : s.stateMachine with
  | none =>
      rw [hstate] at h
      dsimp only at h
      obtain ⟨t, ht⟩ : ∃ t : UserSession, t =
        { s with stateMachine := some .auth, nextState := some .auth } :=
        ⟨_, rfl⟩
      rw [← ht] at h
      have hstand := standing_of_settled hsettled (by simp [hstate])
      have hplace : t.place.Settled := by
        simp [Place.Settled, UserSession.place, ht, hstand]
      have haccounts : ∀ v, ((w.setUser u t).users v).map
          (fun s => s.userInfo.account) =
          (w.users v).map fun s => s.userInfo.account := by
        intro v
        by_cases hv : v = u
        · subst hv
          rw [setUser_users_self, hs, ht]
          rfl
        · rw [show (w.setUser u t).users v = w.users v from
            Function.update_of_ne hv _ _]
      have hcarried : Carried env w₀ e u t.stage ret (w.setUser u t) w' :=
        object_carried (setUser_users_self w u t) (by rw [ht]) hplace
          (fun _ hcode => hlogin (by rw [UserSession.state, hstate]; rfl) hcode)
          (fun hrow => hadmits (hrow.congr rfl rfl haccounts)) h
      refine hcarried.congr (fun v hv => badge_congr ?_) (by rw [ht]; rfl) ?_
      · rw [setUser_stage_update, Function.update_of_ne hv]
      · unfold Stage.badge UserSession.stage
        rw [hstate, ht]
        rfl
  | some state =>
      rw [hstate] at h
      exact object_carried hs hstate hsettled
        (fun hauth hcode => hlogin
          (by rw [UserSession.state, hstate, hauth]; rfl) hcode) hadmits h

/-! ## The end of a connection -/

theorem leaveCurrChessBoard_stage (h : leaveCurrChessBoard env u w = some w') :
    w'.stage = w.stage := by
  simp only [leaveCurrChessBoard, Option.bind_eq_bind,
    Option.bind_eq_some_iff] at h
  obtain ⟨s, _, h⟩ := h
  split at h
  · simp only [Option.bind_eq_some_iff] at h
    obtain ⟨w₁, hleave, h⟩ := h
    rw [modifyUser_stage h fun _ => rfl, leaveRoomHandle_stage hleave]
  · cases h
    rfl

/-- A session that is destructed has the stage of a new one. -/
theorem destructResource_stage (h : destructResource env u w = some w') :
    ∃ s : UserSession, (∀ p, w.stage u = some p → s.stage = p) ∧
      w'.stage = Function.update w.stage u (some s.destruct.stage) := by
  simp only [destructResource, Option.bind_eq_bind,
    Option.bind_eq_some_iff] at h
  obtain ⟨w₁, hleave, h⟩ := h
  have hstage := leaveCurrChessBoard_stage hleave
  obtain ⟨s, hs, rfl⟩ := Option.map_eq_some_iff.mp h
  refine ⟨s, fun p hp => ?_, ?_⟩
  · rw [← hstage, stage_eq hs, Option.some.injEq] at hp
    exact hp
  · rw [setUser_stage_update, hstage]

/-- A session with a descriptor forgets who it was for. -/
theorem destruct_badge (hclifd : s.clifd ≠ -1) :
    s.destruct.stage.badge = (.auth, []) := by
  simp only [destruct_eq, if_neg hclifd]
  rfl

/-- Trimming the pool deletes sessions and touches no other. -/
theorem destrorySessionsFromPool_stage {num : Nat}
    (h : destrorySessionsFromPool env num w = some w') (v : SessionId) :
    w'.stage v = none ∨ w'.stage v = w.stage v := by
  induction num generalizing w with
  | zero =>
      cases h
      exact Or.inr rfl
  | succ num ih =>
      unfold destrorySessionsFromPool at h
      split at h
      · cases h
        exact Or.inr rfl
      · rename_i x _
        simp only [Option.bind_eq_bind, Option.bind_eq_some_iff] at h
        obtain ⟨w₁, hdestruct, h⟩ := h
        obtain ⟨t, _, hstage⟩ := destructResource_stage hdestruct
        have hdeleted : (w₁.deleteSession x).stage =
            Function.update w₁.stage x none := by
          funext y
          show Option.map _ (Function.update w₁.users x none y) = _
          by_cases hy : y = x
          · rw [hy, Function.update_self, Function.update_self]
            rfl
          · rw [Function.update_of_ne hy, Function.update_of_ne hy]
            rfl
        have hsame : (w₁.deleteSession x).stage v = none ∨
            (w₁.deleteSession x).stage v = w.stage v := by
          rw [hdeleted]
          by_cases hv : v = x
          · subst hv
            rw [Function.update_self]
            exact Or.inl rfl
          · rw [Function.update_of_ne hv, hstage, Function.update_of_ne hv]
            exact Or.inr rfl
        rcases ih h with hnone | hkept
        · exact Or.inl hnone
        · rw [hkept]
          exact hsame

/-- A closed connection leaves a session without a name. -/
theorem closingClientCon_badge {fd : Int} (hlookup : w.fdSessionMap[fd]? = some u)
    (hs : w.users u = some s) (hclifd : s.clifd ≠ -1)
    (h : closingClientCon env fd w = some w') :
    (∀ v, v ≠ u → w'.badge v = none ∨ w'.badge v = w.badge v) ∧
      (w'.badge u = none ∨ w'.badge u = some (.auth, [])) := by
  unfold closingClientCon at h
  rw [hlookup] at h
  simp only [recycleSession, Option.bind_eq_bind,
    Option.bind_eq_some_iff] at h
  obtain ⟨w₁, hdestruct, h⟩ := h
  obtain ⟨t, hkept, hstage⟩ := destructResource_stage hdestruct
  have ht : t.clifd ≠ -1 := by
    have hsame := congrArg Stage.clifd (hkept s.stage (stage_eq hs))
    rw [show t.stage.clifd = t.clifd from rfl] at hsame
    rw [hsame]
    exact hclifd
  have hlast : ∀ v, w'.stage v = none ∨ w'.stage v = w₁.stage v := by
    intro v
    split at h
    · exact destrorySessionsFromPool_stage h v
    · cases h
      exact Or.inr rfl
  refine ⟨fun v hv => ?_, ?_⟩
  · unfold World.badge
    rcases hlast v with hnone | hsame
    · rw [hnone]
      exact Or.inl rfl
    · rw [hsame, hstage, Function.update_of_ne hv]
      exact Or.inr rfl
  · unfold World.badge
    rcases hlast u with hnone | hsame
    · rw [hnone]
      exact Or.inl rfl
    · rw [hsame, hstage, Function.update_self, Option.map_some,
        destruct_badge ht]
      exact Or.inr rfl

/-! ## A new connection -/

/-- New sessions have no account. -/
theorem creatSessionsPool_badge (w : World) (num : Nat) (v : SessionId) :
    (creatSessionsPool num w).badge v = w.badge v ∨
      (creatSessionsPool num w).badge v = some (.auth, []) := by
  induction num with
  | zero => exact Or.inl rfl
  | succ num ih =>
      have hnew : (creatSessionsPool (num + 1) w).stage = Function.update
          (creatSessionsPool num w).stage (creatSessionsPool num w).nextUser
          (some (UserSession.stage {})) := by
        funext y
        show Option.map _ (Function.update (creatSessionsPool num w).users
          (creatSessionsPool num w).nextUser (some {}) y) = _
        by_cases hy : y = (creatSessionsPool num w).nextUser
        · rw [hy, Function.update_self, Function.update_self]
          rfl
        · rw [Function.update_of_ne hy, Function.update_of_ne hy]
          rfl
      by_cases hv : v = (creatSessionsPool num w).nextUser
      · right
        unfold World.badge
        rw [hnew, hv, Function.update_self]
        rfl
      · have hsame : (creatSessionsPool (num + 1) w).badge v =
            (creatSessionsPool num w).badge v :=
          badge_congr (by rw [hnew, Function.update_of_ne hv])
        rw [hsame]
        exact ih

/-- Only new sessions appear when a connection is accepted. -/
theorem notifyAddEvent_badge {fd : Int} (h : notifyAddEvent fd w = some w')
    (v : SessionId) :
    w'.badge v = w.badge v ∨ w'.badge v = some (.auth, []) := by
  simp only [notifyAddEvent, Option.bind_eq_bind,
    Option.bind_eq_some_iff] at h
  obtain ⟨⟨x, w₁⟩, hget, w₂, hset, h⟩ := h
  cases h
  obtain ⟨rest, _, hpool⟩ := getOneSessionFromPool_eq hget
  have hserved : w₂.badge = w.filled.badge := by
    rw [modifyUser_badge hset fun _ => rfl]
    show World.badge w₁ = _
    rw [hpool]
    rfl
  have hmap : ({ w₂ with
      fdSessionMap := w₂.fdSessionMap.insertIfNew fd x } : World).badge =
      w₂.badge := rfl
  rw [hmap, hserved]
  unfold World.filled
  split
  · exact creatSessionsPool_badge w _ v
  · exact Or.inl rfl

/-! ## One event -/

/-- Whoever has no state object past the first has no account. -/
def World.Anonymous (w : World) : Prop :=
  ∀ v account, w.badge v = some (.auth, account) → account = []

/-- What one event does to what sessions are held for. -/
structure Staged (env : Env) (e : Event) (w w' : World) : Prop where
  /-- a connection that stays open -/
  live : ∀ v fd, w.layout.registry fd = some v →
    w'.layout.registry fd = some v →
    ∃ p p', w.badge v = some p ∧ w'.badge v = some p' ∧ w.Passes env e v p p'
  /-- any other session -/
  rest : ∀ v p, (∀ fd, w.layout.registry fd = some v →
    w'.layout.registry fd ≠ some v) → w'.badge v = some p → p = (.auth, [])
  /-- only an accept opens a connection -/
  opened : ∀ v fd, w.layout.registry fd ≠ some v →
    w'.layout.registry fd = some v → e = .accept fd

/-- Whoever has a connection has a badge. -/
theorem registered_badge {absent : Option SessionId} {fd : Int}
    (hregistry : w.layout.Registry absent)
    (hreg : w.layout.registry fd = some u) : ∃ p, w.badge u = some p := by
  obtain ⟨s, hs, _⟩ := registered_session hregistry hreg
  exact ⟨_, badge_eq hs⟩

/-- Whoever has none has an empty one. -/
theorem unregistered_badge {v : SessionId} {p : StateType × Bytes}
    (hinv : w.layout.Inv) (hanon : w.Anonymous)
    (hv : ∀ fd, w.layout.registry fd ≠ some v) (hp : w.badge v = some p) :
    p = (.auth, []) := by
  obtain ⟨q, hq, rfl⟩ := Option.map_eq_some_iff.mp hp
  obtain ⟨s, hs, rfl⟩ := stage_session hq
  have hplace : w.layout.place v = some s.place := by simp [World.layout, hs]
  rcases hinv.registry.placed hplace (by simp) with hpool | hreg
  · obtain ⟨r, hr, hidle⟩ := hinv.registry.pooled hpool
    rw [hplace, Option.some.injEq] at hr
    subst hr
    have hnone : s.stateMachine = none := hidle.stateMachine
    have hauth : s.stage.badge = (.auth, s.userInfo.account) := by
      unfold Stage.badge UserSession.stage
      rw [hnone]
      rfl
    rw [hauth] at hp ⊢
    rw [hanon v _ hp]
  · exact absurd hreg (hv _)

/-- An event of `u` that keeps every connection. -/
theorem Staged.of_kept {e : Event} {fd : Int} (hinv : w.layout.Inv)
    (hanon : w.Anonymous) (hreg : w.layout.registry fd = some u)
    (hregistry : w'.layout.registry = w.layout.registry)
    (hothers : ∀ v, v ≠ u → w'.badge v = w.badge v)
    (hown : ∀ p, w.badge u = some p →
      ∃ p', w'.badge u = some p' ∧ w.Passes env e u p p') :
    Staged env e w w' := by
  refine ⟨fun v k hk _ => ?_, fun v p hv hp => ?_, fun v k hk hk' => ?_⟩
  · obtain ⟨p, hp⟩ := registered_badge hinv.registry hk
    by_cases hvu : v = u
    · subst hvu
      obtain ⟨p', hp', hpasses⟩ := hown p hp
      exact ⟨p, p', hp, hp', hpasses⟩
    · exact ⟨p, p, hp, (hothers v hvu).trans hp, .stay p⟩
  · have hnot : ∀ k, w.layout.registry k ≠ some v := fun k hk =>
      hv k hk (by rw [hregistry, hk])
    have hvu : v ≠ u := by
      rintro rfl
      exact hnot fd hreg
    rw [hothers v hvu] at hp
    exact unregistered_badge hinv hanon hnot hp
  · rw [hregistry] at hk'
    exact absurd hk' hk

/-- An event of `u` that closes its connection. -/
theorem Staged.of_closed {e : Event} {fd : Int} (hinv : w.layout.Inv)
    (hanon : w.Anonymous) (hreg : w.layout.registry fd = some u)
    (hinv' : w'.layout.Inv) (hregistry : w'.layout.registry =
      Function.update w.layout.registry fd none)
    (hothers : ∀ v, v ≠ u → w'.badge v = none ∨ w'.badge v = w.badge v)
    (hown : w'.badge u = none ∨ w'.badge u = some (.auth, [])) :
    Staged env e w w' := by
  refine ⟨fun v k hk hk' => ?_, fun v p hv hp => ?_, fun v k hk hk' => ?_⟩
  · have hkfd : k ≠ fd := by
      rintro rfl
      rw [hregistry, Function.update_self] at hk'
      cases hk'
    have hvu : v ≠ u := by
      rintro rfl
      obtain ⟨s, hs, hclifd, _⟩ := registered_session hinv.registry hreg
      obtain ⟨s', hs', hclifd', _⟩ := registered_session hinv.registry hk
      rw [hs, Option.some.injEq] at hs'
      rw [← hs'] at hclifd'
      exact hkfd (hclifd'.symm.trans hclifd)
    obtain ⟨p, hp⟩ := registered_badge hinv.registry hk
    obtain ⟨p', hp'⟩ := registered_badge hinv'.registry hk'
    rcases hothers v hvu with hnone | hsame
    · rw [hnone] at hp'
      cases hp'
    · exact ⟨p, p, hp, hsame.trans hp, .stay p⟩
  · by_cases hvu : v = u
    · subst hvu
      rcases hown with hnone | hauth
      · rw [hnone] at hp
        cases hp
      · rw [hauth] at hp
        cases hp
        rfl
    · have hnot : ∀ k, w.layout.registry k ≠ some v := by
        intro k hk
        refine hv k hk ?_
        rw [hregistry, Function.update_of_ne, hk]
        rintro rfl
        rw [hreg] at hk
        cases hk
        exact hvu rfl
      rcases hothers v hvu with hnone | hsame
      · rw [hnone] at hp
        cases hp
      · rw [hsame] at hp
        exact unregistered_badge hinv hanon hnot hp
  · rw [hregistry] at hk'
    by_cases hkfd : k = fd
    · rw [hkfd, Function.update_self] at hk'
      cases hk'
    · rw [Function.update_of_ne hkfd] at hk'
      exact absurd hk' hk

/-- Bytes in a buffer change no badge. -/
theorem Buffers.badge (h : Buffers u w w') (hs : w.users u = some s)
    (v : SessionId) : w'.badge v = w.badge v := by
  by_cases hv : v = u
  · subst hv
    obtain ⟨s', hs', hcore⟩ := h.session s hs
    obtain ⟨_, _, _, _, hstate, _, hinfo, _⟩ := core_eq hcore
    rw [badge_eq hs', badge_eq hs, hstate, hinfo]
  · refine badge_congr ?_
    unfold World.stage
    rw [h.users v hv]

/-- A read callback that hands on a message. -/
theorem message_staged {e : Event} {fd : Int} {msgType : UInt32} {msg : Bytes}
    {ret : Bool} {w₁ w₂ : World} (hinv : w.layout.Inv) (hanon : w.Anonymous)
    (hreg : w.layout.registry fd = some u) (hs : w.users u = some s)
    (hb : Buffers u w w₁)
    (hlogin : s.state = .auth → MessageType.ofCode msgType = some .login →
      w.loginOf env e =
        (env.proto.logOnorOut msg).map fun login => (u, login))
    (hmsg : messageHandle env fd msgType msg w₁ = some (ret, w₂))
    (h : (if ret then (w₂.modifyUser u fun s => { s with bufInfo := {} })
      else some w₂) = some w') (hinv' : w'.layout.Inv) :
    Staged env e w w' := by
  have hinv₁ := hb.inv hinv hreg
  have hreg₁ : w₁.layout.registry fd = some u := by rw [hb.registry, hreg]
  obtain ⟨s₁, hs₁, hcore⟩ := hb.session s hs
  obtain ⟨_, _, _, _, hstate, _, hinfo, _⟩ := core_eq hcore
  have hbadge : s₁.stage.badge = s.stage.badge := by
    unfold Stage.badge UserSession.stage
    rw [hstate, hinfo]
  have haccounts : ∀ v, (w₁.users v).map (fun s => s.userInfo.account) =
      (w.users v).map fun s => s.userInfo.account := by
    intro v
    by_cases hv : v = u
    · rw [hv, hs₁, hs, Option.map_some, Option.map_some, hinfo]
    · rw [hb.users v hv]
  have hcases := messageHandle_cases hinv₁ hreg₁ hmsg
  have hlookup : w₁.fdSessionMap[fd]? = some u := hreg₁
  simp only [messageHandle, hlookup, Option.bind_eq_bind,
    Option.bind_eq_some_iff] at hmsg
  obtain ⟨⟨ok, w₃⟩, hsession, hmsg⟩ := hmsg
  have hcarried : Carried env w e u s₁.stage ok w₁ w₃ :=
    sessionMessageHandle_carried hinv₁ hs₁
      (fun hauth => hlogin (by rw [UserSession.state, ← hstate]; exact hauth))
      (fun hrow => hrow.congr hb.fdSessionMap hb.sqlLog haccounts) hsession
  have hothers : ∀ v, v ≠ u → w₃.badge v = w.badge v := fun v hv =>
    (hcarried.others v hv).trans (hb.badge hs v)
  cases ok with
  | true =>
      cases hmsg
      rw [if_pos rfl] at h
      rcases hcases with ⟨_, hh⟩ | ⟨hret, _⟩
      · refine .of_kept hinv hanon hreg ?_ (fun v hv => ?_) fun p hp => ?_
        · obtain ⟨t, ht, rfl⟩ := Option.map_eq_some_iff.mp h
          exact hh.registry.trans hb.registry
        · rw [modifyUser_badge h fun _ => rfl, hothers v hv]
        · obtain ⟨p', hp', hpasses⟩ := hcarried.own rfl
          rw [modifyUser_badge h fun _ => rfl]
          rw [badge_eq hs, Option.some.injEq] at hp
          subst hp
          rw [hbadge] at hpasses
          exact ⟨p', hp', hpasses⟩
      · cases hret
  | false =>
      simp only [Bool.false_eq_true, if_false, Option.bind_eq_some_iff] at hmsg
      obtain ⟨w₄, hclose, hmsg⟩ := hmsg
      cases hmsg
      cases h
      rcases sessionMessageHandle_cases hinv₁ hreg₁ hs₁ hsession with
        ⟨hret, _⟩ | hdismissed
      · cases hret
      · have hreg₃ : w₃.fdSessionMap[fd]? = some u := by
          rcases hdismissed with ⟨_, _, d⟩ | ⟨_, _, _, d⟩
          · exact (congrFun d.registry fd).trans hreg₁
          · exact (congrFun d.registry fd).trans hreg₁
        obtain ⟨s₃, hs₃, hclifd₃⟩ := hcarried.session
        obtain ⟨t, ht, htfd, honline⟩ :=
          registered_session hinv₁.registry hreg₁
        rw [hs₁, Option.some.injEq] at ht
        subst ht
        have hopen : s₃.clifd ≠ -1 := by
          have hpos := honline.clifd
          have hsame : s₃.clifd = s₁.place.clifd := hclifd₃
          omega
        obtain ⟨hrest, hself⟩ :=
          closingClientCon_badge hreg₃ hs₃ hopen hclose
        rcases hcases with ⟨hret, _⟩ | ⟨_, _, w₅, c, _, hsame, _⟩
        · cases hret
        · refine .of_closed hinv hanon hreg hinv' ?_ (fun v hv => ?_) hself
          · rw [c.registry, hsame, hb.registry]
          · rw [← hothers v hv]
            exact hrest v hv

/-- An event that closes the connection of `u`. -/
theorem closing_staged {e : Event} {fd : Int} {w₁ : World}
    (hinv : w.layout.Inv) (hanon : w.Anonymous)
    (hreg : w.layout.registry fd = some u) (hb : Buffers u w w₁)
    (h : closingClientCon env fd w₁ = some w') : Staged env e w w' := by
  obtain ⟨s, hs, _⟩ := registered_session hinv.registry hreg
  have hinv₁ := hb.inv hinv hreg
  have hreg₁ : w₁.layout.registry fd = some u := by rw [hb.registry, hreg]
  obtain ⟨s₁, hs₁, hfd, honline⟩ := registered_session hinv₁.registry hreg₁
  have hopen : s₁.clifd ≠ -1 := by
    have hpos := honline.clifd
    have hsame : s₁.clifd = s₁.place.clifd := rfl
    omega
  obtain ⟨c, _⟩ := closing_step hinv hreg hb h
  obtain ⟨hrest, hself⟩ := closingClientCon_badge hreg₁ hs₁ hopen h
  refine .of_closed hinv hanon hreg c.inv ?_ (fun v hv => ?_) hself
  · rw [c.registry, hb.registry]
  · rw [← hb.badge hs v]
    exact hrest v hv

/-- A connection that is accepted begins in the login state. -/
theorem accept_staged {fd : Int} (hinv : w.layout.Inv) (hanon : w.Anonymous)
    (hfd : 0 ≤ fd) (hfree : w.fdSessionMap[fd]? = none)
    (h : notifyAddEvent fd w = some w') : Staged env (.accept fd) w w' := by
  obtain ⟨a, x, t, hregistry, _⟩ := notifyAddEvent_admitted hinv hfd hfree h
  refine ⟨fun v k hk _ => ?_, fun v p hv hp => ?_, fun v k hk hk' => ?_⟩
  · obtain ⟨s, hs, _⟩ := registered_session hinv.registry hk
    have hs' := a.users v s hs (hinv.registry.not_mem_pool hk)
    exact ⟨_, _, badge_eq hs, badge_eq hs', .stay _⟩
  · rcases notifyAddEvent_badge h v with hsame | hnew
    · have hnot : ∀ k, w.layout.registry k ≠ some v := by
        intro k hk
        refine hv k hk ?_
        rw [hregistry, Function.update_of_ne, hk]
        rintro rfl
        have hnone : w.layout.registry k = none := hfree
        rw [hnone] at hk
        cases hk
      rw [hsame] at hp
      exact unregistered_badge hinv hanon hnot hp
    · rw [hnew] at hp
      cases hp
      rfl
  · by_cases hkfd : k = fd
    · rw [hkfd]
    · rw [hregistry, Function.update_of_ne hkfd] at hk'
      exact absurd hk' hk

/-- The step lemma. -/
theorem step_staged {e : Event} (hinv : w.layout.Inv) (hanon : w.Anonymous)
    (henabled : e.Enabled w) (h : World.step env e w = some w') :
    Staged env e w w' := by
  have hinv' := (step_spec hinv henabled h).inv
  cases e with
  | accept fd => exact accept_staged hinv hanon henabled.1 henabled.2 h
  | read u data =>
      obtain ⟨s, hs, hbuf⟩ := henabled
      have hreg := enabled_registered hinv hs (Or.inl hbuf)
      obtain ⟨input, hinput⟩ := Option.ne_none_iff_exists'.mp hbuf
      obtain ⟨t, ht, _, honline⟩ := registered_session hinv.registry hreg
      rw [hs, Option.some.injEq] at ht
      subst ht
      obtain ⟨w₁, info, hb, _, _, hstep⟩ :=
        read_step env data hs hinput honline.thread
      rw [hstep] at h
      cases hrecv : w.received u data with
      | waiting =>
          rw [hrecv] at h
          cases h
          exact .of_kept hinv hanon hreg hb.registry
            (fun v _ => hb.badge hs v)
            fun p hp => ⟨p, (hb.badge hs u).trans hp, .stay p⟩
      | refused =>
          rw [hrecv] at h
          exact closing_staged hinv hanon hreg hb h
      | broken =>
          rw [hrecv] at h
          cases h
      | message msgType msg =>
          rw [hrecv] at h
          simp only [World.handleReceived, Option.bind_eq_bind,
            Option.bind_eq_some_iff] at h
          obtain ⟨⟨ret, w₂⟩, hmsg, h⟩ := h
          refine message_staged hinv hanon hreg hs hb (fun hauth hcode => ?_)
            hmsg h hinv'
          unfold World.loginOf
          simp only [hrecv, hs, hauth, hcode, and_self, if_true]
  | event u events =>
      obtain ⟨s, hs, hbuf⟩ := henabled
      have hreg := enabled_registered hinv hs (Or.inl hbuf)
      simp only [World.step, onEventCb, hs, Option.bind_eq_bind,
        Option.bind_some, Option.bind_eq_some_iff] at h
      obtain ⟨_, _, h⟩ := h
      split at h
      · exact closing_staged hinv hanon hreg (Buffers.refl u w) h
      · cases h
        exact .of_kept hinv hanon hreg rfl (fun _ _ => rfl)
          fun p hp => ⟨p, hp, .stay p⟩
  | timer u =>
      obtain ⟨s, hs, hclifd⟩ := henabled
      have hreg := enabled_registered hinv hs (Or.inr hclifd)
      simp only [World.step, timerOutHandle, hs, Option.bind_eq_bind,
        Option.bind_some, Option.bind_eq_some_iff] at h
      obtain ⟨_, _, h⟩ := h
      exact closing_staged hinv hanon hreg (Buffers.refl u w) h

end ChessServer
