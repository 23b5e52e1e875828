import ChessServer.Lib.Lockstep
import ChessServer.Model.Client
import ChessServer.Proofs.Auth
import ChessServer.Proofs.Join

/-!
# Failed logins

A failed login may leave the row of the account that was tried in the session,
except for its name.  The next login overwrites it: whatever was tried before,
it goes as in a session where nothing was (`failed_logins_leave_no_trace`).
-/

namespace ChessServer

variable {env : Env} {u : SessionId}

/-! ## The machine -/

/-- The session is past the login. -/
def LoggedIn (u : SessionId) (w : World) : Prop :=
  ∃ s, w.users u = some s ∧ s.stateMachine = some .downAd

/-- What happens while a user tries to log in. -/
inductive Attempt where
  /-- a login, with what the database answers -/
  | login (env : Env) (msg : Bytes)
  /-- what the others do -/
  | others (w : World)

/-- A login, which never closes the connection. -/
def loginMessage (env : Env) (u : SessionId) (msg : Bytes) (w : World) :
    Option World := do
  let (ret, w) ← sessionMessageHandle env u MessageType.login.code msg w
  if ret then some w else none

/-- Logins of a session that fail, while nobody else touches the session. -/
def failedLogins (u : SessionId) (start : World) : Machine World Attempt where
  start := start
  enabled := fun e w =>
    match e with
    | .login env msg => ∀ w', loginMessage env u msg w = some w' →
        ¬ LoggedIn u w'
    | .others w' => w'.users u = w.users u
  step := fun e w =>
    match e with
    | .login env msg => loginMessage env u msg w
    | .others w' => some w'

/-- A session of a new connection. -/
def UserSession.fresh (s : UserSession) : UserSession :=
  { s with userInfo := {}, stateMachine := none, nextState := none }

/-- What the attempts leave as it was: the session has no account and no
picture, and it is not past the login. -/
structure UserSession.Untouched (s : UserSession) : Prop where
  account : s.userInfo.account = []
  headPhoto : s.userInfo.headPhoto = []
  auth : (s.stateMachine = none ∧ s.nextState = none) ∨
    (s.stateMachine = some .auth ∧ s.nextState = some .auth)

/-! ## The row of an account -/

/-- A row overwrites everything else. -/
theorem fetchUserRow_overwrites {info info' : UsersInfo}
    (h : info'.headPhoto = info.headPhoto) (row : UserRow) :
    fetchUserRow info' row = fetchUserRow info row := by
  unfold fetchUserRow
  rw [h]

theorem fetchUserRows_overwrite {info info' : UsersInfo}
    (h : info'.headPhoto = info.headPhoto) {rows : List UserRow}
    (hrows : 0 < rows.length) :
    rows.foldlM fetchUserRow info' = rows.foldlM fetchUserRow info := by
  cases rows with
  | nil => exact absurd hrows (Nat.lt_irrefl 0)
  | cons row rows =>
      rw [List.foldlM_cons, List.foldlM_cons, fetchUserRow_overwrites h row]

/-! ## A login -/

theorem checkLogin_session {login : LogOnorOut} {ret : Bool}
    {status : ReplyStatus} {w w' : World} {s : UserSession}
    (hs : w.users u = some s)
    (h : checkLogin env u login w = some (ret, status, w')) :
    ∃ info, w'.users u = some { s with userInfo := info } ∧
      (ret = false → s.userInfo.account = [] →
        info.account = [] ∧ info.headPhoto = s.userInfo.headPhoto) := by
  simp only [checkLogin, hs, Option.bind_eq_bind, Option.bind_some,
    Option.bind_eq_some_iff] at h
  obtain ⟨t, _, free, _, h⟩ := h
  split at h
  · cases h
    exact ⟨s.userInfo, hs, fun _ haccount => ⟨haccount, rfl⟩⟩
  · obtain ⟨r, hquery, h⟩ := Option.bind_eq_some_iff.mp h
    obtain ⟨found, info, w₁⟩ := r
    obtain ⟨hphoto, husers, hnone⟩ := getUsersInfoFromDB_keeps hquery
    have hs₁ : w₁.users u = some s := by rw [husers, hs]
    rw [modifyUser_eq hs₁, Option.bind_some] at h
    split at h
    · rename_i hfound
      cases h
      have hinfo := hnone (by simpa using hfound)
      exact ⟨info, setUser_users_self _ _ _,
        fun _ haccount => ⟨by rw [hinfo, haccount], hphoto⟩⟩
    · split at h
      · obtain ⟨r, haccept, h⟩ := Option.bind_eq_some_iff.mp h
        cases h
        obtain ⟨_, hphoto'⟩ :=
          loginAccepted_session (setUser_users_self _ _ _) haccept
        exact ⟨_, hphoto', fun hret => absurd hret (by decide)⟩
      · rw [modifyUser_eq (setUser_users_self _ _ _), Option.bind_some] at h
        cases h
        exact ⟨_, setUser_users_self _ _ _, fun _ _ => ⟨rfl, hphoto⟩⟩

/-- A login only changes what the session knows of its user. -/
theorem handleLogin_session {msg : Bytes} {ret : Bool} {w w' : World}
    {s : UserSession} (hs : w.users u = some s)
    (h : handleLogin env u msg w = some (ret, w')) :
    ∃ info, w'.users u = some { s with userInfo := info } ∧
      (ret = false → s.userInfo.account = [] →
        info.account = [] ∧ info.headPhoto = s.userInfo.headPhoto) := by
  unfold handleLogin at h
  split at h
  · cases h
    exact ⟨s.userInfo, hs, fun _ haccount => ⟨haccount, rfl⟩⟩
  · simp only [Option.bind_eq_bind, Option.bind_eq_some_iff] at h
    obtain ⟨⟨ret, status, w₁⟩, hcheck, ⟨sent, w₂⟩, hreply, h⟩ := h
    cases h
    rw [(messageReply_notified hreply).users]
    exact checkLogin_session hs hcheck

/-! ## The state of the session -/

/-- What `MessageHandle` does with the result of `HandleLogin`. -/
def finishLogin (u : SessionId) (ret : Bool) (w : World) : Option World := do
  let w ← (if ret then setNextState u .downAd w else some w)
  let s ← w.users u
  match s.nextState, s.stateMachine with
  | some next, some state =>
      if next ≠ state then
        some (w.setUser u { s with stateMachine := some next })
      else some w
  | _, _ => some w

theorem loginMessage_eq (env : Env) (msg : Bytes) {w : World} {s : UserSession}
    (hs : w.users u = some s) (h : s.Untouched) :
    loginMessage env u msg w =
      (handleLogin env u msg (w.setUser u s.started)).bind fun r =>
        finishLogin u r.1 r.2 := by
  have hcode : MessageType.ofCode MessageType.login.code = some .login := rfl
  have hstate : s.started.stateMachine = some .auth := rfl
  unfold loginMessage
  rw [sessionMessageHandle_started hs h.auth]
  simp only [sessionMessageHandle, setUser_users_self, hstate,
    StateType.msgHandle, stateAuthMsgHandle, hcode, Option.bind_eq_bind,
    Option.bind_assoc, Option.bind_some, if_true]
  congr 1
  funext r
  unfold finishLogin
  simp only [Option.bind_eq_bind]
  congr 1
  funext w₁
  cases w₁.users u with
  | none => rfl
  | some s₁ =>
      rw [Option.bind_some, Option.bind_some]
      cases s₁.nextState with
      | none => rfl
      | some next =>
          cases s₁.stateMachine with
          | none => rfl
          | some state =>
              dsimp only
              split
              · rfl
              · rfl

/-- A session that has failed stays in its state. -/
theorem finishLogin_false {w : World} {s : UserSession}
    (hs : w.users u = some s) (hstate : s.stateMachine = some .auth)
    (hnext : s.nextState = some .auth) : finishLogin u false w = some w := by
  unfold finishLogin
  simp only [hs, hstate, hnext, Option.bind_eq_bind, Option.bind_some,
    Bool.false_eq_true, if_false, ne_eq, not_true]

/-- One that has succeeded goes on. -/
theorem finishLogin_true {w w' : World} {s : UserSession}
    (hs : w.users u = some s) (hstate : s.stateMachine = some .auth)
    (h : finishLogin u true w = some w') : LoggedIn u w' := by
  have hne : StateType.downAd ≠ .auth := by decide
  unfold finishLogin setNextState at h
  simp only [modifyUser_eq hs, hstate, Option.bind_eq_bind, Option.bind_some,
    setUser_users_self, if_true, ne_eq, hne, not_false_eq_true] at h
  cases h
  exact ⟨_, setUser_users_self _ _ _, rfl⟩

/-- An attempt that fails leaves a session untouched. -/
theorem untouched_login {msg : Bytes} {w w' : World} {s : UserSession}
    (hs : w.users u = some s) (h : s.Untouched)
    (hlogin : loginMessage env u msg w = some w')
    (hfailed : ¬ LoggedIn u w') :
    ∃ s', w'.users u = some s' ∧ s'.Untouched := by
  rw [loginMessage_eq env msg hs h] at hlogin
  obtain ⟨r, hhandle, hfinish⟩ := Option.bind_eq_some_iff.mp hlogin
  obtain ⟨ret, w₁⟩ := r
  obtain ⟨info, hinfo, hkept⟩ :=
    handleLogin_session (setUser_users_self w u s.started) hhandle
  cases ret with
  | true => exact absurd (finishLogin_true hinfo rfl hfinish) hfailed
  | false =>
      rw [finishLogin_false hinfo rfl rfl] at hfinish
      cases hfinish
      obtain ⟨haccount, hphoto⟩ := hkept rfl h.account
      exact ⟨_, hinfo, haccount, hphoto.trans h.headPhoto, .inr ⟨rfl, rfl⟩⟩

/-- A session in which every login so far has failed. -/
theorem reachable_untouched {start w : World} {s : UserSession}
    (hs : start.users u = some s) (hfresh : s.fresh = s)
    (h : (failedLogins u start).Reachable w) :
    ∃ s', w.users u = some s' ∧ s'.Untouched := by
  refine h.invariant (I := fun w => ∃ s', w.users u = some s' ∧ s'.Untouched)
    ⟨s, hs, ?_⟩ ?_
  · rw [← hfresh]
    exact ⟨rfl, rfl, .inl ⟨rfl, rfl⟩⟩
  · rintro e a b ⟨s, hs, huntouched⟩ henabled - hstep
    cases e with
    | login env msg =>
        exact untouched_login hs huntouched hstep (henabled b hstep)
    | others b' =>
        cases hstep
        exact ⟨s, henabled.trans hs, huntouched⟩

/-! ## A login that succeeds -/

/-- An account that is found says everything but the picture. -/
theorem getUsersInfoFromDB_overwrites {account : Bytes}
    {info info' info₁ : UsersInfo} {w w₁ : World}
    (hphoto : info'.headPhoto = info.headPhoto)
    (h : getUsersInfoFromDB env account info w = some (true, info₁, w₁))
    (s : UserSession) :
    getUsersInfoFromDB env account info' (w.setUser u s) =
      some (true, info₁, w₁.setUser u s) := by
  unfold getUsersInfoFromDB at h ⊢
  split at h
  · cases h
  · rename_i haccount
    rw [if_neg haccount]
    simp only [mysqlDbQuery, Option.bind_eq_bind,
      Option.bind_eq_some_iff] at h ⊢
    obtain ⟨r, hr, hfound⟩ := h
    have hquery : ∀ sql, ((w.setUser u s).query env sql).1 =
        (w.query env sql).1 := fun _ => rfl
    rw [hquery]
    split at hr
    · rename_i rows _
      obtain ⟨info₂, hfetch, hr⟩ := Option.bind_eq_some_iff.mp hr
      cases hr
      injection hfound with hfound
      injection hfound with hret hrest
      cases hrest
      have hlen : 0 < rows.length := by
        have hpos := of_decide_eq_true hret
        omega
      rw [fetchUserRows_overwrite hphoto hlen, hfetch]
      exact ⟨_, rfl, by rw [hret]; rfl⟩
    · cases hr
      cases hfound

/-- Whether an account is in use, when the session has none. -/
theorem getIndividualUser_setUser (account : Bytes) {w : World}
    {s s' : UserSession} (hs : w.users u = some s)
    (haccount : s'.userInfo.account = s.userInfo.account) :
    getIndividualUser account (w.setUser u s') =
      getIndividualUser account w := by
  refine getIndividualUser_congr account rfl fun v => ?_
  by_cases hv : v = u
  · subst hv
    rw [setUser_users_self, hs, Option.map_some, Option.map_some, haccount]
  · rw [show (w.setUser u s').users v = w.users v from
      Function.update_of_ne hv _ _]

/-- The sessions differ in what they know of their user. -/
structure UserSession.SameBut (s s' : UserSession) : Prop where
  thread : s'.thread = s.thread
  rest : ∀ info, { s' with userInfo := info } = { s with userInfo := info }
  account : s'.userInfo.account = s.userInfo.account
  headPhoto : s'.userInfo.headPhoto = s.userInfo.headPhoto

theorem checkLogin_overwrites {login : LogOnorOut} {status : ReplyStatus}
    {w w' : World} {s s' : UserSession} (hs : w.users u = some s)
    (hsame : s.SameBut s')
    (h : checkLogin env u login w = some (true, status, w')) :
    checkLogin env u login (w.setUser u s') = some (true, status, w') := by
  simp only [checkLogin, hs, setUser_users_self, Option.bind_eq_bind,
    Option.bind_some] at h ⊢
  rw [getIndividualUser_setUser login.account hs hsame.account, hsame.thread]
  obtain ⟨t, ht, h⟩ := Option.bind_eq_some_iff.mp h
  obtain ⟨free, hfree, h⟩ := Option.bind_eq_some_iff.mp h
  rw [ht, Option.bind_some, hfree, Option.bind_some]
  split at h
  · cases h
  · rename_i hnot
    rw [if_neg hnot]
    obtain ⟨r, hquery, h⟩ := Option.bind_eq_some_iff.mp h
    obtain ⟨found, info₁, w₁⟩ := r
    have hs₁ : w₁.users u = some s := by
      rw [(getUsersInfoFromDB_keeps hquery).2.1, hs]
    rw [modifyUser_eq hs₁, Option.bind_some] at h
    cases found with
    | false => cases h
    | true =>
        rw [getUsersInfoFromDB_overwrites hsame.headPhoto hquery,
          Option.bind_some, modifyUser_eq (setUser_users_self _ _ _),
          Option.bind_some, setUser_setUser, hsame.rest]
        exact h

theorem handleLogin_overwrites {msg : Bytes} {w w' : World}
    {s s' : UserSession} (hs : w.users u = some s) (hsame : s.SameBut s')
    (h : handleLogin env u msg w = some (true, w')) :
    handleLogin env u msg (w.setUser u s') = some (true, w') := by
  unfold handleLogin at h ⊢
  split at h
  · cases h
  · obtain ⟨r, hcheck, hreply⟩ := Option.bind_eq_some_iff.mp h
    obtain ⟨ret, status, w₁⟩ := r
    obtain ⟨sent, hsent, hret⟩ := Option.bind_eq_some_iff.mp hreply
    have hok : ret = true := congrArg Prod.fst (Option.some.inj hret)
    rw [hok] at hcheck hreply
    have hcheck' := checkLogin_overwrites hs hsame hcheck
    simp only [Option.bind_eq_bind, hcheck', Option.bind_some]
    exact hreply

/-- What failed logins leave in a session, a login does not see. -/
theorem loginMessage_fresh {msg : Bytes} {w w' : World} {s : UserSession}
    (hs : w.users u = some s) (h : s.Untouched)
    (hlogin : loginMessage env u msg w = some w') (hin : LoggedIn u w') :
    loginMessage env u msg (w.setUser u s.fresh) = some w' := by
  have hfresh : s.fresh.Untouched := ⟨rfl, rfl, .inl ⟨rfl, rfl⟩⟩
  rw [loginMessage_eq env msg hs h] at hlogin
  rw [loginMessage_eq env msg (setUser_users_self _ _ _) hfresh,
    setUser_setUser]
  obtain ⟨r, hhandle, hfinish⟩ := Option.bind_eq_some_iff.mp hlogin
  obtain ⟨ret, w₁⟩ := r
  obtain ⟨info, hinfo, -⟩ :=
    handleLogin_session (setUser_users_self w u s.started) hhandle
  cases ret with
  | false =>
      rw [finishLogin_false hinfo rfl rfl] at hfinish
      cases hfinish
      obtain ⟨s', hs', hstate⟩ := hin
      rw [hinfo] at hs'
      cases hs'
      cases hstate
  | true =>
      have hsame : s.started.SameBut s.fresh.started :=
        ⟨rfl, fun _ => rfl, h.account.symm, h.headPhoto.symm⟩
      have hhandle' := handleLogin_overwrites
        (setUser_users_self w u s.started) hsame hhandle
      rw [setUser_setUser] at hhandle'
      rw [hhandle', Option.bind_some]
      exact hfinish

/-! ## Two runs of a login -/

/-- The same users are there, and the database answers alike.  What was sent
since `base` and `base'` is the same. -/
structure Alike (env env' : Env) (base base' : List Sent) (w w' : World) :
    Prop where
  mysql : ∀ sqls sql, env'.mysql (sqls ++ sql :: w'.sqlLog) =
    env.mysql (sqls ++ sql :: w.sqlLog)
  users : w'.users = w.users
  fdSessionMap : w'.fdSessionMap = w.fdSessionMap
  sent : ∃ news, w.sent = news ++ base ∧ w'.sent = news ++ base'

variable {env' : Env} {base base' : List Sent} {w w' : World}

/-- The same result, in worlds that stay alike. -/
def SameResult {α : Type} (env env' : Env) (base base' : List Sent)
    (r r' : α × World) : Prop :=
  r'.1 = r.1 ∧ Alike env env' base base' r.2 r'.2

theorem Alike.query (h : Alike env env' base base' w w') (sql : Bytes) :
    SameResult env env' base base' (w.query env sql) (w'.query env' sql) := by
  refine ⟨h.mysql [] sql, fun sqls next => ?_, h.users, h.fdSessionMap,
    h.sent⟩
  have hlog := h.mysql (sqls ++ [next]) sql
  rw [List.append_assoc, List.append_assoc] at hlog
  exact hlog

theorem Alike.setUser (h : Alike env env' base base' w w')
    (s : UserSession) :
    Alike env env' base base' (w.setUser u s) (w'.setUser u s) where
  mysql := h.mysql
  users := by
    show Function.update w'.users u (some s) =
      Function.update w.users u (some s)
    rw [h.users]
  fdSessionMap := h.fdSessionMap
  sent := h.sent

theorem Alike.modifyUser (h : Alike env env' base base' w w')
    (f : UserSession → UserSession) :
    Option.Rel (Alike env env' base base') (w.modifyUser u f)
      (w'.modifyUser u f) := by
  unfold World.modifyUser
  rw [h.users]
  cases w.users u with
  | none => exact .none
  | some s => exact .some (h.setUser (f s))

theorem Alike.getIndividualUser (h : Alike env env' base base' w w')
    (account : Bytes) :
    getIndividualUser account w' = getIndividualUser account w := by
  unfold ChessServer.getIndividualUser
  rw [h.users, h.fdSessionMap]

theorem Alike.getUsersInfoFromDB (h : Alike env env' base base' w w')
    (account : Bytes) (info : UsersInfo) :
    Option.Rel (fun r r' => r'.1 = r.1 ∧
        SameResult env env' base base' r.2 r'.2)
      (getUsersInfoFromDB env account info w)
      (getUsersInfoFromDB env' account info w') := by
  unfold ChessServer.getUsersInfoFromDB mysqlDbQuery
  split
  · exact .some ⟨rfl, rfl, h⟩
  · obtain ⟨hreply, hquery⟩ := h.query (snprintf 254
      (lit "SELECT * FROM users_info WHERE account='" ++ cString account ++
        lit "'"))
    simp only [Option.bind_eq_bind]
    rw [hreply]
    split
    · rename_i rows _
      cases rows.foldlM fetchUserRow info with
      | none => exact .none
      | some info => exact .some ⟨rfl, rfl, hquery⟩
    · exact .some ⟨rfl, rfl, hquery⟩

theorem Alike.getHeadImageFromDB (h : Alike env env' base base' w w')
    (account data : Bytes) :
    (getHeadImageFromDB env' account data w').2.1 =
        (getHeadImageFromDB env account data w).2.1 ∧
      Alike env env' base base' (getHeadImageFromDB env account data w).2.2
        (getHeadImageFromDB env' account data w').2.2 := by
  obtain ⟨hreply, hquery⟩ := h.query (snprintf 254
    (lit "SELECT head_photo FROM users_info WHERE account='" ++
      cString account ++ lit "'"))
  unfold ChessServer.getHeadImageFromDB
  dsimp only
  rw [hreply]
  split
  · exact ⟨rfl, hquery⟩
  · exact ⟨rfl, hquery⟩
  · exact ⟨rfl, hquery⟩

theorem Alike.getImageVersionInfoFromDB (h : Alike env env' base base' w w')
    (info : ImageVersions) :
    (getImageVersionInfoFromDB env' info w').1 =
        (getImageVersionInfoFromDB env info w).1 ∧
      SameResult env env' base base' (getImageVersionInfoFromDB env info w).2
        (getImageVersionInfoFromDB env' info w').2 := by
  obtain ⟨hreply, hquery⟩ := h.query (lit
    "SELECT version, mandatory_update, image_info, locate_path FROM image_version ORDER BY id DESC limit 1")
  unfold ChessServer.getImageVersionInfoFromDB
  dsimp only
  rw [hreply]
  split
  · exact ⟨rfl, rfl, hquery⟩
  · exact ⟨rfl, rfl, hquery⟩

theorem Alike.getBuffer (h : Alike env env' base base' w w') (u : SessionId)
    (size size' : Nat) :
    Alike env env' base base' (w.getBuffer u size) (w'.getBuffer u size') := by
  have hleft : ∀ (w : World) (size : Nat),
      (w.getBuffer u size).users = w.users ∧
        (w.getBuffer u size).fdSessionMap = w.fdSessionMap ∧
        (w.getBuffer u size).sqlLog = w.sqlLog ∧
        (w.getBuffer u size).sent = w.sent := by
    intro w size
    have b := getBuffer_buffers u size w
    exact ⟨(getBuffer_notified u size w).users, b.fdSessionMap, b.sqlLog,
      b.sent⟩
  obtain ⟨husers, hmap, hlog, hsent⟩ := hleft w size
  obtain ⟨husers', hmap', hlog', hsent'⟩ := hleft w' size'
  refine ⟨?_, ?_, ?_, ?_⟩
  · rw [hlog, hlog']
    exact h.mysql
  · rw [husers, husers']
    exact h.users
  · rw [hmap, hmap']
    exact h.fdSessionMap
  · rw [hsent, hsent']
    exact h.sent

theorem Alike.messageReply (h : Alike env env' base base' w w')
    (u : SessionId) (type : MessageType) (body : Payload) :
    Option.Rel (SameResult env env' base base')
      (messageReply env u type body w) (messageReply env' u type body w') := by
  unfold ChessServer.messageReply onWrite
  simp only [Option.bind_eq_bind]
  refine Lockstep.read (by rw [h.users]) fun s _ => ?_
  refine Lockstep.read rfl fun t _ => ?_
  have hbuffer := h.getBuffer u ((body.bytes env).length + dataHeadLength)
    ((body.bytes env').length + dataHeadLength)
  refine Lockstep.ite (fun _ => .some ⟨rfl, hbuffer⟩) fun _ => ?_
  refine Lockstep.read (by rw [hbuffer.users]) fun s _ => ?_
  refine Lockstep.read rfl fun b _ => ?_
  obtain ⟨news, hsent, hsent'⟩ := hbuffer.sent
  refine .some ⟨rfl, hbuffer.mysql, hbuffer.users, hbuffer.fdSessionMap,
    ⟨u, type, body⟩ :: news, ?_, ?_⟩
  · show _ :: (w.getBuffer u _).sent = _
    rw [hsent]
    rfl
  · show _ :: (w'.getBuffer u _).sent = _
    rw [hsent']
    rfl

theorem Alike.loginAccepted (h : Alike env env' base base' w w')
    (u : SessionId) :
    Option.Rel (SameResult env env' base base') (loginAccepted env u w)
      (loginAccepted env' u w') := by
  unfold ChessServer.loginAccepted
  simp only [Option.bind_eq_bind]
  refine Lockstep.read (by rw [h.users]) fun s _ => ?_
  obtain ⟨hphoto, hquery⟩ :=
    h.getHeadImageFromDB s.userInfo.account s.userInfo.headPhoto
  rw [hphoto]
  refine Lockstep.bind (hquery.modifyUser _) fun w₁ w₁' h₁ => ?_
  refine Lockstep.read (by rw [h₁.users]) fun s₁ _ => ?_
  obtain ⟨hok, himage, hversion⟩ := h₁.getImageVersionInfoFromDB {}
  rw [hok, himage]
  exact .some ⟨rfl, hversion⟩

theorem Alike.checkLogin (h : Alike env env' base base' w w')
    (u : SessionId) (login : LogOnorOut) :
    Option.Rel (fun r r' => r'.1 = r.1 ∧
        SameResult env env' base base' r.2 r'.2)
      (checkLogin env u login w) (checkLogin env' u login w') := by
  unfold ChessServer.checkLogin
  simp only [Option.bind_eq_bind]
  refine Lockstep.read (by rw [h.users]) fun s _ => ?_
  refine Lockstep.read rfl fun t _ => ?_
  refine Lockstep.read (h.getIndividualUser login.account) fun free _ => ?_
  refine Lockstep.ite (fun _ => .some ⟨rfl, rfl, h⟩) fun _ => ?_
  refine Lockstep.bind (h.getUsersInfoFromDB login.account s.userInfo)
    fun r r' hr => ?_
  obtain ⟨hfound, hinfo, hquery⟩ := hr
  rw [hfound, hinfo]
  refine Lockstep.bind (hquery.modifyUser _) fun w₁ w₁' h₁ => ?_
  refine Lockstep.ite (fun _ => .some ⟨rfl, rfl, h₁⟩) fun _ => ?_
  refine Lockstep.ite (fun _ => ?_) fun _ => ?_
  · refine Lockstep.bind (h₁.loginAccepted u) fun r r' hr => ?_
    exact .some ⟨rfl, hr⟩
  · refine Lockstep.bind (h₁.modifyUser _) fun w₂ w₂' h₂ => ?_
    exact .some ⟨rfl, rfl, h₂⟩

theorem Alike.handleLogin (h : Alike env env' base base' w w')
    (hproto : env'.proto = env.proto) (u : SessionId) (msg : Bytes) :
    Option.Rel (SameResult env env' base base') (handleLogin env u msg w)
      (handleLogin env' u msg w') := by
  unfold ChessServer.handleLogin
  rw [hproto]
  split
  · exact .some ⟨rfl, h⟩
  · simp only [Option.bind_eq_bind]
    refine Lockstep.bind (h.checkLogin u _) fun r r' hr => ?_
    obtain ⟨hret, hstatus, hcheck⟩ := hr
    rw [hret, hstatus]
    refine Lockstep.bind (hcheck.messageReply u _ _) fun r r' hr => ?_
    exact .some ⟨rfl, hr.2⟩

theorem Alike.finishLogin (h : Alike env env' base base' w w')
    (u : SessionId) (ret : Bool) :
    Option.Rel (Alike env env' base base') (finishLogin u ret w)
      (finishLogin u ret w') := by
  unfold ChessServer.finishLogin setNextState
  simp only [Option.bind_eq_bind]
  refine Lockstep.bind (Lockstep.ite (fun _ => h.modifyUser _)
    fun _ => .some h) fun w₁ w₁' h₁ => ?_
  refine Lockstep.read (by rw [h₁.users]) fun s _ => ?_
  split
  · exact Lockstep.ite (fun _ => .some (h₁.setUser _)) fun _ => .some h₁
  · exact .some h₁

/-- A login in a new session goes the same way wherever the surroundings are
alike. -/
theorem Alike.loginMessage (h : Alike env env' base base' w w')
    (hproto : env'.proto = env.proto) (msg : Bytes) {s : UserSession}
    (hs : w.users u = some s) (huntouched : s.Untouched) :
    Option.Rel (Alike env env' base base') (loginMessage env u msg w)
      (loginMessage env' u msg w') := by
  have hs' : w'.users u = some s := by rw [h.users, hs]
  rw [loginMessage_eq env msg hs huntouched,
    loginMessage_eq env' msg hs' huntouched]
  refine Lockstep.bind ((h.setUser s.started).handleLogin hproto u msg)
    fun r r' hr => ?_
  rw [hr.1]
  exact hr.2.finishLogin u r.1

/-! ## No trace -/

/-- The loop of `GetIndividualUser` over some sessions. -/
def usedBy (account : Bytes) (w : World) (sessions : List SessionId) :
    Option Bool :=
  sessions.foldlM (fun found v =>
    if found then some true
    else (w.users v).map fun s => s.userInfo.account == account) false

/-- A session without an account is passed over. -/
theorem getIndividualUser_others {account : Bytes} {w : World}
    {s : UserSession} (hs : w.users u = some s)
    (hne : s.userInfo.account ≠ account) :
    getIndividualUser account w =
      (usedBy account w ((w.fdSessionMap.toList.map Prod.snd).filter
        (· != u))).map (!·) := by
  have hskip : ∀ (found : Bool) (v : SessionId), (v != u) = false →
      (if found then some true
        else (w.users v).map fun s => s.userInfo.account == account) =
        some found := by
    intro found v hv
    have hvu : v = u := by simpa using hv
    subst hvu
    cases found with
    | true => rfl
    | false =>
        rw [hs]
        exact congrArg some (beq_false_of_ne hne)
  unfold usedBy getIndividualUser
  rw [OptionFold.foldlM_filter hskip]
  exact Option.map_eq_bind.symm

/-- Whatever logins of a session have failed: it is not found for any account,
and the first login that succeeds leaves the users, and sends the replies, that
it does in a new session. -/
structure NoTrace (u : SessionId) (start : World) : Prop where
  offline : ∀ {w}, (failedLogins u start).Reachable w →
    ∀ account, account ≠ [] → getIndividualUser account w =
      (usedBy account w ((w.fdSessionMap.toList.map Prod.snd).filter
        (· != u))).map (!·)
  same : ∀ {w}, (failedLogins u start).Reachable w →
    ∀ {env msg w₁}, loginMessage env u msg w = some w₁ → LoggedIn u w₁ →
    ∀ {s}, w.users u = some s →
    ∀ {env' w'}, env'.proto = env.proto →
      Alike env env' w.sent w'.sent (w.setUser u s.fresh) w' →
      ∃ w₁', loginMessage env' u msg w' = some w₁' ∧
        Alike env env' w.sent w'.sent w₁ w₁'

/-- For every session of a new connection, and every database: its failed
logins leave no trace. -/
theorem failed_logins_leave_no_trace {start : World} {s : UserSession}
    (hs : start.users u = some s) (hfresh : s.fresh = s) :
    NoTrace u start where
  offline := by
    intro w hw account haccount
    obtain ⟨s, hs, h⟩ := reachable_untouched hs hfresh hw
    refine getIndividualUser_others hs fun heq => haccount ?_
    rw [← heq, h.account]
  same := by
    intro w hw env msg w₁ hlogin hin t ht env' w' hproto halike
    obtain ⟨s, hs, h⟩ := reachable_untouched hs hfresh hw
    have hst : s = t := Option.some.inj (hs.symm.trans ht)
    subst hst
    have hnew : s.fresh.Untouched := ⟨rfl, rfl, .inl ⟨rfl, rfl⟩⟩
    have hrun := loginMessage_fresh hs h hlogin hin
    exact Lockstep.follow
      (halike.loginMessage hproto msg (setUser_users_self _ _ _) hnew) hrun

/-! ## One failed login -/

/-- Session 0, which has connected. -/
def connectedSession : UserSession :=
  { clifd := 10, thread := some 0, bufev := some [] }

/-- The only session. -/
def connected : World :=
  { World.init.setUser 0 connectedSession with
    fdSessionMap := Std.TreeMap.empty.insert 10 0 }

/-- The message of a login. -/
def loginBody (account password : String) : Bytes :=
  Wire.encode [(1, .bytes (lit account)), (2, .bytes (lit password))]

/-- The state of session 0. -/
def World.isIn (w : World) (state : StateType) : Bool :=
  (w.users 0).any fun s => s.stateMachine == some state

theorem loggedIn_iff (w : World) :
    LoggedIn 0 w ↔ w.isIn .downAd = true := by
  unfold LoggedIn World.isIn
  rw [Option.any_eq_true]
  simp only [beq_iff_eq]

/-- Logging in as `b` after a wrong password for `a` is logging in as `b` with
a new session. -/
theorem wrong_password_no_trace : ∃ w s w₁ w₁',
    loginMessage Client.env 0 (loginBody "a" "q") connected = some w ∧
      w.users 0 = some s ∧
      loginMessage Client.env 0 (loginBody "b" "p") w = some w₁ ∧
      LoggedIn 0 w₁ ∧
      loginMessage Client.env 0 (loginBody "b" "p") (w.setUser 0 s.fresh) =
        some w₁' ∧
      w₁'.users = w₁.users := by
  have hrun : (loginMessage Client.env 0 (loginBody "a" "q") connected).any
      (fun w => !w.isIn .downAd && (w.users 0).isSome &&
        (loginMessage Client.env 0 (loginBody "b" "p") w).any
          fun w => w.isIn .downAd) = true := by decide +kernel
  obtain ⟨w, hwrong, htest⟩ := (Option.any_eq_true _ _).mp hrun
  simp only [Bool.and_eq_true, Bool.not_eq_true'] at htest
  obtain ⟨⟨hnot, hsome⟩, hright⟩ := htest
  obtain ⟨s, hs⟩ := Option.isSome_iff_exists.mp hsome
  obtain ⟨w₁, hright, hin⟩ := (Option.any_eq_true _ _).mp hright
  have henabled : (failedLogins 0 connected).enabled
      (.login Client.env (loginBody "a" "q")) connected := by
    intro w' hw'
    rw [hwrong] at hw'
    cases hw'
    rw [loggedIn_iff, hnot]
    exact Bool.false_ne_true
  have hreach : (failedLogins 0 connected).Reachable w :=
    .step (a := connected) .start henabled trivial hwrong
  have hlogged : LoggedIn 0 w₁ := (loggedIn_iff w₁).mpr hin
  have halike : Alike Client.env Client.env w.sent
      (w.setUser 0 s.fresh).sent (w.setUser 0 s.fresh) (w.setUser 0 s.fresh) :=
    ⟨fun _ _ => rfl, rfl, rfl, [], rfl, rfl⟩
  have hnone : NoTrace 0 connected :=
    failed_logins_leave_no_trace (s := connectedSession) rfl rfl
  obtain ⟨w₁', hsame, hend⟩ := hnone.same hreach hright hlogged hs rfl halike
  exact ⟨w, s, w₁, w₁', hwrong, hs, hright, hlogged, hsame, hend.users⟩

end ChessServer
