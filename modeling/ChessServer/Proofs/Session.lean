import ChessServer.Proofs.Handlers

/-!
# What a session does on its own

Before a session is in a game its handlers change its own object, the
database and output buffers.  `Own u w w'` says so, and in particular that
`u` is led to no game; `Quiet w w'` says that no place, status or score
changed at all, which also holds of the handlers a player may use besides
the game (`stateAuthMsgHandle_own`, `stateAdPictureDownloadMsgHandle_own`).
-/

namespace ChessServer

/-- The part of a session that its table shows. -/
def UserSession.mark (s : UserSession) : UserGameStatus × UInt32 :=
  (s.status, s.userInfo.score)

/-- The status and the score of a session. -/
def World.mark (w : World) (u : SessionId) : Option (UserGameStatus × UInt32) :=
  (w.users u).map UserSession.mark

/-- The mark of a session shows its score. -/
theorem score_of_mark {w w' : World} {u : SessionId} {s : UserSession}
    (hs : w.users u = some s) (h : w'.mark u = w.mark u) :
    ∃ s', w'.users u = some s' ∧ s'.userInfo.score = s.userInfo.score := by
  simp only [World.mark, hs, Option.map_some, Option.map_eq_some_iff] at h
  obtain ⟨s', hs', hmark⟩ := h
  exact ⟨s', hs', congrArg Prod.snd hmark⟩

/-- The same chairs with equally marked users are the same table. -/
theorem table_eq_of_marks {w w' : World} {b : BoardPtr}
    (hboard : w'.boards b = w.boards b)
    (hmark : ∀ seat u, (w.boards b).seat seat = some u →
      w'.mark u = w.mark u) : w'.table b = w.table b := by
  refine Table.ext ?_ ?_ ?_ ?_ ?_ ?_
  · funext seat
    simp only [World.table, hboard]
    cases hseat : (w.boards b).seat seat with
    | none => rfl
    | some u =>
        have hu := hmark seat u hseat
        unfold World.mark at hu
        cases hs : w.users u with
        | none =>
            rw [hs, Option.map_none, Option.map_eq_none_iff] at hu
            simp [hs, hu]
        | some s =>
            rw [hs, Option.map_some, Option.map_eq_some_iff] at hu
            obtain ⟨s', hs', hmark⟩ := hu
            simp only [UserSession.mark, Prod.mk.injEq] at hmark
            simp [hs, hs', hmark]
  all_goals simp [World.table, hboard]

/-! ## Quiet changes -/

/-- No place, status or score changed. -/
structure Quiet (w w' : World) : Prop where
  layout : w'.layout = w.layout
  boards : w'.boards = w.boards
  mark : ∀ v, w'.mark v = w.mark v

theorem Quiet.refl (w : World) : Quiet w w := ⟨rfl, rfl, fun _ => rfl⟩

theorem Quiet.trans {w₁ w₂ w₃ : World} (h₁ : Quiet w₁ w₂)
    (h₂ : Quiet w₂ w₃) : Quiet w₁ w₃ :=
  ⟨h₂.layout.trans h₁.layout, h₂.boards.trans h₁.boards,
    fun v => (h₂.mark v).trans (h₁.mark v)⟩

/-- Quiet changes leave the tables as they are. -/
theorem Quiet.table {w w' : World} (h : Quiet w w') (b : BoardPtr) :
    w'.table b = w.table b :=
  table_eq_of_marks (congrFun h.boards b) fun _ u _ => h.mark u

/-- Sending is quiet. -/
theorem Notified.quiet {w w' : World} (h : Notified w w') : Quiet w w' :=
  ⟨h.layout, h.boards, fun v => by simp only [World.mark, h.users]⟩

/-- Overwriting a session without changing its place or its mark. -/
theorem setUser_quiet {w : World} {u : SessionId} {s s' : UserSession}
    (hs : w.users u = some s) (hplace : s'.place = s.place)
    (hmark : s'.mark = s.mark) : Quiet w (w.setUser u s') where
  layout := by
    have hupdate : (fun v => ((w.setUser u s').users v).map UserSession.place) =
        fun v => (w.users v).map UserSession.place := by
      funext v
      by_cases hv : v = u
      · subst hv
        simp [World.setUser, hs, hplace]
      · simp [World.setUser, hv]
    simp only [World.layout, hupdate]
    rfl
  boards := rfl
  mark := by
    intro v
    by_cases hv : v = u
    · subst hv
      simp [World.mark, World.setUser, hs, hmark]
    · simp [World.mark, World.setUser, hv]

/-- So is a statement. -/
theorem query_quiet (env : Env) (sql : Bytes) (w : World) :
    Quiet w (w.query env sql).2 := ⟨rfl, rfl, fun _ => rfl⟩

theorem echoMsgHandle_quiet {env : Env} {u : SessionId} {msg : Bytes}
    {w w' : World} {ret : Bool}
    (h : echoMsgHandle env u msg w = some (ret, w')) :
    ret = true ∧ Quiet w w' := by
  simp only [echoMsgHandle, Option.bind_eq_bind, Option.bind_eq_some_iff] at h
  obtain ⟨⟨_, w₁⟩, hreply, h⟩ := h
  cases h
  exact ⟨rfl, (messageReply_notified hreply).quiet⟩

theorem gameHallSumaryHandle_quiet {env : Env} {u : SessionId} {w w' : World}
    {ret : Bool} (h : gameHallSumaryHandle env u w = some (ret, w')) :
    ret = true ∧ Quiet w w' := by
  refine ⟨?_, (gameHallSumaryHandle_notified h).quiet⟩
  simp only [gameHallSumaryHandle, Option.bind_eq_bind,
    Option.bind_eq_some_iff] at h
  obtain ⟨_, _, _, _, h⟩ := h
  cases h
  rfl

theorem hallInfoReqHandle_quiet {env : Env} {u : SessionId} {msg : Bytes}
    {w w' : World} {ret : Bool}
    (h : hallInfoReqHandle env u msg w = some (ret, w')) :
    ret = true ∧ Quiet w w' := by
  unfold hallInfoReqHandle at h
  split at h
  · cases h
    exact ⟨rfl, Quiet.refl w⟩
  · simp only [Option.bind_eq_bind, Option.bind_eq_some_iff] at h
    obtain ⟨⟨info, w₁⟩, hwrap, h⟩ := h
    have n₁ := wrapHallInfo_notified hwrap
    dsimp only at h
    split at h
    · simp only [Option.bind_eq_some_iff] at h
      obtain ⟨⟨_, w₂⟩, hreply, h⟩ := h
      cases h
      exact ⟨rfl, (n₁.trans (messageReply_notified hreply)).quiet⟩
    · cases h
      exact ⟨rfl, n₁.quiet⟩

theorem chessBoardReq_quiet {env : Env} {u : SessionId} {msg : Bytes}
    {w w' : World} {ret : Bool}
    (h : chessBoardReq env u msg w = some (ret, w')) :
    ret = true ∧ Quiet w w' := by
  unfold chessBoardReq at h
  split at h
  · cases h
    exact ⟨rfl, Quiet.refl w⟩
  · simp only [Option.bind_eq_bind, Option.bind_eq_some_iff] at h
    obtain ⟨_, _, _, _, _, _, ⟨_, w₁⟩, hreply, h⟩ := h
    cases h
    exact ⟨rfl, (messageReply_notified hreply).quiet⟩

/-- Editing one's own data is quiet when the score is not edited. -/
theorem updateField_quiet {u : SessionId} {value : Option Bytes}
    {set : Bytes → UsersInfo → UsersInfo}
    {toDB : Bytes → Bytes → World → Bool × World} {w w' : World}
    (h : updateField u value set toDB w = some w')
    (hset : ∀ x i, (set x i).score = i.score)
    (htoDB : ∀ a x w, Quiet w (toDB a x w).2) : Quiet w w' := by
  unfold updateField at h
  split at h
  · cases h
    exact Quiet.refl w
  · rename_i x
    simp only [Option.bind_eq_bind, Option.bind_eq_some_iff] at h
    obtain ⟨s, hs, _, _, h⟩ := h
    cases h
    have q : Quiet w
        (w.setUser u { s with userInfo := set x s.userInfo }) :=
      setUser_quiet hs rfl (by simp only [UserSession.mark, hset])
    exact q.trans (htoDB _ _ _)

/-- So is the whole message that does it. -/
theorem updateUserInfos_quiet {env : Env} {u : SessionId} {msg : Bytes}
    {w w' : World} {ret : Bool}
    (h : updateUserInfos env u msg w = some (ret, w')) :
    ret = true ∧ Quiet w w' := by
  unfold updateUserInfos at h
  split at h
  · cases h
    exact ⟨rfl, Quiet.refl w⟩
  · simp only [Option.bind_eq_bind, Option.bind_eq_some_iff] at h
    obtain ⟨s, _, w₁, h₁, w₂, h₂, w₃, h₃, w₄, h₄, w₅, h₅, h⟩ := h
    cases h
    have q₁ := updateField_quiet h₁ (fun _ _ => rfl)
      fun _ _ w => query_quiet env _ w
    have q₂ := updateField_quiet h₂ (fun _ _ => rfl)
      fun _ _ w => query_quiet env _ w
    have q₃ := updateField_quiet h₃ (fun _ _ => rfl)
      fun _ _ w => query_quiet env _ w
    have q₄ := updateField_quiet h₄ (fun _ _ => rfl)
      fun _ _ w => query_quiet env _ w
    have q₅ := updateField_quiet h₅ (fun _ _ => rfl)
      fun _ _ w => query_quiet env _ w
    exact ⟨rfl, (((q₁.trans q₂).trans q₃).trans q₄).trans q₅⟩

/-! ## A session's own changes -/

/-- A place that changed on the way to the hall, not into a game. -/
structure Place.Drifts (p p' : Place) : Prop where
  clifd : p'.clifd = p.clifd
  thread : p'.thread = p.thread
  bufev : p'.bufev = p.bufev
  currChessBoard : p'.currChessBoard = p.currChessBoard
  stateMachine : p'.stateMachine = p.stateMachine
  nextState : p'.nextState = p.nextState ∨
    p'.nextState = some .downAd ∨ p'.nextState = some .gameReady
  locate : p.currChessBoard.isSome → p'.locate = p.locate
  bufInfo : p'.bufInfo = p.bufInfo

theorem Place.Drifts.refl (p : Place) : p.Drifts p :=
  ⟨rfl, rfl, rfl, rfl, rfl, Or.inl rfl, fun _ => rfl, rfl⟩

theorem Place.Drifts.trans {p q r : Place} (h₁ : p.Drifts q)
    (h₂ : q.Drifts r) : p.Drifts r where
  clifd := h₂.clifd.trans h₁.clifd
  thread := h₂.thread.trans h₁.thread
  bufev := h₂.bufev.trans h₁.bufev
  currChessBoard := h₂.currChessBoard.trans h₁.currChessBoard
  stateMachine := h₂.stateMachine.trans h₁.stateMachine
  nextState := by
    rcases h₂.nextState with h | h
    · rw [h]
      exact h₁.nextState
    · exact Or.inr h
  locate := fun hp =>
    (h₂.locate (h₁.currChessBoard ▸ hp)).trans (h₁.locate hp)
  bufInfo := h₂.bufInfo.trans h₁.bufInfo

/-- The state object of a session. -/
def World.InState (w : World) (u : SessionId) (state : StateType) : Prop :=
  ∃ s, w.users u = some s ∧ s.stateMachine = some state

/-- The state object is seen in the place. -/
theorem World.inState_iff {w : World} {state : StateType} :
    w.InState u state ↔
      ∃ p, w.layout.place u = some p ∧ p.stateMachine = some state := by
  constructor
  · rintro ⟨s, hs, hstate⟩
    exact ⟨s.place, by simp [World.layout, hs], hstate⟩
  · rintro ⟨p, hp, hstate⟩
    simp only [World.layout, Option.map_eq_some_iff] at hp
    obtain ⟨s, hs, rfl⟩ := hp
    exact ⟨s, hs, hstate⟩

/-- Only the session `u`, which is not seated, changed, and outside `AUTH` its
score did not. -/
structure Own (u : SessionId) (w w' : World) : Prop where
  boards : w'.boards = w.boards
  mark : ∀ v, v ≠ u → w'.mark v = w.mark v
  layout : ∀ p, w.layout.place u = some p →
    ∃ p', p.Drifts p' ∧ w'.layout = w.layout.modify u fun _ => p'
  score : ¬ w.InState u .auth → ∀ s, w.users u = some s →
    ∃ s', w'.users u = some s' ∧ s'.userInfo.score = s.userInfo.score

theorem Own.place {u : SessionId} {p : Place} {w w' : World}
    (q : Own u w w') (hp : w.layout.place u = some p) :
    ∃ p', w'.layout.place u = some p' ∧ p.Drifts p' := by
  obtain ⟨p', hdrift, hlayout⟩ := q.layout p hp
  refine ⟨p', ?_, hdrift⟩
  rw [hlayout, Layout.modify_self, hp, Option.map_some]

/-- A session that changes by itself keeps its state object. -/
theorem Own.inState {u : SessionId} {w w' : World} {state : StateType}
    (q : Own u w w') (hu : w.InState u state) : w'.InState u state := by
  obtain ⟨p, hp, hstate⟩ := World.inState_iff.mp hu
  obtain ⟨p', hp', hdrift⟩ := q.place hp
  exact World.inState_iff.mpr ⟨p', hp', hdrift.stateMachine.trans hstate⟩

/-- A session does not get into a state by changes of its own. -/
theorem Own.inState_of {u : SessionId} {s : UserSession} {w w' : World}
    {state : StateType} (q : Own u w w') (hs : w.users u = some s)
    (hu : w'.InState u state) : w.InState u state := by
  have hp : w.layout.place u = some s.place := by simp [World.layout, hs]
  obtain ⟨p', hp', hdrift⟩ := q.place hp
  obtain ⟨q', hq', hstate⟩ := World.inState_iff.mp hu
  rw [hp'] at hq'
  cases hq'
  exact World.inState_iff.mpr
    ⟨s.place, hp, hdrift.stateMachine.symm.trans hstate⟩

theorem Layout.modify_eq_self {l : Layout} {u : SessionId} {p : Place}
    (hp : l.place u = some p) : (l.modify u fun _ => p) = l := by
  have : Function.update l.place u ((l.place u).map fun _ => p) = l.place := by
    rw [hp]
    exact Function.update_eq_self_iff.mpr hp.symm
  simp [Layout.modify, this]

/-- A change may be described by its result. -/
theorem Layout.modify_const {l : Layout} {u : SessionId} {p : Place}
    (hp : l.place u = some p) (f : Place → Place) :
    l.modify u f = l.modify u fun _ => f p := by
  simp [Layout.modify, hp]

/-- Quiet changes are changes of one session at most. -/
theorem Quiet.own {w w' : World} (h : Quiet w w') (u : SessionId) :
    Own u w w' := by
  refine ⟨h.boards, fun v _ => h.mark v, fun p hp => ⟨p, .refl p, ?_⟩,
    fun _ s hs => ?_⟩
  · rw [Layout.modify_eq_self hp, h.layout]
  · exact score_of_mark hs (h.mark u)

theorem Notified.own {w w' : World} (h : Notified w w') (u : SessionId) :
    Own u w w' := h.quiet.own u

theorem Own.refl (u : SessionId) (w : World) : Own u w w :=
  (Quiet.refl w).own u

theorem Own.trans {u : SessionId} {w₁ w₂ w₃ : World} (h₁ : Own u w₁ w₂)
    (h₂ : Own u w₂ w₃) : Own u w₁ w₃ where
  boards := h₂.boards.trans h₁.boards
  mark := fun v hv => (h₂.mark v hv).trans (h₁.mark v hv)
  layout := by
    intro p hp
    obtain ⟨p', hdrift, hlayout⟩ := h₁.layout p hp
    have hp' : w₂.layout.place u = some p' := by
      rw [hlayout, Layout.modify_self, hp, Option.map_some]
    obtain ⟨p'', hdrift', hlayout'⟩ := h₂.layout p' hp'
    refine ⟨p'', hdrift.trans hdrift', ?_⟩
    rw [hlayout', hlayout]
    simp [Layout.modify, hp]
  score := by
    intro hstate s hs
    obtain ⟨s₂, hs₂, hscore⟩ := h₁.score hstate s hs
    obtain ⟨s₃, hs₃, hscore'⟩ :=
      h₂.score (fun h => hstate (h₁.inState_of hs h)) s₂ hs₂
    exact ⟨s₃, hs₃, hscore'.trans hscore⟩

/-- The places after one session was overwritten. -/
theorem layout_setUser {w : World} {u : SessionId} {s s' : UserSession}
    (hs : w.users u = some s) :
    (w.setUser u s').layout = w.layout.modify u fun _ => s'.place := by
  have hupdate : (fun v => ((w.setUser u s').users v).map UserSession.place) =
      Function.update (fun v => (w.users v).map UserSession.place) u
        (some s'.place) := by
    funext v
    by_cases hv : v = u
    · subst hv
      simp [World.setUser]
    · simp [World.setUser, hv]
  simp only [World.layout, Layout.modify, hupdate, hs, Option.map_some]
  rfl

/-- Assigning fields of a session changes that session. -/
theorem modifyUser_own {w w' : World} {u : SessionId}
    {f : UserSession → UserSession} (h : w.modifyUser u f = some w')
    (hf : ∀ s, w.users u = some s → s.place.Drifts (f s).place)
    (hscore : ¬ w.InState u .auth →
      ∀ s, (f s).userInfo.score = s.userInfo.score) : Own u w w' := by
  simp only [World.modifyUser, Option.map_eq_some_iff] at h
  obtain ⟨s, hs, rfl⟩ := h
  refine ⟨rfl, fun v hv => by simp [World.mark, World.setUser, hv],
    fun p hp => ?_, fun hstate s' hs' => ?_⟩
  · simp only [World.layout, hs, Option.map_some, Option.some.injEq] at hp
    exact ⟨(f s).place, hp ▸ hf s hs, layout_setUser hs⟩
  · rw [hs] at hs'
    cases hs'
    exact ⟨f s, by simp [World.setUser], hscore hstate s⟩

theorem setNextState_own {u : SessionId} {state : StateType} {w w' : World}
    (hstate : state = .downAd ∨ state = .gameReady)
    (h : setNextState u state w = some w') : Own u w w' := by
  refine modifyUser_own h (fun _ _ =>
    ⟨rfl, rfl, rfl, rfl, rfl, ?_, fun _ => rfl, rfl⟩) fun _ _ => rfl
  rcases hstate with rfl | rfl
  · exact Or.inr (Or.inl rfl)
  · exact Or.inr (Or.inr rfl)

theorem Place.Drifts.of_eq {p p' : Place} (h : p' = p) : p.Drifts p' :=
  h ▸ Place.Drifts.refl p

/-! ## StateAuth -/

/-- Registering changes no other session. -/
theorem handleRegister_own {env : Env} {u : SessionId} {msg : Bytes}
    {w w' : World} {ret : Bool}
    (h : handleRegister env u msg w = some (ret, w')) :
    ret = true ∧ Own u w w' := by
  unfold handleRegister at h
  split at h
  · cases h
    exact ⟨rfl, Own.refl u w⟩
  · simp only [Option.bind_eq_bind, Option.bind_eq_some_iff] at h
    obtain ⟨s, _, _, _, ⟨_, w₁⟩, hreply, h⟩ := h
    cases h
    refine ⟨rfl, Own.trans (Quiet.own ?_ u) ((messageReply_notified hreply).own u)⟩
    exact query_quiet env _ w

theorem mysqlDbQuery_quiet {env : Env} {sql : Bytes} {info info' : UsersInfo}
    {ret : Int} {w w' : World}
    (h : mysqlDbQuery env sql info w = some (ret, info', w')) :
    Quiet w w' := by
  unfold mysqlDbQuery at h
  dsimp only at h
  split at h
  · simp only [Option.bind_eq_bind, Option.bind_eq_some_iff] at h
    obtain ⟨_, _, h⟩ := h
    cases h
    exact query_quiet env sql w
  · cases h
    exact query_quiet env sql w

theorem getUsersInfoFromDB_quiet {env : Env} {account : Bytes}
    {info info' : UsersInfo} {found : Bool} {w w' : World}
    (h : getUsersInfoFromDB env account info w = some (found, info', w')) :
    Quiet w w' := by
  unfold getUsersInfoFromDB at h
  split at h
  · cases h
    exact Quiet.refl w
  · simp only [Option.bind_eq_bind, Option.bind_eq_some_iff] at h
    obtain ⟨⟨_, _, w₁⟩, hquery, h⟩ := h
    cases h
    exact mysqlDbQuery_quiet hquery

theorem getHeadImageFromDB_quiet (env : Env) (account data : Bytes)
    (w : World) : Quiet w (getHeadImageFromDB env account data w).2.2 := by
  unfold getHeadImageFromDB
  dsimp only
  split <;> exact query_quiet env _ w

theorem getImageVersionInfoFromDB_quiet (env : Env) (info : ImageVersions)
    (w : World) : Quiet w (getImageVersionInfoFromDB env info w).2.2 := by
  unfold getImageVersionInfoFromDB
  dsimp only
  split <;> exact query_quiet env _ w

theorem getAdPicturesInfoFromDB_quiet (env : Env) (id : UInt32)
    (info : AdPicturesInfo) (w : World) :
    Quiet w (getAdPicturesInfoFromDB env id info w).2.2 := by
  unfold getAdPicturesInfoFromDB
  dsimp only
  split <;> exact query_quiet env _ w

/-- Nor does an accepted login. -/
theorem loginAccepted_own {env : Env} {u : SessionId} {status : ReplyStatus}
    {w w' : World} (h : loginAccepted env u w = some (status, w')) :
    Own u w w' := by
  simp only [loginAccepted, Option.bind_eq_bind, Option.bind_eq_some_iff] at h
  obtain ⟨s, _, w₁, hphoto, s₁, _, h⟩ := h
  cases h
  have q₁ := (getHeadImageFromDB_quiet env s.userInfo.account
    s.userInfo.headPhoto w).own u
  have q₂ : Own u _ w₁ :=
    modifyUser_own hphoto (fun _ _ => .of_eq rfl) fun _ _ => rfl
  exact (q₁.trans q₂).trans ((getImageVersionInfoFromDB_quiet env {} w₁).own u)

/-- Nor the comparison before it. -/
theorem checkLogin_own {env : Env} {u : SessionId} {login : LogOnorOut}
    {ret : Bool} {status : ReplyStatus} {w w' : World}
    (hauth : w.InState u .auth)
    (h : checkLogin env u login w = some (ret, status, w')) : Own u w w' := by
  simp only [checkLogin, Option.bind_eq_bind, Option.bind_eq_some_iff] at h
  obtain ⟨s, _, _, _, free, _, h⟩ := h
  split at h
  · cases h
    exact Own.refl u w
  · simp only [Option.bind_eq_some_iff] at h
    obtain ⟨⟨found, info, w₁⟩, hquery, w₂, hinfo, h⟩ := h
    have q₁ := (getUsersInfoFromDB_quiet hquery).own u
    have q₂ : Own u w₁ w₂ := modifyUser_own hinfo (fun _ _ => .of_eq rfl)
      fun hstate => absurd (q₁.inState hauth) hstate
    have q := q₁.trans q₂
    split at h
    · cases h
      exact q
    · split at h
      · simp only [Option.bind_eq_some_iff] at h
        obtain ⟨⟨status, w₃⟩, haccept, h⟩ := h
        cases h
        exact q.trans (loginAccepted_own haccept)
      · simp only [Option.bind_eq_some_iff] at h
        obtain ⟨w₃, hclear, h⟩ := h
        cases h
        exact q.trans
          (modifyUser_own hclear (fun _ _ => .of_eq rfl) fun _ _ => rfl)

theorem handleLogin_own {env : Env} {u : SessionId} {msg : Bytes}
    {w w' : World} {ret : Bool} (hauth : w.InState u .auth)
    (h : handleLogin env u msg w = some (ret, w')) : Own u w w' := by
  unfold handleLogin at h
  split at h
  · cases h
    exact Own.refl u w
  · simp only [Option.bind_eq_bind, Option.bind_eq_some_iff] at h
    obtain ⟨⟨_, _, w₁⟩, hcheck, ⟨_, w₂⟩, hreply, h⟩ := h
    cases h
    exact (checkLogin_own hauth hcheck).trans ((messageReply_notified hreply).own u)

theorem handleFindPwd_quiet (env : Env) (msg : Bytes) (w : World) :
    Quiet w (handleFindPwd env msg w).2 := by
  unfold handleFindPwd
  split
  · exact Quiet.refl w
  · exact ⟨rfl, rfl, fun _ => rfl⟩

/-- Nothing in the login state changes another session. -/
theorem stateAuthMsgHandle_own {env : Env} {u : SessionId} {msgType : UInt32}
    {msg : Bytes} {w w' : World} {ret : Bool} (hauth : w.InState u .auth)
    (h : stateAuthMsgHandle env u msgType msg w = some (ret, w')) :
    Own u w w' := by
  unfold stateAuthMsgHandle at h
  split at h
  · exact (handleRegister_own h).2
  · simp only [Option.bind_eq_bind, Option.bind_eq_some_iff] at h
    obtain ⟨⟨ok, w₁⟩, hlogin, w₂, hnext, h⟩ := h
    cases h
    have q := handleLogin_own hauth hlogin
    split at hnext
    · exact q.trans (setNextState_own (Or.inl rfl) hnext)
    · cases hnext
      exact q
  · cases h
    exact Own.refl u w
  · exact (echoMsgHandle_quiet h).2.own u
  · have := (handleFindPwd_quiet env msg w).own u
    rwa [Option.some.inj h] at this
  · cases h
    exact Own.refl u w

/-! ## StateAdPictureDownload -/

theorem sendImageContent_own {env : Env} {u : SessionId} {w w' : World}
    {ret : Bool} (h : sendImageContent env u w = some (ret, w')) :
    Own u w w' := by
  simp only [sendImageContent, Option.bind_eq_bind,
    Option.bind_eq_some_iff] at h
  obtain ⟨s, _, h⟩ := h
  have q := (getBuffer_notified u maxDataLength w).own u
  split at h
  · cases h
    exact q
  · split at h
    · simp only [Option.bind_eq_some_iff] at h
      obtain ⟨w₁, hread, ⟨ok, w₂⟩, hreply, h⟩ := h
      have q₁ : Own u _ w₁ :=
        modifyUser_own hread (fun _ _ => .of_eq rfl) fun _ _ => rfl
      have q₂ := (q.trans q₁).trans ((messageReply_notified hreply).own u)
      dsimp only at h
      split at h
      · cases h
        exact q₂
      · simp only [Option.bind_eq_some_iff] at h
        obtain ⟨w₃, hclose, h⟩ := h
        cases h
        exact q₂.trans
          (modifyUser_own hclose (fun _ _ => .of_eq rfl) fun _ _ => rfl)
    · simp only [Option.bind_eq_some_iff] at h
      obtain ⟨w₁, hclose, ⟨_, w₂⟩, hreply, h⟩ := h
      cases h
      have q₁ : Own u _ w₁ :=
        modifyUser_own hclose (fun _ _ => .of_eq rfl) fun _ _ => rfl
      exact (q.trans q₁).trans ((messageReply_notified hreply).own u)

theorem openImage_own {env : Env} {u : SessionId} {id : UInt32}
    {w w' : World} (h : openImage env u id w = some w') : Own u w w' := by
  simp only [openImage, Option.bind_eq_bind, Option.bind_eq_some_iff] at h
  obtain ⟨s, _, h⟩ := h
  split at h
  · simp only [Option.bind_eq_some_iff] at h
    obtain ⟨_, _, h⟩ := h
    have q := (getAdPicturesInfoFromDB_quiet env id {} w).own u
    split at h
    · exact q.trans
        (modifyUser_own h (fun _ _ => .of_eq rfl) fun _ _ => rfl)
    · cases h
      exact q
  · cases h
    exact Own.refl u w

theorem adPictureReply_own {env : Env} {u : SessionId} {item : AdPictureReq}
    {w w' : World} {ret : Bool}
    (h : adPictureReply env u item w = some (ret, w')) : Own u w w' := by
  unfold adPictureReply at h
  split at h
  · simp only [Option.bind_eq_bind, Option.bind_eq_some_iff] at h
    obtain ⟨s, _, _, _, ⟨_, w₁⟩, hreply, h⟩ := h
    cases h
    have q := (getAdPicturesInfoFromDB_quiet env item.imageId {} w).own u
    exact q.trans ((messageReply_notified hreply).own u)
  · split at h
    · simp only [Option.bind_eq_bind, Option.bind_eq_some_iff] at h
      obtain ⟨w₁, hopen, h⟩ := h
      exact (openImage_own hopen).trans (sendImageContent_own h)
    · cases h
      exact Own.refl u w

/-- Nor in the state that sends pictures. -/
theorem stateAdPictureDownloadMsgHandle_own {env : Env} {u : SessionId}
    {msgType : UInt32} {msg : Bytes} {w w' : World} {ret : Bool}
    (h : stateAdPictureDownloadMsgHandle env u msgType msg w =
      some (ret, w')) : Own u w w' := by
  unfold stateAdPictureDownloadMsgHandle at h
  split at h
  · unfold adPictureItemHandle at h
    split at h
    · cases h
      exact Own.refl u w
    · simp only [Option.bind_eq_bind, Option.bind_eq_some_iff] at h
      obtain ⟨⟨ok, w₁⟩, hreply, s, _, w₂, hnext, h⟩ := h
      cases h
      have q := adPictureReply_own hreply
      split at hnext
      · exact q.trans (setNextState_own (Or.inr rfl) hnext)
      · cases hnext
        exact q
  · exact (echoMsgHandle_quiet h).2.own u
  · cases h
    exact Own.refl u w

end ChessServer
