import ChessServer.Proofs.StepChanges
import ChessServer.Proofs.StepRenewal
import ChessServer.Model.Client

/-!
# Sessions that are used again

A session that waits in the pool is a new session but for `locate` and its
buffer (`pooled_new`).  What the server does with it is what it would do with a
new one, unless the buffer has grown and cuts a picture into longer pieces
(`recycled_as_new`).
-/

namespace ChessServer

variable {env : Env} {u v : SessionId} {w w' : World}

/-! ## What a session leaves behind -/

/-- What a session without a connection has been cleared of, and what only a
user on a chair has. -/
structure World.Rested (w : World) : Prop where
  fresh : ∀ v, w.nextUser ≤ v →
    w.users v = none ∧ ∀ b seat, (w.boards b).seat seat ≠ some v
  idle : ∀ v s, w.users v = some s → s.clifd = -1 →
    s.userInfo = {} ∧ s.adImgFp = none ∧ s.stateMachine = none ∧
      ∀ b seat, (w.boards b).seat seat ≠ some v
  status : ∀ v s, w.users v = some s →
    s.status = .notStart ∨ ∃ b seat, (w.boards b).seat seat = some v

namespace World.Rested

theorem congr (h : w.Rested) (husers : w'.users = w.users)
    (hnext : w'.nextUser = w.nextUser) (hboards : w'.boards = w.boards) :
    w'.Rested := by
  refine ⟨?_, ?_, ?_⟩
  · rw [husers, hnext, hboards]
    exact h.fresh
  · rw [husers, hboards]
    exact h.idle
  · rw [husers, hboards]
    exact h.status

/-- A session is assigned. -/
theorem setUser (h : w.Rested) {s s' : UserSession} (hs : w.users v = some s)
    (hidle : s'.clifd = -1 →
      s'.userInfo = {} ∧ s'.adImgFp = none ∧ s'.stateMachine = none ∧
        ∀ b seat, (w.boards b).seat seat ≠ some v)
    (hstatus : s'.status = .notStart ∨
      ∃ b seat, (w.boards b).seat seat = some v) : (w.setUser v s').Rested := by
  refine ⟨fun x hx => ?_, fun x t ht => ?_, fun x t ht => ?_⟩
  · obtain ⟨hnone, hseat⟩ := h.fresh x hx
    have hxv : x ≠ v := by
      rintro rfl
      rw [hs] at hnone
      cases hnone
    exact ⟨(Function.update_of_ne hxv _ _).trans hnone, hseat⟩
  · have ht : Function.update w.users v (some s') x = some t := ht
    by_cases hxv : x = v
    · subst hxv
      rw [Function.update_self, Option.some.injEq] at ht
      subst ht
      exact hidle
    · rw [Function.update_of_ne hxv] at ht
      exact h.idle x t ht
  · have ht : Function.update w.users v (some s') x = some t := ht
    by_cases hxv : x = v
    · subst hxv
      rw [Function.update_self, Option.some.injEq] at ht
      subst ht
      exact hstatus
    · rw [Function.update_of_ne hxv] at ht
      exact h.status x t ht

/-- A session keeps what it had to be cleared of. -/
theorem keep (h : w.Rested) {s s' : UserSession} (hs : w.users v = some s)
    (hclifd : s'.clifd = s.clifd) (hinfo : s'.userInfo = s.userInfo)
    (hpicture : s'.adImgFp = s.adImgFp)
    (hstate : s'.stateMachine = s.stateMachine)
    (hstatus : s'.status = s.status) : (w.setUser v s').Rested := by
  refine h.setUser hs ?_ ?_
  · rw [hclifd, hinfo, hpicture, hstate]
    exact h.idle v s hs
  · rw [hstatus]
    exact h.status v s hs

/-- A session with a state object serves a connection. -/
theorem busy (h : w.Rested) {s : UserSession} {state : StateType}
    (hs : w.users v = some s) (hstate : s.stateMachine = some state) :
    s.clifd ≠ -1 := by
  intro hclifd
  obtain ⟨_, _, hnone, _⟩ := h.idle v s hs hclifd
  rw [hstate] at hnone
  cases hnone

/-- A session that serves a connection may be assigned anything. -/
theorem serving (h : w.Rested) {s s' : UserSession} (hs : w.users v = some s)
    (hclifd : s.clifd ≠ -1) (hkept : s'.clifd = s.clifd)
    (hstatus : s'.status = s.status) : (w.setUser v s').Rested := by
  refine h.setUser hs (fun hc => absurd (hkept.symm.trans hc) hclifd) ?_
  rw [hstatus]
  exact h.status v s hs

/-- Chairs are assigned. -/
theorem modifyBoard (h : w.Rested) {b : BoardPtr} {board : ChessBoard}
    (hgain : ∀ x seat, board.seat seat = some x →
      (w.boards b).seat seat = some x ∨
        ∃ s, w.users x = some s ∧ s.clifd ≠ -1)
    (hlose : ∀ x seat s, (w.boards b).seat seat = some x →
      w.users x = some s → board.seat seat = some x ∨ s.status = .notStart) :
    (w.modifyBoard b fun _ => board).Rested := by
  have hseats : ∀ b' seat x,
      (Function.update w.boards b board b').seat seat = some x →
      (w.boards b').seat seat = some x ∨
        ∃ s, w.users x = some s ∧ s.clifd ≠ -1 := by
    intro b' seat x hseat
    by_cases hb : b' = b
    · subst hb
      rw [Function.update_self] at hseat
      exact hgain x seat hseat
    · rw [Function.update_of_ne hb] at hseat
      exact Or.inl hseat
  refine ⟨fun x hx => ?_, fun x s hs hclifd => ?_, fun x s hs => ?_⟩
  · obtain ⟨hnone, hseat⟩ := h.fresh x hx
    refine ⟨hnone, fun b' seat hsome => ?_⟩
    rcases hseats b' seat x hsome with hold | ⟨s, hs, _⟩
    · exact hseat b' seat hold
    · rw [hnone] at hs
      cases hs
  · obtain ⟨hinfo, hpicture, hstate, hseat⟩ := h.idle x s hs hclifd
    refine ⟨hinfo, hpicture, hstate, fun b' seat hsome => ?_⟩
    rcases hseats b' seat x hsome with hold | ⟨t, ht, hopen⟩
    · exact hseat b' seat hold
    · have hs : w.users x = some s := hs
      rw [hs, Option.some.injEq] at ht
      subst ht
      exact hopen hclifd
  · rcases h.status x s hs with hnot | ⟨b', seat, hseat⟩
    · exact Or.inl hnot
    · by_cases hb : b' = b
      · subst hb
        rcases hlose x seat s hseat hs with hkept | hnot
        · refine Or.inr ⟨b', seat, ?_⟩
          show (Function.update w.boards b' board b').seat seat = some x
          rw [Function.update_self]
          exact hkept
        · exact Or.inl hnot
      · refine Or.inr ⟨b', seat, ?_⟩
        show (Function.update w.boards b board b').seat seat = some x
        rw [Function.update_of_ne hb]
        exact hseat

/-- A user without a status leaves his chair. -/
theorem vacate (h : w.Rested) {b : BoardPtr} {seat : Seat} {s : UserSession}
    (hs : w.users v = some s) (hseat : (w.boards b).seat seat = some v)
    (hlocate : s.locate = seat.location) (hstatus : s.status = .notStart) :
    (w.modifyBoard b fun _ =>
      ((w.boards b).leaveOutRoom s.locate).2).Rested := by
  refine h.modifyBoard (fun x seat' hx => Or.inl (leaveOutRoom_seat hx))
    fun x seat' t hx ht => ?_
  rcases leaveOutRoom_cases (w.boards b) s.locate with
    ⟨hsame, _⟩ | ⟨free, hfree, _, _, hleft, _⟩
  · left
    rwa [hsame]
  · by_cases hseat' : seat' = free
    · -- the chair is the user's own
      right
      rw [hlocate, seatAt_location, Option.some.injEq] at hfree
      rw [hseat', ← hfree, hseat, Option.some.injEq] at hx
      rw [← hx, hs, Option.some.injEq] at ht
      rw [← ht]
      exact hstatus
    · left
      rw [hleft, Function.update_of_ne hseat']
      exact hx

/-- A session that serves a connection takes a free chair. -/
theorem take (h : w.Rested) {b : BoardPtr} {seat : Seat} {s : UserSession}
    (hs : w.users v = some s) (hclifd : s.clifd ≠ -1)
    (hfree : (w.boards b).seat seat = none) :
    (w.modifyBoard b fun _ =>
      { (w.boards b).setSeat seat (some v) with
        currUserNum := (w.boards b).currUserNum + 1 }).Rested := by
  have hset : ({ (w.boards b).setSeat seat (some v) with
      currUserNum := (w.boards b).currUserNum + 1 } : ChessBoard).seat =
      Function.update (w.boards b).seat seat (some v) := by
    rw [← setSeat_seat]
    funext x
    cases x <;> rfl
  refine h.modifyBoard (fun x seat' hx => ?_) fun x seat' t hx _ => Or.inl ?_
  · rw [hset] at hx
    by_cases hseat' : seat' = seat
    · right
      rw [hseat', Function.update_self, Option.some.injEq] at hx
      subst hx
      exact ⟨s, hs, hclifd⟩
    · left
      rwa [Function.update_of_ne hseat'] at hx
  · have hseat' : seat' ≠ seat := by
      rintro rfl
      rw [hfree] at hx
      cases hx
    rw [hset, Function.update_of_ne hseat']
    exact hx

/-- `DestructResource` clears a session that no board has any more. -/
theorem destruct (h : w.Rested) {s : UserSession} (hs : w.users v = some s)
    (hseat : ∀ b seat, (w.boards b).seat seat ≠ some v) :
    (w.setUser v s.destruct).Rested := by
  rw [destruct_eq]
  refine h.setUser hs (fun _ => ⟨?_, rfl, rfl, hseat⟩) (h.status v s hs)
  by_cases hclifd : s.clifd = -1
  · exact (if_pos hclifd).trans (h.idle v s hs hclifd).1
  · exact if_neg hclifd

/-- An object is deleted. -/
theorem delete (h : w.Rested) :
    World.Rested { w with users := Function.update w.users v none } := by
  have hkept : ∀ {x t}, Function.update w.users v none x = some t →
      w.users x = some t := by
    intro x t ht
    by_cases hxv : x = v
    · rw [hxv, Function.update_self] at ht
      cases ht
    · rwa [Function.update_of_ne hxv] at ht
  refine ⟨fun x hx => ⟨?_, (h.fresh x hx).2⟩,
    fun x t ht => h.idle x t (hkept ht), fun x t ht => h.status x t (hkept ht)⟩
  have hnone := (h.fresh x hx).1
  cases hx' : Function.update w.users v none x with
  | none => exact hx'
  | some t =>
      rw [hkept hx'] at hnone
      cases hnone

/-- An object is constructed. -/
theorem construct (h : w.Rested) :
    World.Rested { w with
      users := Function.update w.users w.nextUser (some {})
      nextUser := w.nextUser + 1 } := by
  have hold : ∀ {x t}, Function.update w.users w.nextUser
      (some {}) x = some t → (x = w.nextUser ∧ t = {}) ∨
        w.users x = some t := by
    intro x t ht
    by_cases hx : x = w.nextUser
    · rw [hx, Function.update_self, Option.some.injEq] at ht
      exact Or.inl ⟨hx, ht.symm⟩
    · rw [Function.update_of_ne hx] at ht
      exact Or.inr ht
  refine ⟨fun x hx => ?_, fun x t ht => ?_, fun x t ht => ?_⟩
  · have hlater : w.nextUser < x := hx
    obtain ⟨hnone, hseat⟩ := h.fresh x (Nat.le_of_lt hlater)
    exact ⟨(Function.update_of_ne (Nat.ne_of_gt hlater) _ _).trans hnone,
      hseat⟩
  · rcases hold ht with ⟨rfl, rfl⟩ | hs
    · exact fun _ => ⟨rfl, rfl, rfl, (h.fresh _ (Nat.le_refl _)).2⟩
    · exact h.idle x t hs
  · rcases hold ht with ⟨rfl, rfl⟩ | hs
    · exact Or.inl rfl
    · exact h.status x t hs

end World.Rested

/-- Every change keeps it. -/
theorem Change.rested (h : w.Rested) (hchange : Change u w w') :
    w'.Rested := by
  cases hchange with
  | buffer v size =>
      have hbuffer := getBuffer_notified v size w
      exact h.congr hbuffer.users hbuffer.nextUser hbuffer.boards
  | @publish hall id _ _ _ =>
      have hcreate := createChessBoard_notified hall id w
      exact h.congr hcreate.users hcreate.nextUser hcreate.boards
  | @mark b seat v s status hs hseat =>
      exact h.setUser hs (h.idle v s hs) (Or.inr ⟨b, seat, hseat⟩)
  | @score b seat v s score hs hseat =>
      refine h.serving hs (fun hclifd => ?_) rfl rfl
      exact (h.idle v s hs hclifd).2.2.2 b seat hseat
  | @note b board hseat hnum =>
      refine h.modifyBoard (fun x seat hx => Or.inl ?_) fun x seat s hx _ =>
        Or.inl ?_
      · rwa [hseat] at hx
      · rwa [hseat]
  | @vacate b seat v s hs hseat hlocate hstatus =>
      exact h.vacate hs hseat hlocate hstatus
  | release hs hboard => exact h.keep hs rfl rfl rfl rfl rfl
  | clear hs hboard hseat => exact h.keep hs rfl rfl rfl rfl rfl
  | @reject s hs => exact h.setUser hs (h.idle u s hs) (Or.inl rfl)
  | load info hs hstate => exact h.serving hs (h.busy hs hstate) rfl rfl
  | @edit s info hs hu haccount hscore =>
      obtain ⟨t, ht, hstate⟩ := hu
      rw [hs, Option.some.injEq] at ht
      subst ht
      refine h.serving hs ?_ rfl rfl
      rcases hstate with hstate | hstate
      · exact h.busy hs hstate
      · exact h.busy hs hstate
  | download fp hs hstate => exact h.serving hs (h.busy hs hstate) rfl rfl
  | advance hs hstate hnext => exact h.keep hs rfl rfl rfl rfl rfl
  | seek locate hs hstate => exact h.keep hs rfl rfl rfl rfl rfl
  | @take b seat s hs hlocate hstate hfree hroom hknown =>
      exact h.take hs (h.busy hs hstate) hfree
  | enter hs hseat => exact h.keep hs rfl rfl rfl rfl rfl
  | receive bufev info hs => exact h.keep hs rfl rfl rfl rfl rfl
  | start hs hclifd hstate => exact h.serving hs hclifd rfl rfl
  | switch hs hstate hnext => exact h.serving hs (h.busy hs hstate) rfl rfl
  | @destruct v s hs hboard hseat => exact h.destruct hs hseat
  | @delete v hlast => exact (h.delete (v := v)).congr rfl rfl rfl
  | construct => exact h.construct.congr rfl rfl rfl
  | @serve s rest fd hfd hpool hs =>
      refine World.Rested.congr (w := w.setUser u
        { s with clifd := fd, thread := some 0, bufev := some [] })
        (h.setUser hs (fun hclifd => ?_) (h.status u s hs)) rfl rfl rfl
      have hclifd : fd = -1 := hclifd
      omega
  | _ => exact h.congr rfl rfl rfl

/-- Nobody has been constructed yet. -/
theorem init_rested : World.init.Rested := by
  refine ⟨fun x _ => ⟨rfl, fun b seat hseat => ?_⟩, fun x s hs => ?_,
    fun x s hs => ?_⟩
  · cases seat <;> cases hseat
  · cases hs
  · cases hs

/-- Every run keeps it. -/
theorem reachable_rested (h : (server env).Reachable w) : w.Rested :=
  h.invariant_of (I := World.Rested) (fun hw => reachable_inv hw) init_rested
    fun hinv hrested henabled _ hstep => by
      obtain ⟨u, hchanges⟩ := step_changes hinv henabled hstep
      exact hchanges.invariant Change.rested hrested

/-- Whatever a session in the pool has been through, it is a new one but for
`locate`. -/
theorem pooled_new (hreach : (server env).Reachable w)
    (hpool : v ∈ w.sessionList) :
    ∃ locate, w.users v = some { locate := locate } := by
  have hinv := reachable_inv hreach
  have hrested := reachable_rested hreach
  obtain ⟨p, hp, hidle⟩ := hinv.registry.pooled hpool
  simp only [World.layout, Option.map_eq_some_iff] at hp
  obtain ⟨s, hs, rfl⟩ := hp
  obtain ⟨hinfo, hpicture, _, hseat⟩ := hrested.idle v s hs hidle.clifd
  have hstatus : s.status = .notStart := by
    rcases hrested.status v s hs with hnot | ⟨b, seat, hsome⟩
    · exact hnot
    · exact absurd hsome (hseat b seat)
  refine ⟨s.locate, hs.trans (congrArg some ?_)⟩
  obtain ⟨hclifd, hthread, hbufev, hbufInfo, hboard, hstate, hnext⟩ := hidle
  cases s
  simp only [UserSession.place] at *
  subst_vars
  rfl

/-! ## Two runs -/

/-- A new object in the place of a session. -/
def World.renew (v : SessionId) (w : World) : World :=
  { w with
    users := Function.update w.users v (some {})
    bufSize := Function.update w.bufSize v 0 }

/-- The same was sent, to clients and to the database, and the boards, the
halls and the connections are the same. -/
structure World.SameEffects (w w' : World) : Prop where
  sent : w'.sent = w.sent
  sqlLog : w'.sqlLog = w.sqlLog
  findPwd : w'.findPwd = w.findPwd
  boards : w'.boards = w.boards
  halls : w'.halls = w.halls
  fdSessionMap : w'.fdSessionMap = w.fdSessionMap

theorem Twins.sameEffects (h : Twins env v w w') : w.SameEffects w' := by
  obtain ⟨loose, h⟩ := h
  exact ⟨(congrArg World.sent h.rest :), h.sqlLog,
    (congrArg World.findPwd h.rest :), h.boards, h.halls, h.fdSessionMap⟩

/-- The buffer of the session is no longer than that of a new one will be, or no
picture is. -/
def World.Uncut (env : Env) (v : SessionId) (w : World) : Prop :=
  w.bufSize v ≤ maxDataLength ∨ env.SmallPictures

/-- The runs start together. -/
theorem renew_twins (hreach : (server env).Reachable w)
    (hpool : v ∈ w.sessionList) (huncut : w.Uncut env v) :
    Twins env v w (w.renew v) := by
  have hinv := reachable_inv hreach
  obtain ⟨locate, hs⟩ := pooled_new hreach hpool
  obtain ⟨p, hp, hidle⟩ := hinv.registry.pooled hpool
  refine ⟨True, rfl, fun u hu => Function.update_of_ne hu _ _,
    Or.inr ⟨trivial, _, locationLeft, hs, Function.update_self _ _ _⟩,
    fun _ => hinv.seating.not_seated hp hidle.currChessBoard,
    fun _ s hs' => ?_, fun u hu => ?_, ?_⟩
  · rw [hs, Option.some.injEq] at hs'
    rw [← hs']
  · show max (Function.update w.bufSize v 0 u) _ = _
    rw [Function.update_of_ne hu]
  · rcases huncut with hsize | hsmall
    · left
      show max (Function.update w.bufSize v 0 v) _ = _
      rw [Function.update_self, Nat.max_eq_right (Nat.zero_le _),
        Nat.max_eq_right hsize]
    · refine Or.inr ⟨hsmall, fun s hs' fp hfp => ?_⟩
      rw [hs, Option.some.injEq] at hs'
      rw [← hs'] at hfp
      cases hfp

/-- A session that is used again is a new one but for `locate` and its buffer,
and, where the buffer cuts no picture differently, whatever happens next has
the effects that it would have with a new one. -/
theorem recycled_as_new (hreach : (server env).Reachable w)
    (hpool : v ∈ w.sessionList) :
    (∃ locate, w.users v = some { locate := locate }) ∧
    (w.Uncut env v → ∀ events, Option.Rel World.SameEffects
      ((server env).run (fun _ _ => True) events w)
      ((server env).run (fun _ _ => True) events (w.renew v))) := by
  refine ⟨pooled_new hreach hpool, fun huncut events => ?_⟩
  have hrun := Lockstep.run (m := server env) (R := Twins env v)
    (fun e a b h => h.enabled e) (fun e a b h => h.step e) events
    (renew_twins hreach hpool huncut)
  exact Lockstep.mono hrun fun a b h => h.sameEffects

/-- A session that was playing on the right when its connection ended is used
again as a new one would be. -/
theorem recycled_as_new_right : ∃ w, (server Client.env).Reachable w ∧
    w.users 1 = some { locate := locationRight } ∧
    (∃ locate, w.users 1 = some { locate := locate }) ∧
    ∀ events, Option.Rel World.SameEffects
      ((server Client.env).run (fun _ _ => True) events w)
      ((server Client.env).run (fun _ _ => True) events (w.renew 1)) := by
  obtain ⟨w, hreach, htest⟩ := Client.reachable_after (fun _ _ => True)
    (Client.startGame ++ [.event 1 ⟨true, false, false, false, false⟩])
    (fun w => decide (w.users 1 = some { locate := locationRight }) &&
      decide (w.sessionList.head? = some 1))
    (by decide +kernel)
  rw [Bool.and_eq_true] at htest
  obtain ⟨hfields, hruns⟩ := recycled_as_new hreach
    (List.mem_of_head? (of_decide_eq_true htest.2))
  refine ⟨w, hreach, of_decide_eq_true htest.1, hfields, hruns ?_⟩
  exact Or.inr fun path file hfile => by cases hfile

/-! ## A buffer that has grown -/

/-- One picture, of 8300 bytes. -/
def album : Env :=
  { Client.env with
    mysql := fun sqls =>
      if (lit "SELECT * FROM ad_pictures").isPrefixOf (sqls.headD []) then
        .ads [⟨1, 1, none, none, none, some 8300, none, some (lit "p")⟩]
      else Client.database sqls
    fopen := fun _ => some (List.replicate 8300 0) }

/-- A frame of 8308 bytes, after which the connection is closed. -/
def longLogout : Bytes :=
  frame MessageType.logout.code (List.replicate 8300 0)

/-- Ask for a piece of the picture. -/
def nextPiece : Bytes :=
  Client.message .adImageReq [(1, .varint 1), (2, .varint 2)]

/-- How many bytes of a picture a message carries. -/
def Sent.pieceLength (m : Sent) : Nat :=
  match m.body with
  | .adPictureContentReply reply => (reply.content.getD []).length
  | _ => 0

/-- The pieces that a login and a request for one are answered with. -/
def piecesAfter (w : World) : Option (List Nat) :=
  ((server album).run (fun _ _ => True)
    [ .accept 11, .read 0 (Client.login "a"), .read 0 nextPiece ] w).map
      fun w => w.sent.map Sent.pieceLength

/-- The same effects include pieces of the same lengths. -/
theorem sameEffects_pieces {x y : Option World}
    (h : Option.Rel World.SameEffects x y) :
    y.map (fun w => w.sent.map Sent.pieceLength) =
      x.map fun w => w.sent.map Sent.pieceLength := by
  cases h with
  | none => rfl
  | some hab => rw [Option.map_some, Option.map_some, hab.sent]

/-- The buffer of the old session sends the picture in one piece, that of a new
one sends 8200 bytes first. -/
theorem long_buffer_sends_more :
    ¬ ∀ (env : Env) (w : World) (v : SessionId),
      (server env).Reachable w → v ∈ w.sessionList → ∀ events,
      Option.Rel World.SameEffects
        ((server env).run (fun _ _ => True) events w)
        ((server env).run (fun _ _ => True) events (w.renew v)) := by
  intro hall
  have hrun : ((server album).run (fun _ _ => True)
      [.accept 10, .read 0 longLogout] World.init).any (fun w =>
      decide (w.sessionList.head? = some 0) &&
        decide (piecesAfter w ≠ piecesAfter (w.renew 0))) = true := by
    decide +kernel
  obtain ⟨w, hw, htest⟩ := (Option.any_eq_true _ _).mp hrun
  rw [Bool.and_eq_true] at htest
  have hsame := hall album w 0 (Machine.reachableWith_of_run .start hw)
    (List.mem_of_head? (of_decide_eq_true htest.1))
    [ .accept 11, .read 0 (Client.login "a"), .read 0 nextPiece ]
  exact of_decide_eq_true htest.2 (sameEffects_pieces hsame).symm

end ChessServer
