import ChessServer.Proofs.StateRenewal

/-!
# Two runs of the worker

Closing, accepting and the read callback keep the runs together: after the same
events they have sent the same (`Twins.step`, `Twins.enabled`).
-/

namespace ChessServer

variable {env : Env} {u v : SessionId} {loose : Prop} {w w' : World}

/-! ## The end of a connection -/

namespace Renewed

/-- A session leaves its board when its connection ends. -/
theorem leaveCurrChessBoard (h : Renewed env v loose w w') (u : SessionId) :
    Option.Rel (Renewed env v loose) (leaveCurrChessBoard env u w)
      (leaveCurrChessBoard env u w') := by
  unfold ChessServer.leaveCurrChessBoard
  refine Lockstep.bind (h.user u) fun s s' hm => ?_
  have hboarded := h.boarded hm.left
  obtain ⟨locate, rfl⟩ := hm.differ
  dsimp only
  split
  · rename_i board hboard
    have hfirm := hboarded (by rw [hboard]; exact Option.some_ne_none board)
    refine Lockstep.bind (h.leaveRoomHandle board hfirm true)
      fun w₁ w₁' h₁ => ?_
    exact h₁.modifyUser u inert_stand
  · exact .some h

/-- The cleared session keeps its `locate`. -/
theorem inert_destruct : Inert UserSession.destruct where
  locate := by
    intro s locate
    rw [destruct_eq, destruct_eq]
  board := by
    intro s hnone
    rw [destruct_eq]
    exact hnone
  picture := by
    intro s _ fp hfp
    rw [destruct_eq] at hfp
    cases hfp

/-- A session is cleared alike. -/
theorem destructResource (h : Renewed env v loose w w') (u : SessionId) :
    Option.Rel (Renewed env v loose) (destructResource env u w)
      (destructResource env u w') := by
  unfold ChessServer.destructResource
  refine Lockstep.bind (h.leaveCurrChessBoard u) fun w₁ w₁' h₁ => ?_
  exact h₁.modifyUser u inert_destruct

/-! ## The pool -/

/-- A new session is the same object in both runs. -/
theorem newSession (h : Renewed env v loose w w') :
    Renewed env v loose w.newSession w'.newSession := by
  have hwrite := h.write (u := w.nextUser) (t := some ({} : UserSession))
    (r := some {}) (fun _ => rfl) (fun _ => Or.inl rfl)
    (fun _ _ _ t ht => by cases ht; rfl)
    fun _ _ _ t ht fp hfp => by cases ht; cases hfp
  have hnew := hwrite.record (f := fun w =>
    { w with
      nextUser := w.nextUser + 1
      sessionList := w.sessionList ++ [w.nextUser] })
    (fun _ => rfl) (fun _ => rfl) (fun _ => rfl) fun _ => rfl
  have hsame : w'.newSession =
      { w' with
        users := Function.update w'.users w.nextUser (some {})
        nextUser := w'.nextUser + 1
        sessionList := w'.sessionList ++ [w'.nextUser] } := by
    unfold World.newSession
    rw [h.nextUser]
  rw [hsame]
  exact hnew

theorem creatSessionsPool (h : Renewed env v loose w w') (num : Nat) :
    Renewed env v loose (creatSessionsPool num w)
      (creatSessionsPool num w') := by
  induction num with
  | zero => exact h
  | succ num ih => exact ih.newSession

/-- A session is deleted with its buffer. -/
theorem deleteSession (h : Renewed env v loose w w') (u : SessionId) :
    Renewed env v loose (w.deleteSession u) (w'.deleteSession u) := by
  have hwrite := h.write (u := u) (t := none) (r := none) (fun _ => rfl)
    (fun _ => Or.inl rfl) (fun _ _ _ t ht => by cases ht)
    fun _ _ _ t ht => by cases ht
  refine ⟨hwrite.rest, hwrite.others, hwrite.session, hwrite.unseated,
    hwrite.standing, fun x hx => ?_, ?_⟩
  · show max (Function.update w'.bufSize u 0 x) _ =
      max (Function.update w.bufSize u 0 x) _
    by_cases hxu : x = u
    · rw [hxu, Function.update_self, Function.update_self]
    · rw [Function.update_of_ne hxu, Function.update_of_ne hxu]
      exact h.sizes x hx
  · show max (Function.update w'.bufSize u 0 v) _ =
      max (Function.update w.bufSize u 0 v) _ ∨ _
    by_cases hvu : v = u
    · rw [hvu, Function.update_self, Function.update_self]
      exact Or.inl rfl
    · rw [Function.update_of_ne hvu, Function.update_of_ne hvu]
      exact hwrite.pieces

/-- The pool is trimmed by the same sessions. -/
theorem destrorySessionsFromPool (h : Renewed env v loose w w')
    (num : Nat) :
    Option.Rel (Renewed env v loose) (destrorySessionsFromPool env num w)
      (destrorySessionsFromPool env num w') := by
  induction num generalizing w w' with
  | zero => exact .some h
  | succ num ih =>
      unfold ChessServer.destrorySessionsFromPool
      rw [h.sessionList]
      split
      · exact .some h
      · rename_i session _
        refine Lockstep.bind (h.destructResource session) fun w₁ w₁' h₁ => ?_
        have h₂ := (h₁.deleteSession session).record
          (f := fun w => { w with sessionList := w.sessionList.dropLast })
          (fun _ => rfl) (fun _ => rfl) (fun _ => rfl) fun _ => rfl
        exact ih h₂

theorem recycleSession (h : Renewed env v loose w w') (u : SessionId) :
    Option.Rel (Renewed env v loose) (recycleSession env u w)
      (recycleSession env u w') := by
  unfold ChessServer.recycleSession
  refine Lockstep.bind (h.destructResource u) fun w₁ w₁' h₁ => ?_
  have h₂ := h₁.record
    (f := fun x => { x with sessionList := u :: w₁.sessionList })
    (fun _ => rfl) (fun _ => rfl) (fun _ => rfl) fun _ => rfl
  dsimp only
  rw [h₁.sessionList]
  exact Lockstep.ite (fun _ => h₂.destrorySessionsFromPool _)
    fun _ => .some h₂

/-- The same session is handed out. -/
theorem getOneSessionFromPool (h : Renewed env v loose w w') :
    Option.Rel (Lockstep.Same (Renewed env v loose))
      (getOneSessionFromPool w) (getOneSessionFromPool w') := by
  have hfilled : Renewed env v loose
      (if w.sessionList = [] then
        ChessServer.creatSessionsPool connectionMaxStep w else w)
      (if w'.sessionList = [] then
        ChessServer.creatSessionsPool connectionMaxStep w' else w') := by
    rw [h.sessionList]
    split
    · exact h.creatSessionsPool connectionMaxStep
    · exact h
  unfold ChessServer.getOneSessionFromPool
  dsimp only
  rw [hfilled.sessionList]
  split
  · exact .none
  · rename_i session rest _
    exact .some ⟨rfl, hfilled.record
      (f := fun w => { w with sessionList := rest })
      (fun _ => rfl) (fun _ => rfl) (fun _ => rfl) fun _ => rfl⟩

/-! ## Connections -/

theorem closingClientCon (h : Renewed env v loose w w') (fd : Int) :
    Option.Rel (Renewed env v loose) (closingClientCon env fd w)
      (closingClientCon env fd w') := by
  unfold ChessServer.closingClientCon
  rw [h.fdSessionMap]
  split
  · exact .some h
  · rename_i session _
    have h₁ := h.record
      (f := fun x => { x with fdSessionMap := w.fdSessionMap.erase fd })
      (fun _ => rfl) (fun _ => rfl) (fun _ => rfl) fun _ => rfl
    exact h₁.recycleSession session

/-- A connection is accepted. -/
theorem notifyAddEvent (h : Renewed env v loose w w') (fd : Int) :
    Option.Rel (Renewed env v loose) (notifyAddEvent fd w)
      (notifyAddEvent fd w') := by
  unfold ChessServer.notifyAddEvent
  refine Lockstep.value h.getOneSessionFromPool fun session w₁ w₁' h₁ => ?_
  refine Lockstep.bind (h₁.modifyUser session (inert_of
    (fun _ _ => rfl) (fun _ => rfl) fun _ => rfl)) fun w₂ w₂' h₂ => ?_
  exact .some (h₂.record (f := fun w =>
    { w with fdSessionMap := w.fdSessionMap.insertIfNew fd session })
    (fun _ => rfl) (fun _ => rfl) (fun _ => rfl) fun _ => rfl)

end Renewed

/-! ## Events -/

namespace Twins

theorem closingClientCon (h : Twins env v w w') (fd : Int) :
    Option.Rel (Twins env v) (closingClientCon env fd w)
      (closingClientCon env fd w') := by
  obtain ⟨loose, h⟩ := h
  exact Lockstep.mono (h.closingClientCon fd) fun _ _ h => ⟨loose, h⟩

/-- A message to the session of a descriptor. -/
theorem messageHandle (h : Twins env v w w') (fd : Int) (msgType : UInt32)
    (msg : Bytes) :
    Option.Rel (Lockstep.Same (Twins env v)) (messageHandle env fd msgType msg w)
      (messageHandle env fd msgType msg w') := by
  obtain ⟨loose, hl⟩ := h
  unfold ChessServer.messageHandle
  rw [hl.fdSessionMap]
  split
  · exact .some ⟨rfl, loose, hl⟩
  · rename_i session _
    refine Lockstep.value (sessionMessageHandle ⟨loose, hl⟩ session msgType msg)
      fun ret w₁ w₁' h₁ => ?_
    refine Lockstep.ite (fun _ => .some ⟨rfl, h₁⟩) fun _ => ?_
    refine Lockstep.bind (h₁.closingClientCon fd) fun w₂ w₂' h₂ => ?_
    exact .some ⟨rfl, h₂⟩

/-- The read callback sees the same input and the same header. -/
theorem onReadCb (h : Twins env v w w') (u : SessionId) :
    Option.Rel (Twins env v) (onReadCb env u w) (onReadCb env u w') := by
  obtain ⟨loose, h⟩ := h
  have hinput : ∀ (bufev : Option Bytes) (info : ReadBufInfo),
      Renewed.Inert fun s => { s with bufev := bufev, bufInfo := info } :=
    fun _ _ => Renewed.inert_of (fun _ _ => rfl) (fun _ => rfl) fun _ => rfl
  have hinfo : ∀ info : ReadBufInfo,
      Renewed.Inert fun s => { s with bufInfo := info } :=
    fun _ => Renewed.inert_of (fun _ _ => rfl) (fun _ => rfl) fun _ => rfl
  unfold ChessServer.onReadCb
  refine Lockstep.bind (h.user u) fun s s' hm => ?_
  obtain ⟨locate, rfl⟩ := hm.differ
  refine Lockstep.read rfl fun thread _ => ?_
  refine Lockstep.read rfl fun input hbufev => ?_
  refine Lockstep.ite (fun _ => ?_) fun _ => ?_
  · exact closingClientCon ⟨loose, h.setUser hm _ (hinfo _)⟩ s.clifd
  · have h₁ := h.setUser hm _ (hinfo (s.bufInfo.accept input))
    refine Lockstep.ite (fun _ => ?_) fun _ => .some ⟨loose, h₁⟩
    -- the header is assigned twice
    have h₂ := h₁.getBuffer u (s.bufInfo.accept input).totalSize.toNat
    have hm₂ := (hm.setUser (hinfo (s.bufInfo.accept input))).getBuffer
      (s.bufInfo.accept input).totalSize.toNat
    have h₃ := h₂.setUser hm₂ _ (hinput
      (some (input.drop (s.bufInfo.accept input).totalSize.toNat))
      (s.bufInfo.accept input))
    refine Lockstep.read rfl fun data _ => ?_
    refine Lockstep.value (messageHandle ⟨loose, h₃⟩ s.clifd _ data)
      fun ret w₄ w₄' h₄ => ?_
    obtain ⟨loose, h₄⟩ := h₄
    refine Lockstep.ite (fun _ => ?_) fun _ => .some ⟨loose, h₄⟩
    exact Lockstep.mono (h₄.modifyUser u (hinfo {})) fun _ _ h => ⟨loose, h⟩

theorem onEventCb (h : Twins env v w w') (u : SessionId) (events : BevEvent) :
    Option.Rel (Twins env v) (onEventCb env u events w)
      (onEventCb env u events w') := by
  obtain ⟨loose, hl⟩ := h
  unfold ChessServer.onEventCb
  refine Lockstep.bind (hl.user u) fun s s' hm => ?_
  obtain ⟨locate, rfl⟩ := hm.differ
  refine Lockstep.read rfl fun thread _ => ?_
  exact Lockstep.ite (fun _ => closingClientCon ⟨loose, hl⟩ s.clifd)
    fun _ => .some ⟨loose, hl⟩

theorem timerOutHandle (h : Twins env v w w') (u : SessionId) :
    Option.Rel (Twins env v) (timerOutHandle env u w)
      (timerOutHandle env u w') := by
  obtain ⟨loose, hl⟩ := h
  unfold ChessServer.timerOutHandle
  refine Lockstep.bind (hl.user u) fun s s' hm => ?_
  obtain ⟨locate, rfl⟩ := hm.differ
  refine Lockstep.read rfl fun thread _ => ?_
  exact closingClientCon ⟨loose, hl⟩ s.clifd

/-- One event keeps the two runs together. -/
theorem step (h : Twins env v w w') (e : Event) :
    Option.Rel (Twins env v) (World.step env e w) (World.step env e w') := by
  obtain ⟨loose, hl⟩ := h
  unfold World.step
  cases e with
  | accept fd =>
      exact Lockstep.mono (hl.notifyAddEvent fd) fun _ _ h => ⟨loose, h⟩
  | read u data =>
      refine Lockstep.bind (hl.modifyUser u (Renewed.inert_of
        (fun _ _ => rfl) (fun _ => rfl) fun _ => rfl)) fun w₁ w₁' h₁ => ?_
      exact onReadCb ⟨loose, h₁⟩ u
  | event u events => exact onEventCb ⟨loose, hl⟩ u events
  | timer u => exact timerOutHandle ⟨loose, hl⟩ u

/-- The same events can occur. -/
theorem enabled (h : Twins env v w w') (e : Event) :
    e.Enabled w' ↔ e.Enabled w := by
  obtain ⟨loose, hl⟩ := h
  have hsession : ∀ u (p : UserSession → Prop),
      (∀ s locate, p { s with locate := locate } ↔ p s) →
      ((∃ s, w'.users u = some s ∧ p s) ↔ ∃ s, w.users u = some s ∧ p s) := by
    intro u p hp
    have hu := hl.user u
    generalize hs : w.users u = x at hu
    generalize hs' : w'.users u = x' at hu
    cases hu with
    | none => simp
    | some hm =>
        obtain ⟨locate, rfl⟩ := hm.differ
        simp [hp]
  cases e with
  | accept fd =>
      unfold Event.Enabled
      rw [hl.fdSessionMap]
  | read u data => exact hsession u (fun s => s.bufev ≠ none) fun _ _ => Iff.rfl
  | event u events => exact hsession u (fun s => s.bufev ≠ none) fun _ _ => Iff.rfl
  | timer u => exact hsession u (fun s => s.clifd ≠ -1) fun _ _ => Iff.rfl

end Twins

end ChessServer
