import ChessServer.Model.Changes
import ChessServer.Proofs.Close

/-!
# One event of the worker's loop

Every event keeps the invariant of the layout and does exactly the act that
`World.act` computes from the state before it; nothing else happens on any
table (`step_spec`).  So the invariant holds in every state that a run reaches
(`reachable_inv`).
-/

namespace ChessServer

/-! ## Buffers -/

/-- A session without what it has received. -/
def UserSession.core (s : UserSession) : UserSession :=
  { s with bufev := s.bufev.map fun _ => [], bufInfo := {} }

/-- Only buffer sizes and what session `u` has received differ. -/
structure Buffers (u : SessionId) (w w' : World) : Prop where
  session : ∀ s, w.users u = some s →
    ∃ s', w'.users u = some s' ∧ s'.core = s.core
  users : ∀ v, v ≠ u → w'.users v = w.users v
  nextUser : w'.nextUser = w.nextUser
  boards : w'.boards = w.boards
  halls : w'.halls = w.halls
  fdSessionMap : w'.fdSessionMap = w.fdSessionMap
  sessionList : w'.sessionList = w.sessionList
  sqlLog : w'.sqlLog = w.sqlLog
  sent : w'.sent = w.sent
  changes : Changes u w w'

theorem Buffers.refl (u : SessionId) (w : World) : Buffers u w w :=
  ⟨fun s hs => ⟨s, hs, rfl⟩, fun _ _ => rfl, rfl, rfl, rfl, rfl, rfl, rfl,
    rfl, .refl w⟩

theorem Buffers.trans {u : SessionId} {w₁ w₂ w₃ : World}
    (h₁ : Buffers u w₁ w₂) (h₂ : Buffers u w₂ w₃) : Buffers u w₁ w₃ where
  session := by
    intro s hs
    obtain ⟨s₂, hs₂, hcore₂⟩ := h₁.session s hs
    obtain ⟨s₃, hs₃, hcore₃⟩ := h₂.session s₂ hs₂
    exact ⟨s₃, hs₃, hcore₃.trans hcore₂⟩
  users := fun v hv => (h₂.users v hv).trans (h₁.users v hv)
  nextUser := h₂.nextUser.trans h₁.nextUser
  boards := h₂.boards.trans h₁.boards
  halls := h₂.halls.trans h₁.halls
  fdSessionMap := h₂.fdSessionMap.trans h₁.fdSessionMap
  sessionList := h₂.sessionList.trans h₁.sessionList
  sqlLog := h₂.sqlLog.trans h₁.sqlLog
  sent := h₂.sent.trans h₁.sent
  changes := h₁.changes.trans h₂.changes

/-- A session with the same core differs in what it has received. -/
theorem receive_eq {s s' : UserSession} (hcore : s'.core = s.core) :
    s' = { s with bufev := s'.bufev, bufInfo := s'.bufInfo } := by
  cases s
  cases s'
  simp only [UserSession.core, UserSession.mk.injEq] at hcore
  simp [hcore]

/-- Overwriting what a session has received. -/
theorem setUser_buffers {w : World} {u : SessionId} {s s' : UserSession}
    (hs : w.users u = some s) (hcore : s'.core = s.core) :
    Buffers u w (w.setUser u s') := by
  refine ⟨fun s₀ hs₀ => ?_, fun v hv => by simp [World.setUser, hv], rfl, rfl,
    rfl, rfl, rfl, rfl, rfl, ?_⟩
  · rw [hs] at hs₀
    cases hs₀
    exact ⟨s', setUser_users_self _ _ _, hcore⟩
  · rw [receive_eq hcore]
    exact .single (.receive _ _ hs)

theorem getBuffer_buffers (u : SessionId) (size : Nat) (w : World) :
    Buffers u w (w.getBuffer u size) := by
  have n := getBuffer_notified u size w
  have hrest : (w.getBuffer u size).halls = w.halls ∧
      (w.getBuffer u size).sent = w.sent := by
    unfold World.getBuffer
    split
    · exact ⟨rfl, rfl⟩
    · split <;> exact ⟨rfl, rfl⟩
  exact ⟨fun s hs => ⟨s, by rw [n.users, hs], rfl⟩,
    fun v _ => by rw [n.users], n.nextUser, n.boards, hrest.1, n.fdSessionMap,
    n.sessionList, n.sqlLog, hrest.2, .single (.buffer u size)⟩

/-- The fields that a session keeps. -/
theorem core_eq {s s' : UserSession} (h : s'.core = s.core) :
    s'.clifd = s.clifd ∧ s'.thread = s.thread ∧ s'.locate = s.locate ∧
      s'.currChessBoard = s.currChessBoard ∧
      s'.stateMachine = s.stateMachine ∧ s'.nextState = s.nextState ∧
      s'.userInfo = s.userInfo ∧ s'.status = s.status ∧
      s'.bufev.isSome = s.bufev.isSome := by
  cases s
  cases s'
  simp only [UserSession.core, UserSession.mk.injEq] at h
  obtain ⟨rfl, rfl, rfl, rfl, rfl, rfl, rfl, rfl, rfl, hbufev, _⟩ := h
  refine ⟨rfl, rfl, rfl, rfl, rfl, rfl, rfl, rfl, ?_⟩
  have := congrArg Option.isSome hbufev
  simpa using this

/-- The buffer of a session is no part of the registry. -/
theorem Buffers.registry {u : SessionId} {w w' : World} (h : Buffers u w w') :
    w'.layout.registry = w.layout.registry := by
  simp only [World.layout, h.fdSessionMap]

theorem Buffers.place {u v : SessionId} {w w' : World} (h : Buffers u w w')
    (hv : v ≠ u) : w'.layout.place v = w.layout.place v := by
  simp only [World.layout, h.users v hv]

/-- Only the input of the session changes. -/
theorem Buffers.layout {u : SessionId} {s s' : UserSession} {w w' : World}
    (h : Buffers u w w') (hs : w.users u = some s)
    (hs' : w'.users u = some s') :
    w'.layout = w.layout.modify u fun _ => s'.place := by
  have hplace : (fun v => (w'.users v).map UserSession.place) =
      Function.update (fun v => (w.users v).map UserSession.place) u
        (some s'.place) := by
    funext v
    by_cases hv : v = u
    · subst hv
      simp [hs']
    · simp [hv, h.users v hv]
  simp only [World.layout, Layout.modify, hplace, hs, h.boards,
    h.fdSessionMap, h.sessionList, h.nextUser, Option.map_some]

/-- The invariant does not depend on it. -/
theorem Buffers.inv {u : SessionId} {fd : Int} {w w' : World}
    (h : Buffers u w w') (hinv : w.layout.Inv)
    (hreg : w.layout.registry fd = some u) : w'.layout.Inv := by
  obtain ⟨s, hs, _⟩ := registered_session hinv.registry hreg
  obtain ⟨s', hs', hcore⟩ := h.session s hs
  obtain ⟨hclifd, hthread, hlocate, hboard, hstate, hnext, _, _, hbufev⟩ :=
    core_eq hcore
  have hp : w.layout.place u = some s.place := by simp [World.layout, hs]
  have hfields : ∀ p, w.layout.place u = some p → p = s.place := by
    intro p hp'
    rw [hp] at hp'
    exact (Option.some.inj hp').symm
  rw [h.layout hs hs']
  refine ⟨hinv.registry.modify (hinv.registry.not_mem_pool hreg) ?_,
    hinv.seating.modify ?_, hinv.settled.mono.modify_busy.settle ?_⟩
  · intro p hp'
    rw [hfields p hp']
    exact ⟨hclifd, hthread, hbufev⟩
  · intro p hp'
    rw [hfields p hp']
    exact ⟨hboard, fun _ => hlocate⟩
  · intro p hp'
    rw [Layout.modify_self, hp, Option.map_some, Option.some.injEq] at hp'
    subst hp'
    exact (hinv.settled u _ hp (by simp)).congr hboard hstate hnext

theorem Buffers.mark {u : SessionId} {s : UserSession} {w w' : World}
    (h : Buffers u w w') (hs : w.users u = some s) (v : SessionId) :
    w'.mark v = w.mark v := by
  by_cases hv : v = u
  · subst hv
    obtain ⟨s', hs', hcore⟩ := h.session s hs
    obtain ⟨_, _, _, _, _, _, hinfo, hstatus, _⟩ := core_eq hcore
    simp [World.mark, hs, hs', UserSession.mark, hinfo, hstatus]
  · rw [World.mark, World.mark, h.users v hv]

theorem Buffers.table {u : SessionId} {s : UserSession} {w w' : World}
    (h : Buffers u w w') (hs : w.users u = some s) (b : BoardPtr) :
    w'.table b = w.table b :=
  table_eq_of_marks (congrFun h.boards b) fun _ v _ => h.mark hs v

/-- Every session is the same but for what it has received. -/
theorem Buffers.core {u : SessionId} {s : UserSession} {w w' : World}
    (h : Buffers u w w') (hs : w.users u = some s) (v : SessionId) :
    (w'.users v).map UserSession.core = (w.users v).map UserSession.core := by
  by_cases hv : v = u
  · subst hv
    obtain ⟨s', hs', hcore⟩ := h.session s hs
    rw [hs, hs', Option.map_some, Option.map_some, hcore]
  · rw [h.users v hv]

/-! ## Acts do not look at buffers -/

theorem Buffers.chair {u : SessionId} {s : UserSession} {w w' : World}
    (h : Buffers u w w') (hs : w.users u = some s) (v : SessionId) :
    w'.chair v = w.chair v := by
  by_cases hv : v = u
  · subst hv
    obtain ⟨s', hs', hcore⟩ := h.session s hs
    obtain ⟨_, _, hlocate, hboard, _⟩ := core_eq hcore
    simp [World.chair, hs, hs', hlocate, hboard]
  · rw [World.chair, World.chair, h.users v hv]

/-- A lookup depends on the halls only. -/
theorem getChessBoardByID_fst_congr {w w' : World} (h : w'.halls = w.halls)
    (hall id : UInt32) :
    (w'.getChessBoardByID hall id).1 = (w.getChessBoardByID hall id).1 := by
  simp only [World.getChessBoardByID, World.createChessBoard, h]
  split
  · rfl
  · split
    · rfl
    · split
      · rfl
      · simp

/-- What a message means at a board does not depend on buffers. -/
theorem Buffers.boardAct (env : Env) {u : SessionId} {s : UserSession}
    {w w' : World} (h : Buffers u w w') (hs : w.users u = some s)
    (b : BoardPtr) (type : MessageType) (msg : Bytes) :
    w'.boardAct env b type msg = w.boardAct env b type msg := by
  unfold World.boardAct
  cases type with
  | giveUp => simp only [h.boards]
  | requestPlay => simp only [h.table hs, getChessBoardByID_fst_congr h.halls]
  | _ => rfl

/-- Nor what it means at all. -/
theorem Buffers.messageAct {env : Env} {u : SessionId} {s : UserSession}
    {w w' : World} (h : Buffers u w w') (hs : w.users u = some s)
    (msgType : UInt32) (msg : Bytes) :
    w'.messageAct env u msgType msg = w.messageAct env u msgType msg := by
  have htable := h.table hs
  have hboard := h.boardAct env hs
  obtain ⟨s', hs', hcore⟩ := h.session s hs
  obtain ⟨_, _, _, _, hstate, _, hinfo, _⟩ := core_eq hcore
  have hjoin : w'.joinAct env u msg = w.joinAct env u msg := by
    unfold World.joinAct
    simp only [hs, hs', htable, h.boards,
      getChessBoardByID_fst_congr h.halls, Option.bind_eq_bind,
      Option.bind_some, hinfo]
  unfold World.messageAct
  simp only [hs, hs', h.chair hs u, hboard, hjoin, Option.bind_eq_bind,
    Option.bind_some, hstate]

/-! ## The read callback -/

/-- What is received is read off the buffer and the header state. -/
theorem received_eq {w : World} {u : SessionId} {s : UserSession}
    {input data : Bytes} (hs : w.users u = some s)
    (hbuf : s.bufev = some input) :
    w.received u data = s.bufInfo.received (input ++ data) := by
  simp [World.received, hs, hbuf]

theorem input_eq {w : World} {u : SessionId} {s : UserSession}
    (hs : w.users u = some s) :
    w.layout.input u = some (s.bufev, s.bufInfo) := by
  simp [Layout.input, World.layout, hs, UserSession.place]

/-- The receiving side after a session's own read callback. -/
theorem inputAfter_read {w : World} {u : SessionId} {s : UserSession}
    {input data : Bytes} (hs : w.users u = some s)
    (hbuf : s.bufev = some input) :
    w.inputAfter (.read u data) u =
      some (some (s.bufInfo.after (input ++ data)).1,
        (s.bufInfo.after (input ++ data)).2) := by
  simp [World.inputAfter, input_eq hs, hbuf]

/-- What `OnReadCb` does with what it received, in a world that differs from
the one before the event in what `u` has received. -/
def World.handleReceived (env : Env) (u : SessionId) (fd : Int) (w : World) :
    Received → Option World
  | .waiting => some w
  | .refused => closingClientCon env fd w
  | .broken => none
  | .message msgType msg => do
      let (ret, w) ← messageHandle env fd msgType msg w
      if ret then w.modifyUser u fun s => { s with bufInfo := {} } else some w

/-- Arrived bytes are part of what `u` has received. -/
theorem arrive_core {s : UserSession} {input : Bytes}
    (hbuf : s.bufev = some input) (data input' : Bytes) (info : ReadBufInfo) :
    ({ s.arrive data with bufev := some input', bufInfo := info } :
      UserSession).core = s.core := by
  simp [UserSession.core, UserSession.arrive, hbuf]

/-- The read callback of a session. -/
theorem read_step (env : Env) {u : SessionId} {s : UserSession}
    {input : Bytes} (data : Bytes) {w : World} (hs : w.users u = some s)
    (hbuf : s.bufev = some input) (hthread : s.thread.isSome) :
    ∃ w₁ info, Buffers u w w₁ ∧
      w₁.layout.input u =
        some (some (s.bufInfo.after (input ++ data)).1, info) ∧
      (w.received u data = .waiting →
        info = (s.bufInfo.after (input ++ data)).2) ∧
      World.step env (.read u data) w =
        w₁.handleReceived env u s.clifd (w.received u data) := by
  have hcore := arrive_core hbuf data
  rw [received_eq hs hbuf]
  have hstep : World.step env (.read u data) w =
      onReadCb env u (w.setUser u (s.arrive data)) := by
    simp only [World.step, modifyUser_eq hs, Option.bind_eq_bind,
      Option.bind_some]
  obtain ⟨t, ht⟩ := Option.isSome_iff_exists.mp hthread
  obtain ⟨clifd, _, locate, currChessBoard, stateMachine, nextState, userInfo,
    status, adImgFp, _, info⟩ := s
  dsimp only at ht hbuf
  subst ht hbuf
  rw [hstep]
  simp only [onReadCb, setUser_users_self, UserSession.arrive, Option.map_some,
    setUser_setUser, Option.bind_eq_bind, Option.bind_some] at hcore ⊢
  by_cases hrefuse : info.refuses (input ++ data) = true
  · have hrecv : info.received (input ++ data) = .refused := by
      simp [ReadBufInfo.received, hrefuse]
    have hafter : info.after (input ++ data) =
        (input ++ data, info.accept (input ++ data)) := by
      simp [ReadBufInfo.after, hrecv]
    rw [hrecv, hafter, if_pos hrefuse]
    exact ⟨_, info.readHead (input ++ data), setUser_buffers hs (hcore _ _),
      input_eq (setUser_users_self _ _ _), nofun, rfl⟩
  · rw [if_neg hrefuse]
    by_cases hcomplete : (info.accept (input ++ data)).complete
        (input ++ data) = true
    · rw [if_pos hcomplete]
      cases hbody : (info.accept (input ++ data)).body (input ++ data) with
      | none =>
          have hrecv : info.received (input ++ data) = .broken := by
            simp [ReadBufInfo.received, hrefuse, hcomplete, hbody]
          have hafter : info.after (input ++ data) =
              (input ++ data, info.accept (input ++ data)) := by
            simp [ReadBufInfo.after, hrecv]
          rw [hrecv, hafter]
          exact ⟨_, info, setUser_buffers hs (hcore _ _),
            input_eq (setUser_users_self _ _ _), nofun, rfl⟩
      | some msg =>
          have hrecv : info.received (input ++ data) =
              .message (info.accept (input ++ data)).msgType msg := by
            simp [ReadBufInfo.received, hrefuse, hcomplete, hbody]
          have hafter : info.after (input ++ data) = ((input ++ data).drop
              (info.accept (input ++ data)).totalSize.toNat, {}) := by
            simp [ReadBufInfo.after, hrecv]
          rw [hrecv, hafter]
          have b₁ := setUser_buffers hs (hcore (input ++ data)
            (info.accept (input ++ data)))
          have b₂ := b₁.trans (getBuffer_buffers u
            (info.accept (input ++ data)).totalSize.toNat _)
          obtain ⟨s₂, hs₂, hs₂'⟩ := b₂.session _ hs
          exact ⟨_, info.accept (input ++ data), b₂.trans (setUser_buffers hs₂
            ((hcore _ _).trans hs₂'.symm)),
            input_eq (setUser_users_self _ _ _), nofun, rfl⟩
    · have hrecv : info.received (input ++ data) = .waiting := by
        simp [ReadBufInfo.received, hrefuse, hcomplete]
      have hafter : info.after (input ++ data) =
          (input ++ data, info.accept (input ++ data)) := by
        simp [ReadBufInfo.after, hrecv]
      rw [hrecv, hafter, if_neg hcomplete]
      exact ⟨_, info.accept (input ++ data), setUser_buffers hs (hcore _ _),
        input_eq (setUser_users_self _ _ _), fun _ => rfl, rfl⟩

/-- The read callback of session `u` on descriptor `fd` does what `received`
says: a message goes to `MessageHandle`, in a world in which at most the
buffers of `u` are different, an invalid header closes the connection, and
otherwise nothing is handed on. -/
def World.ReadsAs (env : Env) (u : SessionId) (fd : Int) (w : World)
    (data : Bytes) : Prop :=
  ∃ w₁, Buffers u w w₁ ∧ World.step env (.read u data) w =
    w₁.handleReceived env u fd (w.received u data)

/-! ## Closing and messages -/

/-- Closing a connection whose session is settled. -/
theorem closing_step {env : Env} {u : SessionId} {fd : Int} {w w₁ w' : World}
    (hinv : w.layout.Inv) (hreg : w.layout.registry fd = some u)
    (hb : Buffers u w w₁) (h : closingClientCon env fd w₁ = some w') :
    Closed u fd w₁ w' ∧ ∀ p, w'.table p = w.tableAfter (w.closeAct u) p := by
  have hinv₁ := hb.inv hinv hreg
  have hreg₁ : w₁.layout.registry fd = some u := by rw [hb.registry, hreg]
  obtain ⟨s₀, hs₀, _⟩ := registered_session hinv.registry hreg
  obtain ⟨s, hs, _⟩ := registered_session hinv₁.registry hreg₁
  have hsettled := hinv₁.settled u s.place (by simp [World.layout, hs]) (by simp)
  have c := closingClientCon_closed hinv₁.registry hinv₁.seating
    hinv₁.settled.mono hreg₁ hs (fun hnone => ?_) h
  · refine ⟨c, fun p => ?_⟩
    rw [c.table p, World.closeAct, World.closeAct, hb.chair hs₀ u]
    exact tableAfter_congr (hb.table hs₀) _ p
  · unfold Place.Settled at hsettled
    have hnone' : s.place.stateMachine = none := hnone
    rw [hnone'] at hsettled
    split at hsettled
    · cases hsettled.1
    · rcases hsettled with ⟨hnext, _⟩ | ⟨habsurd, _⟩
      · exact hnext
      · cases habsurd

/-- A rejected message shows at the table as the loss of the status. -/
theorem Dismissed.table {u : SessionId} {w w₁ : World} {s : UserSession}
    {b : BoardPtr} {seat : Seat} (hseating : w.layout.Seating)
    (hs : w.users u = some s) (hseat : (w.boards b).seat seat = some u)
    (d : Dismissed u w w₁ true) (p : BoardPtr) :
    w₁.table p = if p = b then
      (w.table b).modify seat (Table.setStatus .notStart)
    else w.table p := by
  obtain ⟨s', hs', _, _, _, _, hmark, _⟩ := d.session s hs
  have hmark' := hmark rfl
  simp only [UserSession.mark, Prod.mk.injEq] at hmark'
  refine tables_of_one ?_ (fun c _ => congrFun d.boards c)
    (fun c hc seat' v hv => d.mark v ?_) p
  · refine Table.ext ?_ ?_ ?_ ?_ ?_ ?_
    · funext seat'
      by_cases hseat' : seat' = seat
      · subst hseat'
        simp [World.table, d.boards, hseat, hs, hs', hmark', Table.modify,
          Table.setStatus]
      · simp only [World.table, d.boards, Table.modify,
          Function.update_of_ne hseat']
        cases hv : (w.boards b).seat seat' with
        | none => rfl
        | some v =>
            have hvu : v ≠ u := by
              rintro rfl
              exact hseat' (hseating.distinct (b := b) hv hseat)
            have hm := d.mark v hvu
            obtain ⟨q, hq, _⟩ := hseating.seated (b := b) hv
            simp only [World.layout, Option.map_eq_some_iff] at hq
            obtain ⟨sv, hsv, _⟩ := hq
            simp only [World.mark, hsv, Option.map_some,
              Option.map_eq_some_iff] at hm
            obtain ⟨sv', hsv', hm⟩ := hm
            simp only [UserSession.mark, Prod.mk.injEq] at hm
            simp [hsv, hsv', hm]
    all_goals simp [World.table, d.boards, Table.modify]
  · rintro rfl
    exact hc (hseating.unique (b := c) (c := b) hv hseat).1

/-- What `WorkThread::MessageHandle` does with a message for `u`. -/
theorem messageHandle_cases {env : Env} {u : SessionId} {fd : Int}
    {msgType : UInt32} {msg : Bytes} {ret : Bool} {w w' : World}
    (hinv : w.layout.Inv) (hreg : w.layout.registry fd = some u)
    (h : messageHandle env fd msgType msg w = some (ret, w')) :
    (ret = true ∧ Handled u w w' (w.messageAct env u msgType msg)) ∨
    (ret = false ∧
      (∀ p, w'.table p = w.tableAfter (w.messageAct env u msgType msg) p) ∧
      ∃ w₁, Closed u fd w₁ w' ∧ w₁.layout.Registry none ∧
        w₁.layout.registry = w.layout.registry ∧
        w₁.layout.pool = w.layout.pool ∧
        (∀ v, v ≠ u → w₁.layout.place v = w.layout.place v) ∧
        w₁.layout.Seating ∧ ∀ v, v ≠ u → w₁.mark v = w.mark v) := by
  obtain ⟨s, hs, _⟩ := registered_session hinv.registry hreg
  have hlookup : w.fdSessionMap[fd]? = some u := hreg
  simp only [messageHandle, hlookup, Option.bind_eq_bind,
    Option.bind_eq_some_iff] at h
  obtain ⟨⟨ok, w₁⟩, hmsg, h⟩ := h
  have hclose : ∀ {rejected}, Dismissed u w w₁ rejected →
      closingClientCon env fd w₁ = some w' → Closed u fd w₁ w' ∧
        w₁.chair u = w.chair u := by
    intro rejected d hcl
    obtain ⟨s', hs', hstate, hboard, hlocate, _⟩ := d.session s hs
    have hreg₁ : w₁.layout.registry fd = some u := by rw [d.registry, hreg]
    refine ⟨closingClientCon_closed d.registryInv d.seating d.settled hreg₁
      hs' (fun hnone => by simp [hnone] at hstate) hcl, ?_⟩
    cases hb : s.currChessBoard with
    | none => rw [chair_none hs hb, chair_none hs' (hboard.trans hb)]
    | some b =>
        have hl := hlocate (by simp [hb])
        simp [World.chair, hs, hs', hb, hboard, hl]
  rcases sessionMessageHandle_cases hinv hreg hs hmsg with
    ⟨rfl, hh⟩ | ⟨rfl, hact, d⟩ | ⟨rfl, hplay, hrej, d⟩
  · simp only [if_true, Option.some.injEq, Prod.mk.injEq] at h
    obtain ⟨rfl, rfl⟩ := h
    exact Or.inl ⟨rfl, hh⟩
  all_goals
    simp only [Bool.false_eq_true, if_false, Option.bind_eq_some_iff] at h
    obtain ⟨w₂, hcl, h⟩ := h
    cases h
    obtain ⟨c, hchair⟩ := hclose d hcl
    refine Or.inr ⟨rfl, fun p => ?_, w₁, c, d.registryInv,
      d.registry, d.pool, d.place, d.seating, d.mark⟩
  · -- a session in the hall or before it has no board to leave
    obtain ⟨_, _, _, _, _, hstand, _⟩ := d.session s hs
    have hnone := chair_none hs (hstand rfl)
    rw [c.table p, World.closeAct, hchair, hnone, hact]
    have hp : w.layout.place u = some s.place := by simp [World.layout, hs]
    refine table_eq_of_marks (congrFun d.boards p) fun seat v hv =>
      d.mark v ?_
    rintro rfl
    exact hinv.seating.not_seated hp (hstand rfl) p seat hv
  · -- the status is gone before the session leaves
    have hact : w.messageAct env u msgType msg =
        (w.chair u).map fun c => (c.1, .reject c.2) := by
      simp only [World.messageAct, hs, hplay, hrej, Option.bind_eq_bind,
        Option.bind_some, if_true]
      cases w.chair u <;> rfl
    rw [c.table p, World.closeAct, hchair, hact]
    cases hboard : s.currChessBoard with
    | some b =>
        obtain ⟨seat, _, hseat, hc⟩ := chair_eq hinv.seating hs hboard
        have ht := d.table hinv.seating hs hseat
        rw [hc, Option.map_some, Option.map_some, World.tableAfter,
          World.tableAfter]
        by_cases hp : p = b
        · subst hp
          simp only [if_true]
          rw [ht, if_pos rfl]
          rfl
        · simp only [hp, if_false]
          rw [ht, if_neg hp]
    | none =>
        rw [chair_none hs hboard]
        have hp : w.layout.place u = some s.place := by simp [World.layout, hs]
        refine table_eq_of_marks (congrFun d.boards p) fun seat v hv =>
          d.mark v ?_
        rintro rfl
        exact hinv.seating.not_seated hp hboard p seat hv

/-! ## One event -/

/-- Session `v` is taken off its board by a message of another session. -/
def World.removes (env : Env) (w : World) (e : Event) (v : SessionId) : Prop :=
  ∃ u data msgType msg b seat, e = .read u data ∧ v ≠ u ∧
    w.received u data = .message msgType msg ∧
    w.messageAct env u msgType msg = some (b, .leave seat) ∧
    (w.boards b).seat seat = some v

/-- What one event does. -/
structure Stepped (env : Env) (e : Event) (w w' : World) : Prop where
  inv : w'.layout.Inv
  table : ∀ p, w'.table p = w.tableAfter (w.act env e) p
  /-- who is in the game state is on a board, was already there before, or
  was just taken off the board by somebody else -/
  place : ∀ v p, w'.layout.place v = some p →
    p.stateMachine = some .gamePlay → p.currChessBoard.isSome ∨
      (∃ q, w.layout.place v = some q ∧ q.stateMachine = p.stateMachine ∧
        q.currChessBoard = p.currChessBoard) ∨ w.removes env e v
  /-- a connection that stays open receives what its own callbacks read -/
  input : ∀ v fd, w.layout.registry fd = some v →
    w'.layout.registry fd = some v →
    w'.layout.input v = w.inputAfter e v
  transfer : w.layout.Transfer w'.layout
  /-- scores change by calls of `IncreaseScore` and `ReduceScore` only, but for
  a message of a session that has not logged in -/
  scores : ∀ v k k' s s', w.layout.registry k = some v →
    w'.layout.registry k' = some v → w.users v = some s →
    w'.users v = some s' → (∀ data, e = .read v data → s.LoggedIn) →
      s'.userInfo.score.toBitVec =
        Ledger.balance s.userInfo.score.toBitVec (w.scoreCalls env e v)

/-- Only a registered session gets bytes or timers. -/
theorem enabled_registered {w : World} {u : SessionId} {s : UserSession}
    (hinv : w.layout.Inv) (hs : w.users u = some s)
    (h : s.bufev ≠ none ∨ s.clifd ≠ -1) :
    w.layout.registry s.clifd = some u := by
  have hp : w.layout.place u = some s.place := by simp [World.layout, hs]
  refine hinv.registry.registered_of_online hp fun hidle => ?_
  rcases h with h | h
  · exact h hidle.bufev
  · exact h hidle.clifd

/-- The read callback of a session whose connection is open. -/
theorem Layout.Inv.readsAs {u : SessionId} {s : UserSession} {w : World}
    (hinv : w.layout.Inv) (env : Env) (hs : w.users u = some s)
    (hbuf : s.bufev ≠ none) (data : Bytes) :
    w.ReadsAs env u s.clifd data := by
  have hreg := enabled_registered hinv hs (Or.inl hbuf)
  obtain ⟨s', hs', _, honline⟩ := registered_session hinv.registry hreg
  rw [hs, Option.some.injEq] at hs'
  subst hs'
  obtain ⟨input, hinput⟩ := Option.ne_none_iff_exists'.mp hbuf
  obtain ⟨w₁, _, hb, _, _, hstep⟩ :=
    read_step env data hs hinput honline.thread
  exact ⟨w₁, hb, hstep⟩

/-- In the game a session has a board, unless it is about to leave. -/
theorem Layout.Inv.board_of_switched {l : Layout} (hinv : l.Inv)
    {u : SessionId} {p : Place} (hp : l.place u = some p)
    (hswitched : p.nextState = p.stateMachine)
    (hplay : p.stateMachine = some .gamePlay) : p.currChessBoard.isSome := by
  have hsettled := hinv.settled u p hp (by simp)
  unfold Place.Settled at hsettled
  split at hsettled
  · assumption
  · rcases hsettled with ⟨_, hne⟩ | ⟨_, hnext⟩
    · exact absurd hplay hne
    · rw [hswitched, hplay] at hnext
      cases hnext

/-- Nobody but a session itself makes its place active. -/
theorem Place.active_ne_idle {p : Place}
    (hplay : p.stateMachine = some .gamePlay) : ¬ p.Idle := by
  intro hidle
  rw [hidle.stateMachine] at hplay
  cases hplay

/-- Closing leaves those alone who keep their connection. -/
theorem Closed.place_registered {u v : SessionId} {fd k : Int}
    {w w' : World} (c : Closed u fd w w') (hregistry : w.layout.Registry none)
    (hreg : w.layout.registry fd = some u)
    (hk : w'.layout.registry k = some v) :
    v ≠ u ∧ w.layout.registry k = some v ∧
      w'.layout.place v = w.layout.place v := by
  rw [c.registry] at hk
  by_cases hkfd : k = fd
  · rw [hkfd, Function.update_self] at hk
    cases hk
  · rw [Function.update_of_ne hkfd] at hk
    have hvu : v ≠ u := by
      rintro rfl
      obtain ⟨p, hp, hclifd, _⟩ := hregistry.registered hk
      obtain ⟨q, hq, hclifd', _⟩ := hregistry.registered hreg
      rw [hp] at hq
      cases hq
      exact hkfd (hclifd.symm.trans hclifd')
    exact ⟨hvu, hk, c.place v hvu (hregistry.not_mem_pool hk)⟩

/-- Closing a connection and the scores of everybody else. -/
theorem Closed.scores {act : Option (BoardPtr × Act)} {u v : SessionId}
    {fd k : Int} {s s' : UserSession} {w w₁ w' : World} (c : Closed u fd w₁ w')
    (hinv : w.layout.Inv) (hregistry : w₁.layout.Registry none)
    (hreg : w₁.layout.registry fd = some u) (hseating : w₁.layout.Seating)
    (hplace : ∀ v, v ≠ u → w₁.layout.place v = w.layout.place v)
    (hmark : ∀ v, v ≠ u → w₁.mark v = w.mark v)
    (htable : ∀ p, w'.table p = w.tableAfter act p)
    (hfree : ∀ b seat user score, act = some (b, .join seat user score) →
      (w.table b).players seat = none)
    (hk : w'.layout.registry k = some v) (hs : w.users v = some s)
    (hs' : w'.users v = some s') :
    s'.userInfo.score.toBitVec = Ledger.balance s.userInfo.score.toBitVec
      (w.actCalls act v) := by
  have hp : w.layout.place v = some s.place := by simp [World.layout, hs]
  have hp' : w'.layout.place v = some s'.place := by simp [World.layout, hs']
  obtain ⟨hvu, hk₁, hkept⟩ := c.place_registered hregistry hreg hk
  have hv : v ∉ w₁.layout.pool := hregistry.not_mem_pool hk₁
  have hsame := hkept.trans (hplace v hvu)
  rw [hp, hp', Option.some.injEq] at hsame
  have hboard : s'.currChessBoard = s.currChessBoard :=
    congrArg Place.currChessBoard hsame
  have hlocate₀ : s'.locate = s.locate := congrArg Place.locate hsame
  cases hb : s.currChessBoard with
  | some b =>
      obtain ⟨seat, hlocate, hseat, _⟩ := chair_eq hinv.seating hs hb
      obtain ⟨seat', hlocate', hseat', _⟩ :=
        chair_eq c.inv.seating hs' (hboard.trans hb)
      obtain rfl : seat' = seat := Seat.location_injective
        (hlocate'.symm.trans (hlocate₀.trans hlocate))
      exact score_seated hinv.seating hfree (htable b) hs hs' hseat hseat'
  | none =>
      have hm := (c.mark v hvu hv fun b seat _ =>
        hseating.not_seated ((hplace v hvu).trans hp) hb b).trans (hmark v hvu)
      rw [actCalls_standing (chair_none hs hb)]
      exact congrArg _ (scored_of_mark hs hs' hm)

/-- The step lemma of an event that closes a connection, from the world `w₁`
in which it closes. -/
theorem Closed.stepped {env : Env} {e : Event} {u : SessionId} {fd : Int}
    {w w₁ w' : World} (c : Closed u fd w₁ w') (hinv : w.layout.Inv)
    (hregistry : w₁.layout.Registry none) (hseating : w₁.layout.Seating)
    (hreg : w.layout.registry fd = some u)
    (hsame : w₁.layout.registry = w.layout.registry)
    (hpool : w₁.layout.pool = w.layout.pool)
    (hplace : ∀ v, v ≠ u → w₁.layout.place v = w.layout.place v)
    (hmark : ∀ v, v ≠ u → w₁.mark v = w.mark v)
    (hinput : ∀ v, v ≠ u → w.inputAfter e v = w.layout.input v)
    (htable : ∀ p, w'.table p = w.tableAfter (w.act env e) p) :
    Stepped env e w w' := by
  have hreg₁ : w₁.layout.registry fd = some u := by rw [hsame, hreg]
  refine ⟨c.inv, htable, fun v p hp hplay => ?_, fun v k _ hk => ?_,
    .recycle hreg ?_ ?_, fun v _ k s s' _ hk hs hs' _ => ?_⟩
  · have hreg' := c.inv.registry.registered_of_online hp
      (Place.active_ne_idle hplay)
    obtain ⟨hvu, _, hkept⟩ := c.place_registered hregistry hreg₁ hreg'
    rw [hkept, hplace v hvu] at hp
    exact Or.inr (Or.inl ⟨p, hp, rfl, rfl⟩)
  · obtain ⟨hvu, _, hkept⟩ := c.place_registered hregistry hreg₁ hk
    rw [hinput v hvu, Layout.input, Layout.input, hkept, hplace v hvu]
  · rw [c.registry, hsame]
  · rw [c.pool, hpool]
  · exact c.scores hinv hregistry hreg₁ hseating hplace hmark htable
      (fun _ _ _ _ hjoin => act_join_free hjoin) hk hs hs'

/-- A session that receives a message has a connection. -/
theorem received_buffer {w : World} {u : SessionId} {s : UserSession}
    {data msg : Bytes} {msgType : UInt32} (hs : w.users u = some s)
    (hrecv : w.received u data = .message msgType msg) :
    ∃ input, s.bufev = some input := by
  rw [World.received, hs] at hrecv
  dsimp only at hrecv
  split at hrecv
  · cases hrecv
  · exact ⟨_, by assumption⟩

/-- A message that `OnReadCb` hands on: its session handles it, in a world
that differs in what the session has received. -/
theorem read_message {env : Env} {u : SessionId} {s : UserSession}
    {data msg : Bytes} {msgType : UInt32} {w w' : World}
    (hinv : w.layout.Inv) (hs : w.users u = some s)
    (hrecv : w.received u data = .message msgType msg)
    (hstep : World.step env (.read u data) w = some w') :
    ∃ w₁ s₁ ret w₂, Buffers u w w₁ ∧ w₁.layout.Inv ∧
      w₁.layout.registry s.clifd = some u ∧ w₁.users u = some s₁ ∧
      s₁.core = s.core ∧
      sessionMessageHandle env u msgType msg w₁ = some (ret, w₂) ∧
      (ret = true →
        w₂.modifyUser u (fun s => { s with bufInfo := {} }) = some w') := by
  obtain ⟨input, hbuf⟩ := received_buffer hs hrecv
  have hreg := enabled_registered hinv hs (Or.inl (by simp [hbuf]))
  obtain ⟨s', hs', _, honline⟩ := registered_session hinv.registry hreg
  rw [hs] at hs'
  cases hs'
  obtain ⟨w₁, _, hb, _, _, hread⟩ := read_step env data hs hbuf honline.thread
  obtain ⟨s₁, hs₁, hcore⟩ := hb.session s hs
  have hreg₁ : w₁.layout.registry s.clifd = some u := by rw [hb.registry, hreg]
  have hlookup : w₁.fdSessionMap[s.clifd]? = some u := hreg₁
  rw [hread, hrecv] at hstep
  simp only [World.handleReceived, messageHandle, hlookup,
    Option.bind_eq_bind, Option.bind_eq_some_iff] at hstep
  obtain ⟨_, ⟨⟨ret, w₂⟩, hmsg, hclose⟩, hstep⟩ := hstep
  refine ⟨w₁, s₁, ret, w₂, hb, hb.inv hinv hreg, hreg₁, hs₁, hcore, hmsg, ?_⟩
  rintro rfl
  rw [if_pos rfl] at hclose
  cases hclose
  rwa [if_pos rfl] at hstep

theorem inputAfter_other {w : World} {u v : SessionId} {data : Bytes}
    (hv : v ≠ u) : w.inputAfter (.read u data) v = w.layout.input v := by
  simp [World.inputAfter, Ne.symm hv]

/-- One message of a read is one step. -/
theorem step_message {env : Env} {u : SessionId} {s : UserSession}
    {input data msg : Bytes} {msgType : UInt32} {info : ReadBufInfo}
    {ret : Bool} {w w₁ w₂ w' : World}
    (hinv : w.layout.Inv) (hreg : w.layout.registry s.clifd = some u)
    (hs : w.users u = some s) (hbuf : s.bufev = some input)
    (hrecv : w.received u data = .message msgType msg)
    (hb : Buffers u w w₁)
    (hinput : w₁.layout.input u =
      some (some (s.bufInfo.after (input ++ data)).1, info))
    (hmsg : messageHandle env s.clifd msgType msg w₁ = some (ret, w₂))
    (h : (if ret then (w₂.modifyUser u fun s => { s with bufInfo := {} })
      else some w₂) = some w') : Stepped env (.read u data) w w' := by
  have hinv₁ := hb.inv hinv hreg
  have hreg₁ : w₁.layout.registry s.clifd = some u := by rw [hb.registry, hreg]
  have hact : w.act env (.read u data) = w.messageAct env u msgType msg := by
    simp [World.act, hrecv]
  rcases messageHandle_cases hinv₁ hreg₁ hmsg with
    ⟨rfl, hh⟩ |
    ⟨rfl, htable, w₃, c, hregistry, hsame, hpool, hplace, hseating, hmark⟩
  · rw [if_pos rfl] at h
    have hreg₂ : w₂.layout.registry s.clifd = some u := by
      rw [hh.registry, hreg₁]
    obtain ⟨s₂, hs₂, _⟩ := registered_session hh.inv.registry hreg₂
    rw [modifyUser_eq hs₂, Option.some.injEq] at h
    subst h
    have hb₂ : Buffers u w₂ (w₂.setUser u { s₂ with bufInfo := {} }) :=
      setUser_buffers hs₂ rfl
    refine ⟨hb₂.inv hh.inv hreg₂, fun p => ?_, fun v p hp hplay => ?_,
      fun v k _ _ => ?_,
      .stay (hb₂.registry.trans (hh.registry.trans hb.registry))
        (hb₂.sessionList.trans (hh.pool.trans hb.sessionList)),
      fun v _ _ sv sv' _ _ hsv hsv' hlogged => ?_⟩
    · rw [hb₂.table hs₂, hh.table, hb.messageAct hs, hact]
      exact tableAfter_congr (hb.table hs) _ p
    · by_cases hv : v = u
      · subst hv
        have hplace₂ : w₂.layout.place v = some s₂.place := by
          simp [World.layout, hs₂]
        simp only [World.layout, setUser_users_self, Option.map_some,
          Option.some.injEq] at hp
        subst hp
        have hboard := hh.inv.board_of_switched hplace₂ (hh.switched _ hplace₂)
        exact Or.inl (hboard hplay)
      · rw [hb₂.place hv] at hp
        rcases hh.place v hv with hsame | ⟨b, seat, hleave, hseat⟩
        · rw [hsame, hb.place hv] at hp
          exact Or.inr (Or.inl ⟨p, hp, rfl, rfl⟩)
        · rw [hb.messageAct hs] at hleave
          rw [hb.boards] at hseat
          exact Or.inr (Or.inr ⟨u, data, msgType, msg, b, seat, rfl, hv,
            hrecv, hleave, hseat⟩)
    · by_cases hv : v = u
      · subst hv
        have hkept := hh.input v
        rw [hinput, input_eq hs₂, Option.some.injEq, Prod.mk.injEq] at hkept
        rw [input_eq (setUser_users_self _ _ _), inputAfter_read hs hbuf,
          hkept.1]
        have hfresh : (s.bufInfo.after (input ++ data)).2 = {} := by
          rw [received_eq hs hbuf] at hrecv
          rw [ReadBufInfo.after, hrecv]
        rw [hfresh]
      · rw [inputAfter_other hv, Layout.input, Layout.input, hb₂.place hv]
        have hkept := hh.input v
        rw [Layout.input, Layout.input, hb.place hv] at hkept
        exact hkept
    · obtain ⟨sv₁, hsv₁, hscore₁⟩ := score_of_mark hsv (hb.mark hs v)
      obtain ⟨sv₂, hsv₂, hscore₂⟩ := score_of_mark hsv' (hb₂.mark hs₂ v).symm
      have hscore := hh.scores v sv₁ sv₂ hsv₁ hsv₂ fun hv => by
        subst hv
        obtain ⟨s₁, hs₁, hcore⟩ := hb.session sv hsv
        rw [hsv₁, Option.some.injEq] at hs₁
        obtain ⟨_, _, _, _, hstate, _⟩ := core_eq hcore
        rw [UserSession.LoggedIn, hs₁, hstate]
        exact hlogged data rfl
      rw [hscore₁, hscore₂, hb.messageAct hs, ← hact,
        actCalls_congr (hb.chair hs v) (hb.table hs)] at hscore
      exact hscore
  · simp only [Bool.false_eq_true, if_false, Option.some.injEq] at h
    subst h
    refine c.stepped hinv hregistry hseating hreg (hsame.trans hb.registry)
      (hpool.trans hb.sessionList)
      (fun v hv => (hplace v hv).trans (hb.place hv))
      (fun v hv => (hmark v hv).trans (hb.mark hs v))
      (fun v hv => inputAfter_other hv) fun p => ?_
    rw [htable, hb.messageAct hs, hact]
    exact tableAfter_congr (hb.table hs) _ p

/-- A step that closes a connection. -/
theorem step_close {env : Env} {e : Event} {u : SessionId} {fd : Int}
    {w w₁ w' : World} (hinv : w.layout.Inv)
    (hreg : w.layout.registry fd = some u) (hb : Buffers u w w₁)
    (hact : w.act env e = w.closeAct u)
    (hinput : ∀ v, v ≠ u → w.inputAfter e v = w.layout.input v)
    (h : closingClientCon env fd w₁ = some w') : Stepped env e w w' := by
  obtain ⟨c, htable⟩ := closing_step hinv hreg hb h
  obtain ⟨s, hs, _⟩ := registered_session hinv.registry hreg
  have hinv₁ := hb.inv hinv hreg
  refine c.stepped hinv hinv₁.registry hinv₁.seating hreg hb.registry
    hb.sessionList (fun v hv => hb.place hv) (fun v _ => hb.mark hs v) hinput
    fun p => ?_
  rw [htable, hact]

/-- A read callback that finds no complete frame. -/
theorem step_waiting {env : Env} {u : SessionId} {s : UserSession}
    {data : Bytes} {w w' : World} (hinv : w.layout.Inv)
    (hreg : w.layout.registry s.clifd = some u) (hs : w.users u = some s)
    (hrecv : w.received u data = .waiting) (hb : Buffers u w w')
    (hinput : w'.layout.input u = w.inputAfter (.read u data) u) :
    Stepped env (.read u data) w w' := by
  refine ⟨hb.inv hinv hreg, fun p => ?_, fun v p hp _ => ?_,
    fun v k _ _ => ?_, .stay hb.registry hb.sessionList,
    fun v _ _ sv sv' _ _ hsv hsv' _ => ?_⟩
  · rw [hb.table hs]
    simp [World.act, hrecv, World.tableAfter]
  · by_cases hv : v = u
    · subst hv
      obtain ⟨s', hs', hcore⟩ := hb.session s hs
      obtain ⟨_, _, _, hboard, hstate, _⟩ := core_eq hcore
      simp only [World.layout, hs', Option.map_some, Option.some.injEq] at hp
      subst hp
      exact Or.inr (Or.inl ⟨s.place, by simp [World.layout, hs], hstate.symm,
        hboard.symm⟩)
    · rw [hb.place hv] at hp
      exact Or.inr (Or.inl ⟨p, hp, rfl, rfl⟩)
  · by_cases hv : v = u
    · subst hv
      exact hinput
    · rw [inputAfter_other hv, Layout.input, Layout.input, hb.place hv]
  · have hact : w.act env (.read u data) = none := by
      simp [World.act, hrecv]
    rw [World.scoreCalls, hact]
    exact congrArg _ (scored_of_mark hsv hsv' (hb.mark hs v))

/-- A connection that is accepted is one step. -/
theorem step_accept {env : Env} {fd : Int} {w w' : World}
    (hinv : w.layout.Inv) (hfd : 0 ≤ fd) (hfree : w.fdSessionMap[fd]? = none)
    (h : notifyAddEvent fd w = some w') : Stepped env (.accept fd) w w' := by
  obtain ⟨a, u, s, hregistry, hidle, hnew, hfilled⟩ :=
    notifyAddEvent_admitted hinv hfd hfree h
  -- nobody with a connection is in the pool
  have husers : ∀ v k, w.layout.registry k = some v →
      w'.users v = w.users v := by
    intro v k hreg
    obtain ⟨s, hs, _⟩ := registered_session hinv.registry hreg
    rw [hs]
    exact a.users v s hs (hinv.registry.not_mem_pool hreg)
  refine ⟨a.inv, fun p => ?_, fun v p hp hplay => ?_, fun v k hk _ => ?_,
    .serve hfree hregistry rfl (filled_cases hfilled),
    fun v k _ sv sv' hk _ hsv hsv' _ => ?_⟩
  · refine table_eq_of_marks (congrFun a.boards p) fun seat v hv => ?_
    obtain ⟨q, hq, hboard, _⟩ := hinv.seating.seated (b := p) hv
    rw [World.mark, World.mark, husers v _ (hinv.registry.onBoard hq hboard)]
  · have hreg := a.inv.registry.registered_of_online hp
      (Place.active_ne_idle hplay)
    rw [hregistry] at hreg
    by_cases hk : p.clifd = fd
    · rw [hk, Function.update_self] at hreg
      cases hreg
      simp only [World.layout, hnew, Option.map_some, Option.some.injEq] at hp
      subst hp
      have hnone : s.stateMachine = none := hidle.stateMachine
      have hplay' : s.stateMachine = some .gamePlay := hplay
      rw [hnone] at hplay'
      cases hplay'
    · rw [Function.update_of_ne hk] at hreg
      simp only [World.layout, husers v _ hreg] at hp
      exact Or.inr (Or.inl ⟨p, hp, rfl, rfl⟩)
  · simp only [World.inputAfter, Layout.input, World.layout, husers v k hk]
  · rw [husers v k hk, hsv, Option.some.injEq] at hsv'
    rw [hsv']
    rfl

/-- Every event that can occur keeps the invariant and does its act. -/
theorem step_spec {env : Env} {e : Event} {w w' : World}
    (hinv : w.layout.Inv) (henabled : e.Enabled w)
    (h : World.step env e w = some w') : Stepped env e w w' := by
  cases e with
  | accept fd => exact step_accept hinv henabled.1 henabled.2 h
  | read u data =>
      obtain ⟨s, hs, hbuf⟩ := henabled
      have hreg := enabled_registered hinv hs (Or.inl hbuf)
      obtain ⟨input, hinput⟩ := Option.ne_none_iff_exists'.mp hbuf
      obtain ⟨p, hp, _, honline⟩ := hinv.registry.registered hreg
      rw [show w.layout.place u = some s.place by simp [World.layout, hs],
        Option.some.injEq] at hp
      subst hp
      obtain ⟨w₁, info, hb, hin, hinfo, hstep⟩ :=
        read_step env data hs hinput honline.thread
      rw [hstep] at h
      cases hrecv : w.received u data with
      | waiting =>
          rw [hrecv] at h
          cases h
          refine step_waiting hinv hreg hs hrecv hb ?_
          rw [hin, hinfo hrecv, inputAfter_read hs hinput]
      | refused =>
          rw [hrecv] at h
          exact step_close hinv hreg hb (by simp [World.act, hrecv])
            (fun v hv => inputAfter_other hv) h
      | broken =>
          rw [hrecv] at h
          cases h
      | message msgType msg =>
          rw [hrecv] at h
          simp only [World.handleReceived, Option.bind_eq_bind,
            Option.bind_eq_some_iff] at h
          obtain ⟨⟨ret, w₂⟩, hmsg, h⟩ := h
          exact step_message hinv hreg hs hinput hrecv hb hin hmsg h
  | event u events =>
      obtain ⟨s, hs, hbuf⟩ := henabled
      have hreg := enabled_registered hinv hs (Or.inl hbuf)
      simp only [World.step, onEventCb, hs, Option.bind_eq_bind,
        Option.bind_some, Option.bind_eq_some_iff] at h
      obtain ⟨_, _, h⟩ := h
      split at h
      · rename_i hcloses
        exact step_close hinv hreg (Buffers.refl u w)
          (by simp [World.act, hcloses]) (fun _ _ => rfl) h
      · rename_i hcloses
        cases h
        refine ⟨hinv, fun p => ?_, fun v p hp _ => ?_, fun _ _ _ _ => rfl,
          .stay rfl rfl, fun v _ _ s s' _ _ hs hs' _ => ?_⟩
        · simp [World.act, hcloses, World.tableAfter]
        · exact Or.inr (Or.inl ⟨p, hp, rfl, rfl⟩)
        · rw [hs, Option.some.injEq] at hs'
          simp [World.scoreCalls, World.act, hcloses, hs']
  | timer u =>
      obtain ⟨s, hs, hclifd⟩ := henabled
      have hreg := enabled_registered hinv hs (Or.inr hclifd)
      simp only [World.step, timerOutHandle, hs, Option.bind_eq_bind,
        Option.bind_some, Option.bind_eq_some_iff] at h
      obtain ⟨_, _, h⟩ := h
      exact step_close hinv hreg (Buffers.refl u w) rfl (fun _ _ => rfl) h

/-! ## Runs -/

/-- The invariant holds before the first event. -/
theorem init_inv : World.init.layout.Inv where
  registry :=
    { registered := fun h => by simp [World.layout, World.init] at h
      pooled := fun h => by simp [World.layout, World.init] at h
      nodup := List.nodup_nil
      placed := fun h => by simp [World.layout, World.init] at h
      fresh := fun _ => rfl }
  seating :=
    { seated := by
        intro b seat u h
        cases seat <;> simp [World.layout, World.init, ChessBoard.seat] at h
      onBoard := fun h => by simp [World.layout, World.init] at h
      count := fun b => rfl }
  settled := fun u p h => by simp [World.layout, World.init] at h

/-- The invariant holds in every state the server reaches. -/
theorem reachable_inv {env : Env} {ok : Event → World → Prop} {w : World}
    (h : (server env).ReachableWith ok w) : w.layout.Inv :=
  h.invariant (I := fun w => w.layout.Inv) init_inv
    fun hinv henabled _ hstep => (step_spec hinv henabled hstep).inv

/-- One step of a run, at one board. -/
theorem step_table {env : Env} {states : Nat → World} {events : Nat → Event}
    {n j : Nat} (hist : (server env).History states events n) (hj : j < n)
    (b : BoardPtr) :
    (states (j + 1)).table b =
      (((states j).actAt env b (events j)).map
        (·.apply ((states j).table b))).getD ((states j).table b) := by
  obtain ⟨henabled, hstep⟩ := hist.next j hj
  have hinv := reachable_inv (hist.reachable (Nat.le_of_lt hj))
  rw [(step_spec hinv henabled hstep).table b, tableAfter_actAt]

end ChessServer
