import ChessServer.Proofs.Ready
import ChessServer.Proofs.Survives
import ChessServer.Results.Requests

/-!
# Messages that kill the process

The handlers that look for somebody, or for something, that need not be
there: the user on the seat that a move names, the users of a capture that is
taken back, the board that a request asks for, the score of a row, and the
board of a session that was sent away from it (`translateMsg_returns`,
`translateMsg_dies`).
-/

namespace ChessServer

variable {env : Env} {b : BoardPtr} {u : SessionId} {s : UserSession}
  {msg : Bytes} {w : World}

/-! ## What is missing -/

/-- Nobody sits there, or it is no seat. -/
def ChessBoard.vacant (board : ChessBoard) (locate : Location) : Bool :=
  (board.getUserByLocation locate).isNone

/-- A request that names a hall and no board of it. -/
def RequestPlay.strays (m : RequestPlay) : Bool :=
  (getGameHall m.gameHallId.toUInt32).isSome && !decide m.Addresses

/-- The rows of `users_info` that a login reads. -/
def World.userRows (env : Env) (account : Bytes) (w : World) : List UserRow :=
  if account = [] then []
  else
    match (w.query env (snprintf 254
      (lit "SELECT * FROM users_info WHERE account='" ++ cString account ++
        lit "'"))).1 with
    | .users rows => rows
    | _ => []

/-- `HandleLogin` finds a row without a score. -/
def World.fatalLogin (env : Env) (msg : Bytes) (w : World) : Bool :=
  (env.proto.logOnorOut msg).any fun login =>
    getIndividualUser login.account w == some true &&
      (w.userRows env login.account).any (·.score.isNone)

/-- `GameRequestHandle` finds no board. -/
def fatalRequest (env : Env) (msg : Bytes) : Bool :=
  (env.proto.requestPlay msg).any (·.strays)

/-- What the handlers of a board look for and do not find. -/
def World.fatalOnBoard (env : Env) (b : BoardPtr) (type : MessageType)
    (msg : Bytes) (w : World) : Bool :=
  match type with
  | .moveChess => (env.proto.moveChess msg).any fun m =>
      (w.boards b).vacant m.srcLocate
  | .undoReq | .undoReps => (env.proto.undo msg).any fun undo =>
      undo.accepted && (w.boards b).recent.any (w.boards b).vacant
  | .requestPlay => (env.proto.requestPlay msg).any fun m =>
      m.strays && !(w.boards b).vacant m.locate.toUInt32
  | _ => false

/-- What `StateGamePlay` looks at the session's board for. -/
def needsBoard (env : Env) (type : MessageType) (msg : Bytes) : Bool :=
  looksAtBoard env msg type ||
    (type == .chessBoardReq && (env.proto.chessBoardInfoReq msg).isSome)

/-- What a session that plays, or believes so, dies on. -/
def World.fatalPlay (env : Env) (s : UserSession) (type : MessageType)
    (msg : Bytes) (w : World) : Bool :=
  match s.currChessBoard with
  | some b => w.fatalOnBoard env b type msg
  | none => needsBoard env type msg

/-- What a session dies on in the state it is in. -/
def World.fatalIn (env : Env) (s : UserSession) (type : MessageType)
    (msg : Bytes) (w : World) : Bool :=
  match s.state with
  | .auth => type == .login && w.fatalLogin env msg
  | .downAd => false
  | .gameReady => type == .requestPlay && fatalRequest env msg
  | .gamePlay => w.fatalPlay env s type msg

/-- A message that a session dies on, and the process with it. -/
def World.fatalMessage (env : Env) (u : SessionId) (msgType : UInt32)
    (msg : Bytes) (w : World) : Bool :=
  match w.users u, MessageType.ofCode msgType with
  | some s, some type => w.fatalIn env s type msg
  | _, _ => false

/-! ## Seats -/

/-- A location is vacant when nobody is found there. -/
theorem ChessBoard.vacant_iff {board : ChessBoard} {locate : Location} :
    board.vacant locate = true ↔ board.getUserByLocation locate = none := by
  unfold ChessBoard.vacant
  rw [Option.isNone_iff_eq_none]

theorem ChessBoard.taken {board : ChessBoard} {locate : Location}
    (h : board.vacant locate = false) :
    ∃ u, board.getUserByLocation locate = some u := by
  unfold ChessBoard.vacant at h
  rw [Option.isNone_eq_false_iff] at h
  exact Option.isSome_iff_exists.mp h

/-! ## Logins -/

/-- A row without a score stops the loop over the rows, and nothing else
does. -/
theorem fetchUserRows_isSome (rows : List UserRow) (info : UsersInfo) :
    (rows.foldlM fetchUserRow info).isSome =
      !rows.any (·.score.isNone) := by
  induction rows generalizing info with
  | nil => rfl
  | cons row rows ih =>
      rw [List.foldlM_cons, List.any_cons]
      unfold fetchUserRow
      cases row.score with
      | none => rfl
      | some score => exact ih _

/-- A row without a score is what kills the query. -/
theorem getUsersInfoFromDB_isSome (env : Env) (account : Bytes)
    (info : UsersInfo) (w : World) :
    (getUsersInfoFromDB env account info w).isSome =
      !(w.userRows env account).any (·.score.isNone) := by
  unfold getUsersInfoFromDB World.userRows
  split
  · rfl
  · unfold mysqlDbQuery
    dsimp only
    generalize (w.query env (snprintf 254
      (lit "SELECT * FROM users_info WHERE account='" ++ cString account ++
        lit "'"))).1 = reply
    cases reply with
    | users rows =>
        dsimp only
        rw [← fetchUserRows_isSome rows info]
        cases rows.foldlM fetchUserRow info <;> rfl
    | _ => rfl

/-- Looking an account up leaves a statement. -/
theorem getUsersInfoFromDB_logged {account : Bytes} {info : UsersInfo}
    {r : Bool × UsersInfo × World}
    (h : getUsersInfoFromDB env account info w = some r) :
    ∃ log, r.2.2 = { w with sqlLog := log } := by
  unfold getUsersInfoFromDB at h
  split at h
  · cases h
    exact ⟨w.sqlLog, rfl⟩
  · unfold mysqlDbQuery at h
    dsimp only at h
    split at h
    · rename_i rows _
      cases hrows : rows.foldlM fetchUserRow info with
      | none =>
          rw [hrows] at h
          cases h
      | some info' =>
          rw [hrows] at h
          cases h
          exact ⟨_, rfl⟩
    · cases h
      exact ⟨_, rfl⟩

/-- Comparing a login completes unless it reads such a row. -/
theorem checkLogin_survives (login : LogOnorOut) (h : Guest w u s)
    (hrows : getIndividualUser login.account w = some true →
      (w.userRows env login.account).any (·.score.isNone) = false) :
    Returns (fun r => ∃ s', Guest r.2.2 u s') (checkLogin env u login w) := by
  obtain ⟨free, hfree⟩ := getIndividualUser_completes login.account h.connected
  unfold checkLogin
  apply Returns.bind_some h.session
  apply (Returns.of_isSome h.thread).bind
  intro _ _
  apply Returns.bind_some hfree
  apply Returns.ite
  · intro _
    exact .pure ⟨s, h⟩
  · intro hnot
    have htrue : free = true := by simpa using hnot
    have hthere := getUsersInfoFromDB_isSome env login.account s.userInfo w
    rw [hrows (hfree.trans (congrArg some htrue))] at hthere
    obtain ⟨r, hr⟩ := Option.isSome_iff_exists.mp hthere
    obtain ⟨log, hlog⟩ := getUsersInfoFromDB_logged hr
    apply Returns.bind_some hr
    dsimp only
    rw [hlog]
    apply ((h.logged log).assign (f := fun s =>
      { s with userInfo := r.2.1 }) rfl rfl rfl rfl).bind
    intro w₁ g₁
    apply Returns.ite
    · intro _
      exact .pure ⟨_, g₁⟩
    · intro _
      apply Returns.ite
      · intro _
        apply (loginAccepted_survives env g₁).bind
        intro r hr
        exact .pure hr
      · intro _
        apply (g₁.assign rfl rfl rfl rfl).bind
        intro w₂ g₂
        exact .pure ⟨_, g₂⟩

/-- So does the handling of it. -/
theorem handleLogin_survives (h : Guest w u s)
    (hlive : w.fatalLogin env msg = false) :
    Survives u (handleLogin env u msg w) := by
  unfold handleLogin
  unfold World.fatalLogin at hlive
  cases hlogin : env.proto.logOnorOut msg with
  | none => exact h.survives false
  | some login =>
      rw [hlogin] at hlive
      have hrows : getIndividualUser login.account w = some true →
          (w.userRows env login.account).any (·.score.isNone) = false := by
        intro hfree
        simpa [hfree] using hlive
      apply (checkLogin_survives login h hrows).bind
      intro r hr
      obtain ⟨s₁, g₁⟩ := hr
      apply (g₁.replies env _ _).bind
      intro r' g₂
      exact g₂.survives r.1

/-- The row without a score is fetched. -/
theorem handleLogin_dies (h : Guest w u s)
    (hfatal : w.fatalLogin env msg = true) :
    handleLogin env u msg w = none := by
  obtain ⟨login, hlogin, hboth⟩ := (Option.any_eq_true _ _).mp hfatal
  rw [Bool.and_eq_true, beq_iff_eq] at hboth
  obtain ⟨hfree, hrow⟩ := hboth
  obtain ⟨t, ht⟩ := Option.isSome_iff_exists.mp h.thread
  have hnone : getUsersInfoFromDB env login.account s.userInfo w = none := by
    rw [← Option.not_isSome_iff_eq_none, getUsersInfoFromDB_isSome, hrow]
    decide
  simp [handleLogin, hlogin, checkLogin, h.session, ht, hfree, hnone]

/-- And the login state, which reads rows for logins only. -/
theorem stateAuthMsgHandle_survives {msgType : UInt32} (h : Guest w u s)
    (hlive : MessageType.ofCode msgType = some .login →
      w.fatalLogin env msg = false) :
    Survives u (stateAuthMsgHandle env u msgType msg w) := by
  unfold stateAuthMsgHandle
  split
  · exact handleRegister_survives env msg h
  · rename_i hcode
    apply (handleLogin_survives h (hlive hcode)).bind
    intro r hr
    obtain ⟨s₁, g₁⟩ := hr
    apply Returns.bind (p := fun w' => ∃ s', Guest w' u s')
    · apply Returns.ite
      · intro _
        exact setNextState_survives .downAd g₁
      · intro _
        exact .pure ⟨s₁, g₁⟩
    · intro w₂ hw₂
      obtain ⟨s₂, g₂⟩ := hw₂
      exact g₂.survives true
  · exact h.survives false
  · exact echoMsgHandle_survives env _ h
  · unfold handleFindPwd
    cases env.proto.findPassword msg with
    | none => exact h.survives true
    | some pwd =>
        exact .pure ⟨s, h.session, h.online, h.state, h.connected⟩
  · exact h.survives false

/-! ## Requests to play -/

/-- A hall finds its boards, and no others. -/
theorem strays_iff {m : RequestPlay} (hw : w.Published) :
    m.strays = true ↔ ∃ hall, getGameHall m.gameHallId.toUInt32 = some hall ∧
      (w.getChessBoardByID hall m.chessBoardId.toUInt32).1 = none := by
  unfold RequestPlay.strays
  rw [Bool.and_eq_true, Bool.not_eq_true', decide_eq_false_iff_not,
    addresses_iff hw, Option.isSome_iff_exists]
  constructor
  · intro h
    obtain ⟨⟨hall, hhall⟩, hno⟩ := h
    refine ⟨hall, hhall, ?_⟩
    cases hboard : (w.getChessBoardByID hall m.chessBoardId.toUInt32).1 with
    | none => rfl
    | some c =>
        rw [named_board hw hhall hboard] at hboard
        exact absurd ⟨hall, hhall, hboard⟩ hno
  · intro h
    obtain ⟨hall, hhall, hnone⟩ := h
    refine ⟨⟨hall, hhall⟩, fun hfound => ?_⟩
    obtain ⟨hall', hhall', hboard⟩ := hfound
    rw [hhall] at hhall'
    cases hhall'
    rw [hnone] at hboard
    cases hboard

/-- A request for a board that its hall cannot have is fatal. -/
theorem gameRequestHandle_dies (hw : w.Published)
    (hfatal : fatalRequest env msg = true) :
    gameRequestHandle env u msg w = none := by
  obtain ⟨m, hmsg, hstrays⟩ := (Option.any_eq_true _ _).mp hfatal
  obtain ⟨hall, hhall, hboard⟩ := (strays_iff hw).mp hstrays
  simp [gameRequestHandle, hmsg, hhall, hboard]

/-- Any other request completes. -/
theorem gameRequestHandle_returns (hinv : w.layout.Inv) (hw : w.Published)
    (hs : w.users u = some s) (hstate : s.stateMachine = some .gameReady)
    (hlive : fatalRequest env msg = false) :
    Returns (fun _ => True) (gameRequestHandle env u msg w) := by
  cases hmsg : env.proto.requestPlay msg with
  | none => exact ⟨(true, w), by simp only [gameRequestHandle, hmsg], trivial⟩
  | some m =>
      have hstrays : ¬ m.strays = true := by
        simpa [fatalRequest, hmsg] using hlive
      rw [strays_iff hw] at hstrays
      cases hhall : getGameHall m.gameHallId.toUInt32 with
      | none =>
          exact ⟨(true, w), by simp only [gameRequestHandle, hmsg, hhall],
            trivial⟩
      | some hall =>
          cases hboard :
              (w.getChessBoardByID hall m.chessBoardId.toUInt32).1 with
          | none => exact absurd ⟨hall, hhall, hboard⟩ hstrays
          | some c =>
              obtain ⟨w', hw', _⟩ :=
                gameRequestHandle_answers env hinv hs hstate hmsg hhall hboard
              exact ⟨_, hw', trivial⟩

theorem gameAgainHandle_returns (hinv : w.layout.Inv) (hw : w.Published)
    (hlive : w.fatalOnBoard env b .requestPlay msg = false) :
    Returns (fun r => r.1 = true) (gameAgainHandle env b msg w) := by
  cases hmsg : env.proto.requestPlay msg with
  | none => exact ⟨(true, w), by simp only [gameAgainHandle, hmsg], rfl⟩
  | some m =>
      cases hhall : getGameHall m.gameHallId.toUInt32 with
      | none =>
          exact ⟨(true, w), by simp only [gameAgainHandle, hmsg, hhall], rfl⟩
      | some hall =>
          have n := getChessBoardByID_notified hall m.chessBoardId.toUInt32 w
          cases hv : (w.boards b).getUserByLocation m.locate.toUInt32 with
          | none =>
              exact ⟨(true, (w.getChessBoardByID hall
                m.chessBoardId.toUInt32).2), by
                simp only [gameAgainHandle, hmsg, hhall, n.boards, hv], rfl⟩
          | some v =>
              obtain ⟨seat, _, hseat⟩ := getUserByLocation_eq_some hv
              obtain ⟨p, hp, honline, hstate⟩ := hinv.connected.seated
                (show w.layout.seats b seat = some v from hseat)
              obtain ⟨t, ht, rfl⟩ := place_session hp
              have g : Guest w v t := ⟨ht, honline, hstate, hinv.connected⟩
              cases hboard :
                  (w.getChessBoardByID hall m.chessBoardId.toUInt32).1 with
              | none =>
                  have hstrays : m.strays = true :=
                    (strays_iff hw).mpr ⟨hall, hhall, hboard⟩
                  simp [World.fatalOnBoard, hmsg, hstrays, ChessBoard.vacant,
                    hv] at hlive
              | some c =>
                  obtain ⟨_, w', hw', _⟩ := gameAgainHandle_answers env g
                    (seat_alone hinv ht hseat).1 hmsg hhall hboard hv
                  exact ⟨_, hw', rfl⟩

/-- Asking for another game on such a board is fatal too. -/
theorem gameAgainHandle_dies (hw : w.Published)
    (hfatal : w.fatalOnBoard env b .requestPlay msg = true) :
    gameAgainHandle env b msg w = none := by
  obtain ⟨m, hmsg, hboth⟩ := (Option.any_eq_true _ _).mp hfatal
  rw [Bool.and_eq_true, Bool.not_eq_true'] at hboth
  obtain ⟨hall, hhall, hboard⟩ := (strays_iff hw).mp hboth.1
  obtain ⟨v, hv⟩ := ChessBoard.taken hboth.2
  have n := getChessBoardByID_notified hall m.chessBoardId.toUInt32 w
  simp [gameAgainHandle, hmsg, hhall, hboard, n.boards, hv]

/-! ## The handlers of a board -/

/-- A move of nobody cannot be handled. -/
theorem moveChessHandle_dies
    (hfatal : w.fatalOnBoard env b .moveChess msg = true) :
    moveChessHandle env b msg w = none := by
  obtain ⟨m, hmsg, hvacant⟩ := (Option.any_eq_true _ _).mp hfatal
  have hnone := ChessBoard.vacant_iff.mp hvacant
  simp only [moveChessHandle, hmsg, hnone, Option.bind_eq_bind,
    Option.bind_none, Option.bind_fun_none]

/-- A move of somebody at the table can. -/
theorem moveChessHandle_returns (hinv : w.layout.Inv)
    (hlive : w.fatalOnBoard env b .moveChess msg = false) :
    Returns (fun r => r.1 = true) (moveChessHandle env b msg w) := by
  cases hmsg : env.proto.moveChess msg with
  | none => exact ⟨(true, w), by simp only [moveChessHandle, hmsg], rfl⟩
  | some m =>
      have hvacant : (w.boards b).vacant m.srcLocate = false := by
        simpa [World.fatalOnBoard, hmsg] using hlive
      obtain ⟨v, hv⟩ := ChessBoard.taken hvacant
      obtain ⟨w', hw'⟩ := moveChessHandle_completes env hinv hmsg hv
      exact ⟨_, hw', rfl⟩

/-- What is fatal about an undo, whichever of the two types it has. -/
def World.fatalUndo (env : Env) (b : BoardPtr) (msg : Bytes) (w : World) :
    Bool := w.fatalOnBoard env b .undoReq msg

/-- An undo cannot be agreed to when a player of the capture is gone. -/
theorem undoHandle_dies (type : MessageType)
    (hfatal : w.fatalUndo env b msg = true) :
    undoHandle env b msg type w = none := by
  obtain ⟨undo, hmsg, hboth⟩ := (Option.any_eq_true _ _).mp hfatal
  rw [Bool.and_eq_true] at hboth
  obtain ⟨haccepted, hmissing⟩ := hboth
  obtain ⟨locate, hmem, hvacant⟩ := List.any_eq_true.mp hmissing
  cases hrun : undoHandle env b msg type w with
  | none => rfl
  | some r =>
      obtain ⟨ret, w'⟩ := r
      obtain ⟨v, hv⟩ := undoHandle_needs hmsg haccepted hrun locate hmem
      rw [ChessBoard.vacant_iff.mp hvacant] at hv
      cases hv

/-- Any other answer to an undo is handled. -/
theorem undoHandle_returns (type : MessageType) (hinv : w.layout.Inv)
    (hlive : w.fatalUndo env b msg = false) :
    Returns (fun r => r.1 = true) (undoHandle env b msg type w) := by
  cases hmsg : env.proto.undo msg with
  | none => exact ⟨(true, w), by simp only [undoHandle, hmsg], rfl⟩
  | some undo =>
      have htaken : undo.accepted = true → ∀ locate ∈ (w.boards b).recent,
          ∃ v, (w.boards b).getUserByLocation locate = some v := by
        intro haccepted locate hmem
        have hall : ∀ locate ∈ (w.boards b).recent,
            (w.boards b).vacant locate = false := by
          simpa [World.fatalUndo, World.fatalOnBoard, hmsg, haccepted]
            using hlive
        exact ChessBoard.taken (hall locate hmem)
      obtain ⟨w', hw'⟩ := undoHandle_completes env type hinv hmsg htaken
      exact ⟨_, hw', rfl⟩

theorem userMessageHandle_returns (hinv : w.layout.Inv) :
    Returns (fun r => r.1 = true) (userMessageHandle env b msg w) := by
  unfold userMessageHandle
  cases env.proto.userMessage msg with
  | none => exact .pure rfl
  | some m =>
      obtain ⟨w', hw'⟩ := broadCastMsg_completes env b .userMsg (.forward msg)
        m.srcUserLocate hinv.connected
      apply Returns.bind_some hw'
      exact .pure rfl

theorem reconciledHandle_returns (type : MessageType)
    (hinv : w.layout.Inv) :
    Returns (fun r => r.1 = true) (reconciledHandle env b msg type w) := by
  have hc := hinv.connected
  unfold reconciledHandle
  cases env.proto.reconciled msg with
  | none => exact .pure rfl
  | some peace =>
      apply Returns.ite
      · intro _
        obtain ⟨w₁, h₁⟩ := broadCastMsg_completes env b type (.forward msg)
          peace.srcUserLocate hc
        have n₁ := broadCastMsg_notified h₁
        apply Returns.bind_some h₁
        apply Returns.bind (p := fun _ => True)
        · apply Returns.ite
          · intro _
            obtain ⟨w₂, h₂, _⟩ := endAllUsers_completes (b := b)
              (n₁.connected hc) (n₁.layout ▸ hinv.seating.distinct)
            exact ⟨w₂, h₂, trivial⟩
          · intro _
            exact .pure trivial
        · intro _ _
          exact .pure rfl
      · intro _
        apply Returns.ite
        · intro _
          cases hv : (w.boards b).getUserByLocation peace.tarUserLocate with
          | none => exact .pure rfl
          | some v =>
              obtain ⟨seat, _, hseat⟩ := getUserByLocation_eq_some hv
              obtain ⟨p, hp, honline, _⟩ :=
                hc.seated (show w.layout.seats b seat = some v from hseat)
              obtain ⟨ret, w', hw'⟩ := messageReply_completes env type
                (.forward msg) hp honline
              apply Returns.bind_some hw'
              exact .pure rfl
        · intro _
          exact .pure rfl

/-- Giving up without leaving the board. -/
theorem leaveRoomHandle_stays (env : Env) {seat : Seat} (hinv : w.layout.Inv)
    (hseat : (w.boards b).seat seat = some u) (hs : w.users u = some s) :
    ∃ w', leaveRoomHandle env b u false w = some w' := by
  obtain ⟨p, hp, honline, hstate⟩ := hinv.connected.seated
    (show w.layout.seats b seat = some u from hseat)
  obtain ⟨t, ht, rfl⟩ := place_session hp
  rw [hs] at ht
  cases ht
  have hdistinct : w.layout.Distinct := hinv.seating.distinct
  obtain ⟨w₁, h₁, _, _, _, hself₁⟩ :=
    leavePenalty_completes env hs honline.thread
  have p₁ := leavePenalty_plays hdistinct hseat h₁
  have h₂ := modifyUser_eq hself₁ fun s => { s with status := .ended }
  have p₂ := setStatus_plays _ (p₁.distinct hdistinct)
    ((congrFun (p₁.seats b) seat).trans hseat) h₂
  have hlayout := p₂.layout.trans p₁.layout
  obtain ⟨w', hrest, _⟩ := leaveRest_completes env b (s.status == .playing)
    { srcUserLocate := s.locate, opt := none } s.locate locationMax
    (hlayout ▸ hinv.connected) (hlayout ▸ hdistinct) (hlayout ▸ hp) hstate
  simp only [Option.bind_eq_bind, Option.bind_eq_some_iff] at hrest
  obtain ⟨w₃, h₃, r, h₄, w₅, h₅, info, hinfo, w₆, h₆, h₇⟩ := hrest
  simp only [leaveRoomHandle, hs, h₁, leaveSeat, Bool.false_eq_true, if_false,
    h₂, h₃, h₄, h₅, hinfo, h₆, Option.bind_eq_bind, Option.bind_some]
  split
  · exact ⟨w', h₇⟩
  · exact ⟨w₆, rfl⟩

/-- Giving up always completes. -/
theorem giveUpHandle_returns (hinv : w.layout.Inv) :
    Returns (fun r => r.1 = true) (giveUpHandle env b msg w) := by
  unfold giveUpHandle
  cases env.proto.giveUp msg with
  | none => exact .pure rfl
  | some giveup =>
      dsimp only
      cases hv : (w.boards b).getUserByLocation giveup.srcUserLocate with
      | none => exact .pure rfl
      | some v =>
          obtain ⟨seat, _, hseat⟩ := getUserByLocation_eq_some hv
          obtain ⟨t, ht, _⟩ := hinv.connected.session hv
          apply Returns.ite
          · intro _
            obtain ⟨w₁, h₁, d⟩ := leaveRoomHandle_completes env hinv.seating
              hinv.connected hseat ht
            obtain ⟨t₁, ht₁, _⟩ := d.leaver
            apply Returns.bind_some h₁
            apply Returns.bind_some (modifyUser_eq ht₁ _)
            apply Returns.bind_some (modifyUser_eq (setUser_users_self ..) _)
            exact .pure rfl
          · intro _
            obtain ⟨w₁, h₁⟩ := leaveRoomHandle_stays env hinv hseat ht
            apply Returns.bind_some h₁
            exact .pure rfl

/-- The handlers of a board keep the connection; what is no message for a
board is refused untouched. -/
theorem translateMsg_returns {type : MessageType} {msgType : UInt32}
    (hinv : w.layout.Inv) (hw : w.Published)
    (hcode : MessageType.ofCode msgType = some type)
    (hlive : w.fatalOnBoard env b type msg = false) :
    Returns (fun r => r.1 = true ∨ r.2 = w)
      (translateMsg env b msgType msg w) := by
  have hkeeps : ∀ {r : Option (Bool × World)},
      Returns (fun r => r.1 = true) r →
      Returns (fun r => r.1 = true ∨ r.2 = w) r := by
    intro r h
    exact h.mono fun _ => Or.inl
  unfold translateMsg
  rw [hcode]
  split
  · rename_i heq
    cases heq
    exact hkeeps (moveChessHandle_returns hinv hlive)
  · exact hkeeps (userMessageHandle_returns hinv)
  · exact hkeeps (reconciledHandle_returns _ hinv)
  · exact hkeeps (reconciledHandle_returns _ hinv)
  · exact hkeeps (giveUpHandle_returns hinv)
  · rename_i heq
    cases heq
    exact hkeeps (undoHandle_returns _ hinv hlive)
  · rename_i heq
    cases heq
    exact hkeeps (undoHandle_returns _ hinv hlive)
  · rename_i heq
    cases heq
    cases hmsg : env.proto.gameReadyReq msg with
    | none =>
        exact ⟨(true, w), by simp only [gameReadyHandle, hmsg], Or.inl rfl⟩
    | some m =>
        obtain ⟨w', hw'⟩ := gameReadyHandle_completes env hinv hmsg
        exact ⟨_, hw', Or.inl rfl⟩
  · rename_i heq
    cases heq
    exact hkeeps (gameAgainHandle_returns hinv hw hlive)
  · exact .pure (Or.inr rfl)

/-- The fatal messages of a game kill whatever the handler. -/
theorem translateMsg_dies {type : MessageType} {msgType : UInt32}
    (hw : w.Published) (hcode : MessageType.ofCode msgType = some type)
    (hfatal : w.fatalOnBoard env b type msg = true) :
    translateMsg env b msgType msg w = none := by
  unfold translateMsg
  rw [hcode]
  cases type with
  | moveChess => exact moveChessHandle_dies hfatal
  | undoReq => exact undoHandle_dies .undoReq hfatal
  | undoReps => exact undoHandle_dies .undoReps hfatal
  | requestPlay => exact gameAgainHandle_dies hw hfatal
  | _ => cases hfatal

end ChessServer
