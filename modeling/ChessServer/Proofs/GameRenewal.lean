import ChessServer.Proofs.Counts
import ChessServer.Proofs.Renewal

/-!
# Two runs of the boards

The members of `GameHall` and `ChessBoard` keep two runs together that differ
in one session, up to `translateMsg` and `translateMsgNull`.
-/

namespace ChessServer

variable {env : Env} {u v : SessionId} {loose : Prop} {w w' : World}

namespace Renewed

/-! ## Halls -/

/-- The tables of the halls are replaced. -/
theorem publish (h : Renewed env v loose w w') (halls : UInt32 → GameHall) :
    Renewed env v loose { w with halls := halls } { w' with halls := halls } :=
  h.record (f := fun w => { w with halls := halls }) (fun _ => rfl)
    (fun _ => rfl) (fun _ => rfl) fun _ => rfl

/-- A board is published in both runs or in neither. -/
theorem createChessBoard (h : Renewed env v loose w w') (hall id : UInt32) :
    Lockstep.Same (Renewed env v loose) (w.createChessBoard hall id)
      (w'.createChessBoard hall id) := by
  unfold World.createChessBoard
  dsimp only
  rw [h.halls]
  split
  · exact ⟨rfl, h⟩
  · exact ⟨rfl, h.publish _⟩

/-- A lookup finds the same board. -/
theorem getChessBoardByID (h : Renewed env v loose w w') (hall id : UInt32) :
    Lockstep.Same (Renewed env v loose) (w.getChessBoardByID hall id)
      (w'.getChessBoardByID hall id) := by
  obtain ⟨hret, hcreate⟩ := h.createChessBoard hall id
  unfold World.getChessBoardByID
  dsimp only
  rw [h.halls, hret, hcreate.halls]
  split
  · exact ⟨rfl, h⟩
  · split
    · exact ⟨rfl, h⟩
    · split
      · exact ⟨rfl, hcreate⟩
      · exact ⟨rfl, hcreate⟩

/-! ## Statuses -/

/-- The statuses on a board are the same, for none depends on `locate`. -/
theorem seatStatus (h : Renewed env v loose w w') (user : Option SessionId)
    (test : UserGameStatus → Bool) :
    w'.seatStatus user test = w.seatStatus user test := by
  cases user with
  | none => rfl
  | some u => exact h.look u (fun s => test s.status) fun _ _ => rfl

theorem countSeats (h : Renewed env v loose w w') (this : BoardPtr)
    (test : UserGameStatus → Bool) :
    w'.countSeats this test = w.countSeats this test := by
  unfold World.countSeats
  rw [h.boards, h.seatStatus, h.seatStatus, h.seatStatus]

/-- The last player is the same session. -/
theorem getOnlyActiveUser (h : Renewed env v loose w w') (this : BoardPtr) :
    getOnlyActiveUser this w' = getOnlyActiveUser this w := by
  unfold ChessServer.getOnlyActiveUser
  dsimp only
  rw [h.boards, h.seatStatus, h.seatStatus, h.seatStatus]

theorem gameBegan (h : Renewed env v loose w w') (this : BoardPtr) :
    gameBegan this w' = gameBegan this w := by
  unfold ChessServer.gameBegan
  rw [h.countSeats]

/-- A status is assigned in both runs. -/
theorem mark (h : Renewed env v loose w w') (u : SessionId)
    (status : UserGameStatus) :
    Option.Rel (Renewed env v loose)
      (w.modifyUser u fun s => { s with status := status })
      (w'.modifyUser u fun s => { s with status := status }) :=
  h.modifyUser u (inert_of (fun _ _ => rfl) (fun _ => rfl) fun _ => rfl)

theorem setSeatStatus (h : Renewed env v loose w w')
    (user : Option SessionId) (status : UserGameStatus) :
    Option.Rel (Renewed env v loose) (w.setSeatStatus user status)
      (w'.setSeatStatus user status) := by
  cases user with
  | none => exact .some h
  | some u => exact h.mark u status

/-- The game ends for all three. -/
theorem endAllUsers (h : Renewed env v loose w w') (this : BoardPtr) :
    Option.Rel (Renewed env v loose) (endAllUsers this w)
      (endAllUsers this w') := by
  unfold ChessServer.endAllUsers
  rw [h.boards]
  refine Lockstep.bind (h.setSeatStatus _ .ended) fun w₁ w₁' h₁ => ?_
  rw [h₁.boards]
  refine Lockstep.bind (h₁.setSeatStatus _ .ended) fun w₂ w₂' h₂ => ?_
  rw [h₂.boards]
  exact h₂.setSeatStatus _ .ended

/-! ## Snapshots and broadcasts -/

/-- Nobody's `locate` is shown to anybody. -/
theorem wrapUser (h : Renewed env v loose w w') (user : Option SessionId) :
    w'.wrapUser user = w.wrapUser user := by
  cases user with
  | none => rfl
  | some u => exact h.look u _ fun _ _ => rfl

/-- The snapshot of a board is the same. -/
theorem wrapChessBoardInfo (h : Renewed env v loose w w') (this : BoardPtr) :
    wrapChessBoardInfo this w' = wrapChessBoardInfo this w := by
  unfold ChessServer.wrapChessBoardInfo
  dsimp only
  rw [h.boards, h.wrapUser, h.wrapUser, h.wrapUser]

/-- A broadcast goes to the same users. -/
theorem broadCastMsg (h : Renewed env v loose w w') (this : BoardPtr)
    (type : MessageType) (body : Payload) (filter : UInt32) :
    Option.Rel (Renewed env v loose) (broadCastMsg env this type body filter w)
      (broadCastMsg env this type body filter w') := by
  unfold ChessServer.broadCastMsg
  refine Lockstep.foldlM (fun w w' locate h => ?_) locations h
  refine Lockstep.ite (fun _ => ?_) fun _ => .some h
  rw [h.boards]
  split
  · exact Lockstep.map (h.messageReply _ type body) fun r r' hr => hr.2
  · exact .some h

theorem wrapHallBoard (h : Renewed env v loose w w') (hall : UInt32)
    (acc : List ChessBoardInfo) (j : UInt32) :
    Option.Rel (Lockstep.Same (Renewed env v loose))
      (wrapHallBoard hall (acc, w) j) (wrapHallBoard hall (acc, w') j) := by
  obtain ⟨hboard, hlookup⟩ := h.getChessBoardByID hall j
  unfold ChessServer.wrapHallBoard
  dsimp only
  rw [hboard]
  split
  · refine Lockstep.read (hlookup.wrapChessBoardInfo _) fun info _ => ?_
    exact .some ⟨rfl, hlookup⟩
  · exact .some ⟨rfl, hlookup⟩

theorem getCurrentPeopleNum (h : Renewed env v loose w w') (hall : UInt32) :
    w'.getCurrentPeopleNum hall = w.getCurrentPeopleNum hall := by
  unfold World.getCurrentPeopleNum
  rw [h.halls, h.boards]

/-- A hall is shown alike, and the same boards are published on the way. -/
theorem wrapHallInfo (h : Renewed env v loose w w') (hallId : UInt32) :
    Option.Rel (Lockstep.Same (Renewed env v loose)) (wrapHallInfo hallId w)
      (wrapHallInfo hallId w') := by
  unfold ChessServer.wrapHallInfo
  dsimp only
  rw [h.halls]
  split
  · exact .some ⟨rfl, h⟩
  · rename_i hall _
    rw [h.getCurrentPeopleNum]
    refine Lockstep.value (Lockstep.foldlM
      (R := Lockstep.Same (Renewed env v loose)) (fun r r' j hr => ?_)
      (idsUpTo chessBoardMaxNum) ⟨rfl, h⟩) fun boards w₁ w₁' h₁ => ?_
    · obtain ⟨acc, w⟩ := r
      obtain ⟨acc', w'⟩ := r'
      obtain ⟨rfl, hr⟩ := hr
      exact hr.wrapHallBoard hall acc' j
    · exact .some ⟨rfl, h₁⟩

theorem sumaryHallInfo (h : Renewed env v loose w w') :
    w'.sumaryHallInfo = w.sumaryHallInfo := by
  funext hall
  unfold World.sumaryHallInfo
  rw [h.halls, h.getCurrentPeopleNum]

/-- The summary of the halls is the same. -/
theorem gameHallSumaryHandle (h : Renewed env v loose w w') (u : SessionId) :
    Option.Rel (Lockstep.Same (Renewed env v loose))
      (gameHallSumaryHandle env u w) (gameHallSumaryHandle env u w') := by
  unfold ChessServer.gameHallSumaryHandle
  refine Lockstep.bind (h.user u) fun s s' hm => ?_
  obtain ⟨locate, rfl⟩ := hm.differ
  rw [h.sumaryHallInfo]
  refine Lockstep.value (h.messageReply u _ _) fun _ w₁ w₁' h₁ => ?_
  exact .some ⟨rfl, h₁⟩

theorem sendHallInfo (h : Renewed env v loose w w') (data : Payload)
    (u : SessionId) :
    Option.Rel (Renewed env v loose) (sendHallInfo env data w u)
      (sendHallInfo env data w' u) := by
  unfold ChessServer.sendHallInfo
  refine Lockstep.bind (h.user u) fun s s' hm => ?_
  obtain ⟨locate, rfl⟩ := hm.differ
  dsimp only
  have hsent : Option.Rel (Renewed env v loose)
      ((ChessServer.messageReply env u .hallInfo data w).bind fun r =>
        (ChessServer.gameHallSumaryHandle env u r.2).bind fun r => some r.2)
      ((ChessServer.messageReply env u .hallInfo data w').bind fun r =>
        (ChessServer.gameHallSumaryHandle env u r.2).bind fun r => some r.2) := by
    refine Lockstep.value (h.messageReply u _ _) fun _ w₁ w₁' h₁ => ?_
    refine Lockstep.value (h₁.gameHallSumaryHandle u) fun _ w₂ w₂' h₂ => ?_
    exact .some h₂
  split
  · exact hsent
  · exact hsent
  · exact .some h

/-- The news of a hall go to the same sessions. -/
theorem broadCastHallInfo (h : Renewed env v loose w w') (this : BoardPtr)
    (user : SessionId) :
    Option.Rel (Renewed env v loose) (broadCastHallInfo env this user w)
      (broadCastHallInfo env this user w') := by
  unfold ChessServer.broadCastHallInfo
  refine Lockstep.bind (h.user user) fun s s' hm => ?_
  obtain ⟨locate, rfl⟩ := hm.differ
  refine Lockstep.read rfl fun state _ => ?_
  rw [h.boards]
  refine Lockstep.value (h.wrapHallInfo _) fun info w₁ w₁' h₁ => ?_
  dsimp only
  rw [h₁.fdSessionMap]
  exact Lockstep.foldlM (fun w w' u h => h.sendHallInfo _ u) _ h₁


/-! ## Leaving -/

theorem leavePenalty (h : Renewed env v loose w w') (user : SessionId)
    (endGame : Bool) :
    Option.Rel (Renewed env v loose) (leavePenalty env user endGame w)
      (leavePenalty env user endGame w') := by
  unfold ChessServer.leavePenalty
  exact Lockstep.ite (fun _ => h.reduceScore user 30) fun _ => .some h

/-- Here `LeaveOutRoom` reads the `locate` of a session. -/
theorem leaveSeat (h : Renewed env v loose w w') (this : BoardPtr)
    {user : SessionId} (hfirm : Firm v loose user) (reallyLeave : Bool) :
    Option.Rel (Renewed env v loose) (leaveSeat this user reallyLeave w)
      (leaveSeat this user reallyLeave w') := by
  unfold ChessServer.leaveSeat
  refine Lockstep.ite (fun _ => ?_) fun _ => h.mark user .ended
  refine Lockstep.bind (h.mark user .exited) fun w₁ w₁' h₁ => ?_
  unfold ChessServer.leaveOutRoom
  refine Lockstep.read (h₁.equal hfirm) fun s _ => ?_
  exact .some (h₁.modifyBoard this fun _ _ => leaveOutRoom_seat)

/-- The winner who is left is the same. -/
theorem lastWinner (h : Renewed env v loose w w') (this : BoardPtr)
    (user : SessionId) :
    Option.Rel (Lockstep.Same (Renewed env v loose))
      (lastWinner env this user w) (lastWinner env this user w') := by
  unfold ChessServer.lastWinner getActiveUsersNum
  refine Lockstep.read (h.countSeats this _) fun num _ => ?_
  refine Lockstep.ite (fun _ => ?_) fun _ => .some ⟨rfl, h⟩
  refine Lockstep.read (h.getOnlyActiveUser this) fun active _ => ?_
  refine Lockstep.read rfl fun winner _ => ?_
  refine Lockstep.bind (h.user winner) fun s s' hm => ?_
  obtain ⟨locate, rfl⟩ := hm.differ
  refine Lockstep.ite (fun _ => ?_) fun _ => .some ⟨rfl, h⟩
  refine Lockstep.bind (h.increaseScore winner 10) fun w₁ w₁' h₁ => ?_
  refine Lockstep.bind (h₁.mark winner .ended) fun w₂ w₂' h₂ => ?_
  exact .some ⟨rfl, h₂⟩

/-- Only a session that has a chair or a board leaves one, and it tells the
others its `locate`. -/
theorem leaveRoomHandle (h : Renewed env v loose w w') (this : BoardPtr)
    {user : SessionId} (hfirm : Firm v loose user) (reallyLeave : Bool) :
    Option.Rel (Renewed env v loose)
      (leaveRoomHandle env this user reallyLeave w)
      (leaveRoomHandle env this user reallyLeave w') := by
  unfold ChessServer.leaveRoomHandle
  refine Lockstep.read (h.equal hfirm) fun s _ => ?_
  refine Lockstep.bind (h.leavePenalty user _) fun w₁ w₁' h₁ => ?_
  refine Lockstep.bind (h₁.leaveSeat this hfirm _) fun w₂ w₂' h₂ => ?_
  refine Lockstep.bind (h₂.broadCastMsg this _ _ _) fun w₃ w₃' h₃ => ?_
  refine Lockstep.value (h₃.lastWinner this user) fun user w₄ w₄' h₄ => ?_
  refine Lockstep.bind (Lockstep.ite (fun _ => h₄.endAllUsers this)
    fun _ => .some h₄) fun w₅ w₅' h₅ => ?_
  refine Lockstep.read (h₅.wrapChessBoardInfo this) fun info _ => ?_
  refine Lockstep.bind (h₅.broadCastMsg this _ _ _) fun w₆ w₆' h₆ => ?_
  exact Lockstep.ite (fun _ => h₆.broadCastHallInfo this user)
    fun _ => .some h₆

theorem inert_stand : Inert fun s => { s with currChessBoard := none } where
  locate := fun _ _ => rfl
  board := fun _ _ => rfl
  picture := fun _ hsmall => hsmall

/-- Whoever gives up sits on the chair that the message names. -/
theorem giveUpHandle (h : Renewed env v loose w w') (this : BoardPtr)
    (msg : Bytes) :
    Option.Rel (Lockstep.Same (Renewed env v loose))
      (giveUpHandle env this msg w) (giveUpHandle env this msg w') := by
  unfold ChessServer.giveUpHandle
  rw [h.boards]
  split
  · exact .some ⟨rfl, h⟩
  · split
    · exact .some ⟨rfl, h⟩
    · rename_i user hfound
      have hfirm := h.found hfound
      refine Lockstep.ite (fun _ => ?_) fun _ => ?_
      · refine Lockstep.bind (h.leaveRoomHandle this hfirm true)
          fun w₁ w₁' h₁ => ?_
        refine Lockstep.bind (h₁.modifyUser user (inert_of (fun _ _ => rfl)
          (fun _ => rfl) fun _ => rfl)) fun w₂ w₂' h₂ => ?_
        refine Lockstep.bind (h₂.modifyUser user inert_stand)
          fun w₃ w₃' h₃ => ?_
        exact .some ⟨rfl, h₃⟩
      · refine Lockstep.bind (h.leaveRoomHandle this hfirm false)
          fun w₁ w₁' h₁ => ?_
        exact .some ⟨rfl, h₁⟩

/-! ## Moves -/

/-- A capture is booked alike. -/
theorem moveCapture (h : Renewed env v loose w w') (this : BoardPtr)
    (m : MoveChess) :
    Option.Rel (Renewed env v loose) (moveCapture env this m w)
      (moveCapture env this m w') := by
  unfold ChessServer.moveCapture
  refine Lockstep.ite (fun _ => ?_) fun _ => ?_
  · have h₁ := h.note this
      (f := (·.setRecent m.srcLocate m.targetLocate))
      fun board => setRecent_seat board _ _
    dsimp only
    rw [h₁.boards]
    refine Lockstep.read rfl fun srcUser _ => ?_
    refine Lockstep.bind (h₁.increaseScore srcUser 10) fun w₂ w₂' h₂ => ?_
    rw [h₂.boards]
    split
    · rename_i tarUser _
      refine Lockstep.bind (h₂.reduceScore tarUser 10) fun w₃ w₃' h₃ => ?_
      exact h₃.mark tarUser .ended
    · exact .some h₂
  · exact .some (h.note this fun board => setRecent_seat board _ _)

theorem nextToken (h : Renewed env v loose w w') (this : BoardPtr)
    (locate : Location) :
    nextToken this locate w' = nextToken this locate w := by
  have htoken : ∀ first second,
      tokenOf this first second w' = tokenOf this first second w := by
    intro first second
    unfold tokenOf
    rw [h.boards, h.seatStatus]
  unfold ChessServer.nextToken
  simp only [htoken]

/-- The token goes to the same chair. -/
theorem moveToken (h : Renewed env v loose w w') (this : BoardPtr)
    (srcUser : SessionId) (locate : Location) :
    Option.Rel (Lockstep.Same (Renewed env v loose))
      (moveToken this srcUser locate w) (moveToken this srcUser locate w') := by
  unfold ChessServer.moveToken getActiveUsersNum
  refine Lockstep.read (h.countSeats this _) fun num _ => ?_
  refine Lockstep.ite (fun _ => ?_) fun _ => ?_
  · refine Lockstep.read (h.nextToken this locate) fun token _ => ?_
    exact .some ⟨rfl, h⟩
  · refine Lockstep.bind (h.mark srcUser .ended) fun w₁ w₁' h₁ => ?_
    exact .some ⟨rfl, h₁⟩

/-- The mover's `locate` is announced: it is that of a user on a chair. -/
theorem moveChessHandle (h : Renewed env v loose w w') (this : BoardPtr)
    (msg : Bytes) :
    Option.Rel (Lockstep.Same (Renewed env v loose))
      (moveChessHandle env this msg w) (moveChessHandle env this msg w') := by
  unfold ChessServer.moveChessHandle
  split
  · exact .some ⟨rfl, h⟩
  · rename_i m _
    rw [h.boards]
    refine Lockstep.bind (h.moveCapture this m) fun w₁ w₁' h₁ => ?_
    refine Lockstep.read rfl fun src hsrc => ?_
    refine Lockstep.read (h₁.equal (h.found hsrc)) fun s _ => ?_
    refine Lockstep.value (h₁.moveToken this src s.locate)
      fun token w₂ w₂' h₂ => ?_
    refine Lockstep.bind (h₂.broadCastMsg this _ _ _) fun w₃ w₃' h₃ => ?_
    refine Lockstep.ite (fun _ => ?_) fun _ => .some ⟨rfl, h₃⟩
    refine Lockstep.read (h₃.wrapChessBoardInfo this) fun info _ => ?_
    refine Lockstep.bind (h₃.broadCastMsg this _ _ _) fun w₄ w₄' h₄ => ?_
    exact .some ⟨rfl, h₄⟩


/-! ## Chat, draws and undo -/

theorem userMessageHandle (h : Renewed env v loose w w') (this : BoardPtr)
    (msg : Bytes) :
    Option.Rel (Lockstep.Same (Renewed env v loose))
      (userMessageHandle env this msg w)
      (userMessageHandle env this msg w') := by
  unfold ChessServer.userMessageHandle
  split
  · exact .some ⟨rfl, h⟩
  · refine Lockstep.bind (h.broadCastMsg this _ _ _) fun w₁ w₁' h₁ => ?_
    exact .some ⟨rfl, h₁⟩

theorem reconciledHandle (h : Renewed env v loose w w') (this : BoardPtr)
    (msg : Bytes) (type : MessageType) :
    Option.Rel (Lockstep.Same (Renewed env v loose))
      (reconciledHandle env this msg type w)
      (reconciledHandle env this msg type w') := by
  unfold ChessServer.reconciledHandle
  split
  · exact .some ⟨rfl, h⟩
  · refine Lockstep.ite (fun _ => ?_) fun _ => ?_
    · refine Lockstep.bind (h.broadCastMsg this _ _ _) fun w₁ w₁' h₁ => ?_
      refine Lockstep.bind (Lockstep.ite (fun _ => h₁.endAllUsers this)
        fun _ => .some h₁) fun w₂ w₂' h₂ => ?_
      exact .some ⟨rfl, h₂⟩
    · refine Lockstep.ite (fun _ => ?_) fun _ => .some ⟨rfl, h⟩
      rw [h.boards]
      split
      · refine Lockstep.value (h.messageReply _ _ _) fun _ w₁ w₁' h₁ => ?_
        exact .some ⟨rfl, h₁⟩
      · exact .some ⟨rfl, h⟩

theorem undoCapture (h : Renewed env v loose w w') (this : BoardPtr) :
    Option.Rel (Renewed env v loose) (undoCapture env this w)
      (undoCapture env this w') := by
  unfold ChessServer.undoCapture
  dsimp only
  rw [h.boards]
  refine Lockstep.ite (fun _ => ?_) fun _ => .some h
  refine Lockstep.read rfl fun winner _ => ?_
  refine Lockstep.bind (h.reduceScore winner 10) fun w₁ w₁' h₁ => ?_
  refine Lockstep.read rfl fun loser _ => ?_
  refine Lockstep.bind (h₁.increaseScore loser 10) fun w₂ w₂' h₂ => ?_
  exact h₂.mark loser .playing

/-- A capture is taken back alike. -/
theorem undoHandle (h : Renewed env v loose w w') (this : BoardPtr)
    (msg : Bytes) (type : MessageType) :
    Option.Rel (Lockstep.Same (Renewed env v loose))
      (undoHandle env this msg type w) (undoHandle env this msg type w') := by
  unfold ChessServer.undoHandle
  split
  · exact .some ⟨rfl, h⟩
  · refine Lockstep.ite (fun _ => ?_) fun _ => ?_
    · rw [h.boards]
      split
      · refine Lockstep.value (h.messageReply _ _ _) fun _ w₁ w₁' h₁ => ?_
        exact .some ⟨rfl, h₁⟩
      · exact .some ⟨rfl, h⟩
    · refine Lockstep.ite (fun _ => ?_) fun _ => .some ⟨rfl, h⟩
      refine Lockstep.bind (h.broadCastMsg this _ _ _) fun w₁ w₁' h₁ => ?_
      refine Lockstep.bind (Lockstep.ite (fun _ => h₁.undoCapture this)
        fun _ => .some h₁) fun w₂ w₂' h₂ => ?_
      exact .some ⟨rfl, h₂⟩

/-! ## Starting a game -/

/-- The named user is ready, and the first comer sets the clocks. -/
theorem readyRequest (h : Renewed env v loose w w') (this : BoardPtr)
    (m : GameReadyReq) :
    Option.Rel (Renewed env v loose) (readyRequest this m w)
      (readyRequest this m w') := by
  unfold ChessServer.readyRequest
  rw [h.boards]
  refine Lockstep.bind (h.setSeatStatus _ .began) fun w₁ w₁' h₁ => ?_
  rw [h₁.boards]
  split
  · refine Lockstep.ite (fun _ => ?_) fun _ => .some h₁
    exact .some (h₁.note this fun board => setTime_seat board _ _)
  · exact .some h₁

theorem startGame (h : Renewed env v loose w w') (this : BoardPtr) :
    Option.Rel (Renewed env v loose) (startGame env this w)
      (startGame env this w') := by
  unfold ChessServer.startGame
  rw [h.boards]
  refine Lockstep.read rfl fun right _ => ?_
  refine Lockstep.bind (h.mark right .playing) fun w₁ w₁' h₁ => ?_
  rw [h₁.boards]
  refine Lockstep.read rfl fun left _ => ?_
  refine Lockstep.bind (h₁.mark left .playing) fun w₂ w₂' h₂ => ?_
  rw [h₂.boards]
  refine Lockstep.read rfl fun bottom _ => ?_
  refine Lockstep.bind (h₂.mark bottom .playing) fun w₃ w₃' h₃ => ?_
  exact h₃.broadCastHallInfo this bottom

/-- A game starts in both runs or in neither. -/
theorem gameReadyHandle (h : Renewed env v loose w w') (this : BoardPtr)
    (msg : Bytes) :
    Option.Rel (Lockstep.Same (Renewed env v loose))
      (gameReadyHandle env this msg w) (gameReadyHandle env this msg w') := by
  unfold ChessServer.gameReadyHandle
  split
  · exact .some ⟨rfl, h⟩
  · refine Lockstep.bind (h.readyRequest this _) fun w₁ w₁' h₁ => ?_
    dsimp only
    rw [h₁.boards]
    refine Lockstep.read (h₁.seatStatus _ _) fun left _ => ?_
    refine Lockstep.read (h₁.seatStatus _ _) fun right _ => ?_
    refine Lockstep.read (h₁.seatStatus _ _) fun bottom _ => ?_
    refine Lockstep.bind (h₁.broadCastMsg this _ _ _) fun w₂ w₂' h₂ => ?_
    refine Lockstep.ite (fun _ => ?_) fun _ => .some ⟨rfl, h₂⟩
    refine Lockstep.bind (h₂.startGame this) fun w₃ w₃' h₃ => ?_
    exact .some ⟨rfl, h₃⟩

theorem playAgain (h : Renewed env v loose w w') (chessBoard : BoardPtr)
    (user : SessionId) :
    Option.Rel (Lockstep.Same (Lockstep.Same (Renewed env v loose)))
      (playAgain chessBoard user w) (playAgain chessBoard user w') := by
  unfold ChessServer.playAgain
  refine Lockstep.read (h.gameBegan chessBoard) fun began _ => ?_
  refine Lockstep.bind (h.user user) fun s s' hm => ?_
  obtain ⟨locate, rfl⟩ := hm.differ
  dsimp only
  rw [h.boards]
  refine Lockstep.ite (fun _ => ?_) fun _ => .some ⟨rfl, rfl, h⟩
  refine Lockstep.bind (h.mark user .ready) fun w₁ w₁' h₁ => ?_
  refine Lockstep.read (h₁.wrapChessBoardInfo chessBoard) fun info _ => ?_
  exact .some ⟨rfl, rfl, h₁⟩

/-- The `locate` that is passed over in the broadcast is that of a user on a
chair. -/
theorem gameAgainHandle (h : Renewed env v loose w w') (this : BoardPtr)
    (msg : Bytes) :
    Option.Rel (Lockstep.Same (Renewed env v loose))
      (gameAgainHandle env this msg w) (gameAgainHandle env this msg w') := by
  unfold ChessServer.gameAgainHandle
  split
  · exact .some ⟨rfl, h⟩
  · rename_i m _
    split
    · exact .some ⟨rfl, h⟩
    · rename_i hall _
      obtain ⟨hboard, h⟩ := h.getChessBoardByID hall m.chessBoardId.toUInt32
      dsimp only
      rw [hboard, h.boards]
      split
      · exact .some ⟨rfl, h⟩
      · rename_i user hfound
        refine Lockstep.read rfl fun chessBoard _ => ?_
        refine Lockstep.values (h.playAgain chessBoard user)
          fun addedOk reply w₁ w₁' h₁ => ?_
        refine Lockstep.value (h₁.messageReply user _ _) fun _ w₂ w₂' h₂ => ?_
        refine Lockstep.ite (fun _ => ?_) fun _ => .some ⟨rfl, h₂⟩
        refine Lockstep.read (h₂.equal (h.found hfound)) fun s _ => ?_
        refine Lockstep.read rfl fun curr _ => ?_
        refine Lockstep.bind (h₂.broadCastMsg curr _ _ _) fun w₃ w₃' h₃ => ?_
        unfold shouldUpdateHall
        refine Lockstep.read (by rw [h₃.countSeats]) fun update _ => ?_
        refine Lockstep.bind (Lockstep.ite
          (fun _ => h₃.broadCastHallInfo chessBoard user)
          fun _ => .some h₃) fun w₄ w₄' h₄ => ?_
        exact .some ⟨rfl, h₄⟩

/-- A message to a board. -/
theorem translateMsg (h : Renewed env v loose w w') (this : BoardPtr)
    (msgType : UInt32) (msg : Bytes) :
    Option.Rel (Lockstep.Same (Renewed env v loose))
      (translateMsg env this msgType msg w)
      (translateMsg env this msgType msg w') := by
  unfold ChessServer.translateMsg
  split
  · exact h.moveChessHandle this msg
  · exact h.userMessageHandle this msg
  · exact h.reconciledHandle this msg _
  · exact h.reconciledHandle this msg _
  · exact h.giveUpHandle this msg
  · exact h.undoHandle this msg _
  · exact h.undoHandle this msg _
  · exact h.gameReadyHandle this msg
  · exact h.gameAgainHandle this msg
  · exact .some ⟨rfl, h⟩

theorem publishNamed (h : Renewed env v loose w w') (msg : Bytes) :
    Renewed env v loose (publishNamed env msg w) (publishNamed env msg w') := by
  unfold ChessServer.publishNamed
  split
  · exact h
  · split
    · exact h
    · exact (h.getChessBoardByID _ _).2

/-- A message to a board that is not there. -/
theorem translateMsgNull (h : Renewed env v loose w w') (msgType : UInt32)
    (msg : Bytes) :
    Option.Rel (Lockstep.Same (Renewed env v loose))
      (translateMsgNull env msgType msg w)
      (translateMsgNull env msgType msg w') := by
  unfold ChessServer.translateMsgNull
  split
  · exact .some ⟨rfl, h⟩
  · refine Lockstep.ite (fun _ => .none) fun _ => .some ⟨rfl, ?_⟩
    split
    · exact h.publishNamed msg
    · exact h

end Renewed

end ChessServer
