import ChessServer.Server.Board

/-!
# The in-game handlers

What `ChessBoard::TranslateMsg` dispatches to, and `LeaveRoomHandle`.  None
of these functions is told which session sent the message: the author is
whoever sits at the seat that the message names.
-/

namespace ChessServer

/-! ## Leaving -/

/-- `if (user->status == STATUS_PLAYING)` of `LeaveRoomHandle`. -/
def leavePenalty (env : Env) (user : SessionId) (endGame : Bool) (w : World) :
    Option World :=
  if endGame then reduceScore env user 30 w else some w

/-- The `really_leave` branches of `LeaveRoomHandle`. -/
def leaveSeat (this : BoardPtr) (user : SessionId) (reallyLeave : Bool)
    (w : World) : Option World :=
  if reallyLeave then do
    let w ← w.modifyUser user fun s => { s with status := .exited }
    leaveOutRoom this user w
  else
    w.modifyUser user fun s => { s with status := .ended }

/-- "if just left only ONE user, then it's the last winner".  The source
assigns the only active user to `user`, which is returned. -/
def lastWinner (env : Env) (this : BoardPtr) (user : SessionId) (w : World) :
    Option (SessionId × World) := do
  let num ← getActiveUsersNum this w
  if num = 1 then do
    let active ← getOnlyActiveUser this w
    -- a NULL here would be dereferenced by `BroadCastHallInfo`
    let winner ← active
    let s ← w.users winner
    if s.status = .playing then do
      let w ← increaseScore env winner 10 w
      let w ← w.modifyUser winner fun s => { s with status := .ended }
      some (winner, w)
    else some (winner, w)
  else some (user, w)

/-- `ChessBoard::LeaveRoomHandle`. -/
def leaveRoomHandle (env : Env) (this : BoardPtr) (user : SessionId)
    (reallyLeave : Bool) (w : World) : Option World := do
  let s ← w.users user
  let leaveUserLocate := s.locate
  let endGame := s.status == .playing
  let w ← leavePenalty env user endGame w
  let giveUp : GiveUp :=
    { srcUserLocate := leaveUserLocate
      opt := if reallyLeave then some (lit "exit") else none }
  let w ← leaveSeat this user reallyLeave w
  let w ← broadCastMsg env this .giveUp (.giveUp giveUp) leaveUserLocate w
  let (user, w) ← lastWinner env this user w
  let w ← (if endGame then endAllUsers this w else some w)
  let info ← wrapChessBoardInfo this w
  let filter := if reallyLeave then leaveUserLocate else locationMax
  let w ← broadCastMsg env this .chessBoard (.chessBoardInfo info) filter w
  if endGame ∨ reallyLeave then broadCastHallInfo env this user w else some w

/-- `ChessBoard::GiveUpHandle`. -/
def giveUpHandle (env : Env) (this : BoardPtr) (msg : Bytes) (w : World) :
    Option (Bool × World) :=
  match env.proto.giveUp msg with
  | none => some (true, w)
  | some giveup =>
      match (w.boards this).getUserByLocation giveup.srcUserLocate with
      | none => some (true, w)
      | some user =>
          if giveup.opt = some (lit "exit") then do
            let w ← leaveRoomHandle env this user true w
            let w ← w.modifyUser user fun s =>
              { s with nextState := some .gameReady }
            let w ← w.modifyUser user fun s => { s with currChessBoard := none }
            some (true, w)
          else do
            let w ← leaveRoomHandle env this user false w
            some (true, w)

/-! ## Moves -/

/-- Assign `recentWinnerLocate` and `recentLoserLocate`. -/
def ChessBoard.setRecent (board : ChessBoard) (winner loser : Location) :
    ChessBoard :=
  { board with recentWinnerLocate := winner, recentLoserLocate := loser }

/-- The `is_winner` block of `MoveChessHandle`. -/
def moveCapture (env : Env) (this : BoardPtr) (m : MoveChess) (w : World) :
    Option World :=
  if m.isWinner then do
    let w := w.modifyBoard this
      (·.setRecent m.srcLocate m.targetLocate)
    let srcUser ← (w.boards this).getUserByLocation m.srcLocate
    let w ← increaseScore env srcUser 10 w
    match (w.boards this).getUserByLocation m.targetLocate with
    | some tarUser => do
        let w ← reduceScore env tarUser 10 w
        w.modifyUser tarUser fun s => { s with status := .ended }
    | none => some w
  else
    some (w.modifyBoard this (·.setRecent locationMax locationMax))

/-- Which of two seats holds the token next: the first if its user is
playing, otherwise the second, without a further look. -/
def tokenOf (this : BoardPtr) (first second : Seat) (w : World) :
    Option UInt32 := do
  let playing ← w.seatStatus ((w.boards this).seat first) (· == .playing)
  some (if playing then first.location else second.location)

/-- The three branches that set `token_locate` while the game goes on. -/
def nextToken (this : BoardPtr) (locate : Location) (w : World) :
    Option (Option UInt32) :=
  match seatAt locate with
  | some .left => (tokenOf this .bottom .right w).map some
  | some .bottom => (tokenOf this .right .left w).map some
  | some .right => (tokenOf this .left .bottom w).map some
  | none => some none

/-- From `if (GetActiveUsersNum() > 1)` on: the announced token, and the end
of the mover's game when nobody else is playing. -/
def moveToken (this : BoardPtr) (srcUser : SessionId) (locate : Location)
    (w : World) : Option (Option UInt32 × World) := do
  let num ← getActiveUsersNum this w
  if num > 1 then do
    let token ← nextToken this locate w
    some (token, w)
  else do
    let w ← w.modifyUser srcUser fun s => { s with status := .ended }
    some (some locationMax, w)

/-- `ChessBoard::MoveChessHandle`. -/
def moveChessHandle (env : Env) (this : BoardPtr) (msg : Bytes) (w : World) :
    Option (Bool × World) :=
  match env.proto.moveChess msg with
  | none => some (true, w)
  | some m => do
      let srcUser := (w.boards this).getUserByLocation m.srcLocate
      let w ← moveCapture env this m w
      -- the debug log reads `src_user->locate` whether or not it is NULL
      let src ← srcUser
      let s ← w.users src
      let (token, w) ← moveToken this src s.locate w
      let w ← broadCastMsg env this .announceMove
        (.moveAction ⟨s.locate, m, token⟩) locationMax w
      if m.isWinner then do
        let info ← wrapChessBoardInfo this w
        let w ← broadCastMsg env this .chessBoard (.chessBoardInfo info)
          locationMax w
        some (true, w)
      else some (true, w)

/-! ## Chat, draws and undo -/

/-- `ChessBoard::UserMessageHandle`. -/
def userMessageHandle (env : Env) (this : BoardPtr) (msg : Bytes)
    (w : World) : Option (Bool × World) :=
  match env.proto.userMessage msg with
  | none => some (true, w)
  | some m => do
      let w ← broadCastMsg env this .userMsg (.forward msg) m.srcUserLocate w
      some (true, w)

/-- `ChessBoard::ReconciledHandle`. -/
def reconciledHandle (env : Env) (this : BoardPtr) (msg : Bytes)
    (type : MessageType) (w : World) : Option (Bool × World) :=
  match env.proto.reconciled msg with
  | none => some (true, w)
  | some peace =>
      if type = .reconciledReq ∨ peace.applyOrReply = 0 then do
        let w ← broadCastMsg env this type (.forward msg) peace.srcUserLocate w
        let w ← (if peace.status = some (lit "All") then endAllUsers this w
          else some w)
        some (true, w)
      else if type = .reconciledResp ∨ peace.applyOrReply = 1 then
        match (w.boards this).getUserByLocation peace.tarUserLocate with
        | some user => do
            let (_, w) ← messageReply env user type (.forward msg) w
            some (true, w)
        | none => some (true, w)
      else some (true, w)

/-- An undo response that was agreed to: `rep_or_respon` is `1` and `status`
is present and true. -/
def Undo.accepted (undo : Undo) : Bool :=
  undo.repOrRespon == 1 && undo.status == some true

/-- The `try` block of `UndoHandle`; no handler catches a null pointer. -/
def undoCapture (env : Env) (this : BoardPtr) (w : World) : Option World :=
  let board := w.boards this
  if board.recentWinnerLocate ≠ locationMax then do
    let winner ← board.getUserByLocation board.recentWinnerLocate
    let w ← reduceScore env winner 10 w
    let loser ← board.getUserByLocation board.recentLoserLocate
    let w ← increaseScore env loser 10 w
    w.modifyUser loser fun s => { s with status := .playing }
  else some w

/-- `ChessBoard::UndoHandle`. -/
def undoHandle (env : Env) (this : BoardPtr) (msg : Bytes)
    (type : MessageType) (w : World) : Option (Bool × World) :=
  match env.proto.undo msg with
  | none => some (true, w)
  | some undo =>
      if undo.repOrRespon = 0 then
        match (w.boards this).getUserByLocation undo.tarUserLocate with
        | some user => do
            let (_, w) ← messageReply env user type (.forward msg) w
            some (true, w)
        | none => some (true, w)
      else if undo.repOrRespon = 1 then do
        let w ← broadCastMsg env this type (.forward msg) undo.tarUserLocate w
        let w ← (if undo.accepted then undoCapture env this w else some w)
        some (true, w)
      else some (true, w)

/-! ## Starting a game -/

/-- Assign `totalTime` and `singleStepTime`. -/
def ChessBoard.setTime (board : ChessBoard) (total single : UInt32) :
    ChessBoard :=
  { board with totalTime := total, singleStepTime := single }

/-- The first part of `GameReadyHandle`: the named user is marked BEGAN, and
the first comer sets the clocks. -/
def readyRequest (this : BoardPtr) (m : GameReadyReq) (w : World) :
    Option World := do
  let w ← w.setSeatStatus
    ((w.boards this).getUserByLocation m.srcUserLocate) .began
  match m.totalTime, m.singleStepTime with
  | some total, some single =>
      if m.srcUserLocate = (w.boards this).firstComeUserLocate then
        some (w.modifyBoard this (·.setTime total single))
      else some w
  | _, _ => some w

/-- `if (began_num == 3)`: the game starts. -/
def startGame (env : Env) (this : BoardPtr) (w : World) : Option World := do
  let right ← (w.boards this).rightUser
  let w ← w.modifyUser right fun s => { s with status := .playing }
  let left ← (w.boards this).leftUser
  let w ← w.modifyUser left fun s => { s with status := .playing }
  let bottom ← (w.boards this).bottomUser
  let w ← w.modifyUser bottom fun s => { s with status := .playing }
  broadCastHallInfo env this bottom w

/-- `ChessBoard::GameReadyHandle`. -/
def gameReadyHandle (env : Env) (this : BoardPtr) (msg : Bytes) (w : World) :
    Option (Bool × World) :=
  match env.proto.gameReadyReq msg with
  | none => some (true, w)
  | some m => do
      let w ← readyRequest this m w
      let board := w.boards this
      let left ← w.seatStatus board.leftUser (· == .began)
      let right ← w.seatStatus board.rightUser (· == .began)
      let bottom ← w.seatStatus board.bottomUser (· == .began)
      let status : GameStatusReply :=
        { leftUserStatus := left
          rightUserStatus := right
          bottomUserStatus := bottom
          tokenLocate := locationBottom
          totalTime := board.totalTime
          singleStepTime := board.singleStepTime }
      let w ← broadCastMsg env this .gameStatus (.gameStatusReply status)
        locationMax w
      if left.toNat + right.toNat + bottom.toNat = 3 then do
        let w ← startGame env this w
        some (true, w)
      else some (true, w)

/-- The reply of `GameAgainHandle`, and whether the user was put back to
READY. -/
def playAgain (chessBoard : BoardPtr) (user : SessionId) (w : World) :
    Option (Bool × RequestPlayReply × World) := do
  let began ← gameBegan chessBoard w
  let s ← w.users user
  let first := (w.boards chessBoard).firstComeUserLocate
  if began ∧ s.status = .ended then do
    let w ← w.modifyUser user fun s => { s with status := .ready }
    let info ← wrapChessBoardInfo chessBoard w
    some (true, ⟨1, first, some info⟩, w)
  else some (false, ⟨0, first, none⟩, w)

/-- `should_update_hall`: every user seated on the board is READY. -/
def shouldUpdateHall (chessBoard : BoardPtr) (w : World) : Option Bool := do
  let num ← w.countSeats chessBoard (· != .ready)
  some (decide (num = 0))

/-- `ChessBoard::GameAgainHandle`. -/
def gameAgainHandle (env : Env) (this : BoardPtr) (msg : Bytes) (w : World) :
    Option (Bool × World) :=
  match env.proto.requestPlay msg with
  | none => some (true, w)
  | some m =>
      match getGameHall m.gameHallId.toUInt32 with
      | none => some (true, w)
      | some hall =>
          let (chessBoard, w) := w.getChessBoardByID hall m.chessBoardId.toUInt32
          match (w.boards this).getUserByLocation m.locate.toUInt32 with
          | none => some (true, w)
          | some user => do
              -- `chessBoard->GameBegan()` without a test for NULL
              let chessBoard ← chessBoard
              let (addedOk, reply, w) ← playAgain chessBoard user w
              let (_, w) ← messageReply env user .requestPlayReply
                (.requestPlayReply reply) w
              if addedOk then do
                let s ← w.users user
                let curr ← s.currChessBoard
                let w ← broadCastMsg env curr .requestPlayReply
                  (.requestPlayReply { reply with status := 2 }) s.locate w
                let update ← shouldUpdateHall chessBoard w
                let w ← (if update then broadCastHallInfo env chessBoard user w
                  else some w)
                some (true, w)
              else some (true, w)

/-! ## Dispatch -/

/-- `ChessBoard::TranslateMsg`. -/
def translateMsg (env : Env) (this : BoardPtr) (msgType : UInt32)
    (msg : Bytes) (w : World) : Option (Bool × World) :=
  match MessageType.ofCode msgType with
  | some .moveChess => moveChessHandle env this msg w
  | some .userMsg => userMessageHandle env this msg w
  | some .reconciledReq => reconciledHandle env this msg .reconciledReq w
  | some .reconciledResp => reconciledHandle env this msg .reconciledResp w
  | some .giveUp => giveUpHandle env this msg w
  | some .undoReq => undoHandle env this msg .undoReq w
  | some .undoReps => undoHandle env this msg .undoReps w
  | some .gameReadyReq => gameReadyHandle env this msg w
  | some .requestPlay => gameAgainHandle env this msg w
  | _ => some (false, w)

/-! ## A board that is not there -/

/-- Does `GetUserByLocation` look at the object? -/
def looksUp (locate : Location) : Bool := (seatAt locate).isSome

/-- Does the handler of a message look at its board?  Every one parses the
message first; a broadcast looks at the board, as do the assignments of a
move. -/
def looksAtBoard (env : Env) (msg : Bytes) : MessageType → Bool
  | .moveChess => (env.proto.moveChess msg).isSome
  | .userMsg => (env.proto.userMessage msg).isSome
  | .reconciledReq => (env.proto.reconciled msg).isSome
  | .reconciledResp => (env.proto.reconciled msg).any fun peace =>
      peace.applyOrReply == 0 || looksUp peace.tarUserLocate
  | .giveUp => (env.proto.giveUp msg).any fun giveup =>
      looksUp giveup.srcUserLocate
  | .undoReq | .undoReps => (env.proto.undo msg).any fun undo =>
      if undo.repOrRespon = 0 then looksUp undo.tarUserLocate
      else undo.repOrRespon == 1
  | .gameReadyReq => (env.proto.gameReadyReq msg).isSome
  | .requestPlay => (env.proto.requestPlay msg).any fun m =>
      (getGameHall m.gameHallId.toUInt32).isSome && looksUp m.locate.toUInt32
  | _ => false

/-- What `GameAgainHandle` does before it looks at its board: the board that
the message names is published. -/
def publishNamed (env : Env) (msg : Bytes) (w : World) : World :=
  match env.proto.requestPlay msg with
  | none => w
  | some m =>
      match getGameHall m.gameHallId.toUInt32 with
      | none => w
      | some hall => (w.getChessBoardByID hall m.chessBoardId.toUInt32).2

/-- The message types that `TranslateMsg` has a handler for. -/
def translates : MessageType → Bool
  | .moveChess | .userMsg | .reconciledReq | .reconciledResp | .giveUp
  | .undoReq | .undoReps | .gameReadyReq | .requestPlay => true
  | _ => false

/-- `TranslateMsg` through a null pointer.  It is no virtual function: the
process dies when a handler looks at the board. -/
def translateMsgNull (env : Env) (msgType : UInt32) (msg : Bytes)
    (w : World) : Option (Bool × World) :=
  match MessageType.ofCode msgType with
  | none => some (false, w)
  | some type =>
      if looksAtBoard env msg type then none
      else some (translates type,
        if type = .requestPlay then publishNamed env msg w else w)

end ChessServer
