import ChessServer.Server.Reply

/-!
# Halls and boards

`chessboard.cpp`, in the order of the source: the halls' board table, the
seats of a board, the in-game handlers that `TranslateMsg` dispatches to, and
the broadcasts.  A member function takes `this` as its board's address.
-/

namespace ChessServer

/-! ## GameHall -/

/-- `MainThread::GetGameHall`. -/
def getGameHall (id : UInt32) : Option UInt32 :=
  if id < 1 ∨ id > gameHallMaxNum then none else some id

/-- `GameHall::GetChessValidBoardNum`. -/
def GameHall.getChessValidBoardNum (hall : GameHall) : Nat :=
  hall.chessBoardInfo.size

/-- `GameHall::GetExpectedTotalPeopleNum`. -/
def GameHall.getExpectedTotalPeopleNum (hall : GameHall) : UInt32 :=
  hall.chessBoardMaxNum * 3

/-- `GameHall::GetCurrentPeopleNum`. -/
def World.getCurrentPeopleNum (w : World) (hall : UInt32) : UInt32 :=
  (w.halls hall).chessBoardInfo.toList.foldl
    (fun num entry => num + (w.boards entry.2).currUserNum) 0

/-- `GameHall::CreateChessBoard`.  The new board's memory already holds what
its constructor writes (`World.init`), so `new` only publishes it. -/
def World.createChessBoard (hall id : UInt32) (w : World) : Bool × World :=
  let gameHall := w.halls hall
  if gameHall.getChessValidBoardNum > gameHall.chessBoardMaxNum.toNat then
    (false, w)
  else
    let gameHall := { gameHall with
      chessBoardInfo := gameHall.chessBoardInfo.insertIfNew id ⟨hall, id⟩ }
    (true, { w with halls := Function.update w.halls hall gameHall })

/-- `GameHall::GetChessBoardByID`; `find` of an id that is not in the map is
taken to yield `NULL`. -/
def World.getChessBoardByID (hall id : UInt32) (w : World) :
    Option BoardPtr × World :=
  if id = 0 ∨ id > (w.halls hall).chessBoardMaxNum then (none, w)
  else
    match (w.halls hall).chessBoardInfo[id]? with
    | some chessBoard => (some chessBoard, w)
    | none =>
        let (ret, w) := w.createChessBoard hall id
        if ret then ((w.halls hall).chessBoardInfo[id]?, w) else (none, w)

/-! ## Seats -/

/-- `ChessBoard::GetUserByLocation`. -/
def ChessBoard.getUserByLocation (board : ChessBoard) (locate : Location) :
    Option SessionId :=
  match seatAt locate with
  | some .left => board.leftUser
  | some .right => board.rightUser
  | some .bottom => board.bottomUser
  | none => none

/-- `ChessBoard::HasFullUsers`. -/
def ChessBoard.hasFullUsers (board : ChessBoard) : Bool :=
  board.currUserNum == 3

/-- `ChessBoard::AddUser` of a session whose `locate` is given. -/
def ChessBoard.addUser (board : ChessBoard) (user : SessionId)
    (locate : Location) : Bool × ChessBoard :=
  if board.hasFullUsers then (false, board)
  else
    match seatAt locate with
    | some seat =>
        if board.seat seat = none then
          (true, { board.setSeat seat (some user) with
            currUserNum := board.currUserNum + 1 })
        else (false, board)
    | none => (false, board)

/-- `ChessBoard::LeaveOutRoom(const Location &)`: the seat is vacated
whoever sits there, and the owner's mark goes if it names that seat. -/
def ChessBoard.leaveOutRoom (board : ChessBoard) (locate : Location) :
    Bool × ChessBoard :=
  let (ret, board) :=
    if board.currUserNum > 0 then
      match seatAt locate with
      | some seat =>
          if board.seat seat = none then (false, board)
          else
            (true, { board.setSeat seat none with
              currUserNum := board.currUserNum - 1 })
      | none => (false, board)
    else (false, board)
  if locate = board.firstComeUserLocate then
    (ret, { board with firstComeUserLocate := locationMax })
  else (ret, board)

/-- `ChessBoard::LeaveOutRoom(const UserSession *)`: the same, at the
session's own `locate`. -/
def leaveOutRoom (this : BoardPtr) (user : SessionId) (w : World) :
    Option World := do
  let s ← w.users user
  some (w.modifyBoard this fun board => (board.leaveOutRoom s.locate).2)

/-! ## Statuses -/

/-- Does the session at a seat exist and satisfy a test of its status? -/
def World.seatStatus (w : World) (user : Option SessionId)
    (test : UserGameStatus → Bool) : Option Bool :=
  match user with
  | none => some false
  | some u => (w.users u).map fun s => test s.status

/-- How many of the three seats pass a test of their user's status. -/
def World.countSeats (w : World) (this : BoardPtr)
    (test : UserGameStatus → Bool) : Option Nat := do
  let left ← w.seatStatus (w.boards this).leftUser test
  let right ← w.seatStatus (w.boards this).rightUser test
  let bottom ← w.seatStatus (w.boards this).bottomUser test
  some (left.toNat + right.toNat + bottom.toNat)

/-- `ChessBoard::GetActiveUsersNum`. -/
def getActiveUsersNum (this : BoardPtr) (w : World) : Option Nat :=
  w.countSeats this (· == .playing)

/-- `ChessBoard::GetOnlyActiveUser`. -/
def getOnlyActiveUser (this : BoardPtr) (w : World) :
    Option (Option SessionId) := do
  let board := w.boards this
  let left ← w.seatStatus board.leftUser (· == .playing)
  let right ← w.seatStatus board.rightUser (· == .playing)
  let bottom ← w.seatStatus board.bottomUser (· == .playing)
  let user := if left then board.leftUser else none
  let user := if right then board.rightUser else user
  let user := if bottom then board.bottomUser else user
  some (if left.toNat + right.toNat + bottom.toNat = 1 then user else none)

/-- `ChessBoard::GameBegan`. -/
def gameBegan (this : BoardPtr) (w : World) : Option Bool := do
  let num ← w.countSeats this (fun status =>
    decide (UserGameStatus.began.code < status.code))
  some (decide (0 < num))

/-- Assign `status` of the user at a seat, if there is one. -/
def World.setSeatStatus (user : Option SessionId) (status : UserGameStatus)
    (w : World) : Option World :=
  match user with
  | none => some w
  | some u => w.modifyUser u fun s => { s with status := status }

/-- The three assignments `if (user != NULL) user->status = STATUS_ENDED`. -/
def endAllUsers (this : BoardPtr) (w : World) : Option World := do
  let w ← w.setSeatStatus (w.boards this).leftUser .ended
  let w ← w.setSeatStatus (w.boards this).rightUser .ended
  w.setSeatStatus (w.boards this).bottomUser .ended

/-! ## Snapshots and broadcasts -/

/-- One of the three entries that `WrapChessBoardInfo` fills. -/
def World.wrapUser (w : World) (user : Option SessionId) :
    Option ChessBoardUser :=
  match user with
  | none => some { chessBoardEmpty := true }
  | some u => (w.users u).map fun s =>
      { chessBoardEmpty := false
        account := some s.userInfo.account
        userName := some s.userInfo.userName
        score := some s.userInfo.score
        status := some s.status
        headImage := some s.userInfo.headPhoto }

/-- `ChessBoard::WrapChessBoardInfo`. -/
def wrapChessBoardInfo (this : BoardPtr) (w : World) :
    Option ChessBoardInfo := do
  let board := w.boards this
  let left ← w.wrapUser board.leftUser
  let right ← w.wrapUser board.rightUser
  let bottom ← w.wrapUser board.bottomUser
  some
    { id := board.chessBoardID
      peopleNum := board.currUserNum
      leftUser := left
      rightUser := right
      bottomUser := bottom }

/-- The three seats in the order of the broadcast loops. -/
def locations : List Location :=
  [locationLeft, locationRight, locationBottom]

/-- `ChessBoard::BroadCastMsg`. -/
def broadCastMsg (env : Env) (this : BoardPtr) (type : MessageType)
    (body : Payload) (locateFilter : UInt32) (w : World) : Option World :=
  locations.foldlM (fun w locate =>
    if locate ≠ locateFilter then
      match (w.boards this).getUserByLocation locate with
      | some user => (messageReply env user type body w).map Prod.snd
      | none => some w
    else some w) w

/-- The loop body of `WrapHallInfo` for the board with id `j`. -/
def wrapHallBoard (hall : UInt32) (acc : List ChessBoardInfo × World)
    (j : UInt32) : Option (List ChessBoardInfo × World) :=
  let (chessBoard, w) := acc.2.getChessBoardByID hall j
  match chessBoard with
  | some b => do
      let info ← wrapChessBoardInfo b w
      some (acc.1 ++ [info], w)
  | none => some (acc.1, w)

/-- The ids `1 .. num`. -/
def idsUpTo (num : UInt32) : List UInt32 :=
  (List.range num.toNat).map fun i => (i + 1).toUInt32

/-- `State::WrapHallInfo`; `none` inside the result is its `false`. -/
def wrapHallInfo (hallId : UInt32) (w : World) :
    Option (Option HallInfo × World) :=
  match getGameHall hallId with
  | none => some (none, w)
  | some hall => do
      let total := (w.halls hall).getExpectedTotalPeopleNum
      let curr := w.getCurrentPeopleNum hall
      let (boards, w) ←
        (idsUpTo chessBoardMaxNum).foldlM (wrapHallBoard hall) ([], w)
      some (some
        { gameHallId := hallId
          totalPeople := total
          currPeople := curr
          totalChessboard := some chessBoardMaxNum
          chessBoard := boards }, w)

/-- The entry `GameHallSumaryHandle` adds for one hall. -/
def World.sumaryHallInfo (w : World) (hall : UInt32) : HallInfo :=
  { gameHallId := hall
    totalPeople := (w.halls hall).getExpectedTotalPeopleNum
    currPeople := w.getCurrentPeopleNum hall
    totalChessboard := some chessBoardMaxNum
    chessBoard := [] }

/-- `State::GameHallSumaryHandle` of the state object of session `u`. -/
def gameHallSumaryHandle (env : Env) (u : SessionId) (w : World) :
    Option (Bool × World) := do
  let s ← w.users u
  let sumary : GameHallSumary :=
    { account := s.userInfo.account
      username := s.userInfo.userName
      score := s.userInfo.score
      hallNum := gameHallMaxNum
      headPicture := lit "Unknown head_picture"
      adPicture1 := lit "Unknown ad_picture1"
      hallInfo := (idsUpTo gameHallMaxNum).map w.sumaryHallInfo }
  let (_, w) ← messageReply env u .gameHallSumary (.gameHallSumary sumary) w
  some (true, w)

/-- The loop body of `BroadCastHallInfo` for one registered session. -/
def sendHallInfo (env : Env) (data : Payload) (w : World) (u : SessionId) :
    Option World := do
  let s ← w.users u
  match s.stateMachine with
  | some .gameReady | some .gamePlay => do
      let (_, w) ← messageReply env u .hallInfo data w
      let (_, w) ← gameHallSumaryHandle env u w
      some w
  | _ => some w

/-- `ChessBoard::BroadCastHallInfo`. -/
def broadCastHallInfo (env : Env) (this : BoardPtr) (user : SessionId)
    (w : World) : Option World := do
  let s ← w.users user
  let _ ← s.stateMachine
  let (info, w) ← wrapHallInfo (w.boards this).currentHall w
  let data := match info with
    | some info => Payload.hallInfo info
    | none => .forward []
  (w.fdSessionMap.toList.map Prod.snd).foldlM (sendHallInfo env data) w

end ChessServer
