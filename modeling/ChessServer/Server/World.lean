import Mathlib.Tactic.Linarith
import Mathlib.Logic.Function.Basic
import ChessServer.Server.Messages

/-!
# The memory of the server

Sessions and boards live at addresses and refer to each other by them, as
the C++ objects do; `none` is `NULL`.  A handler is a function on `World`
with values in `Option`: it returns `none` where the source dereferences a
null pointer or a deleted session, that is, where the process dies.

The server runs one worker thread (`CreateWorkTheads(1)`), so the world has
one `fdSessionMap`.
-/

namespace ChessServer

/-! ## Objects -/

/-- The address of a `UserSession`. -/
abbrev SessionId := Nat

/-- The address of a `ChessBoard`.  A hall constructs at most one board for
an id and keeps it until the process ends, so the pair serves as address. -/
structure BoardPtr where
  hall : UInt32
  id : UInt32
  deriving DecidableEq, Repr

/-- `UsersInfo`. -/
structure UsersInfo where
  account : Bytes := []
  password : Bytes := []
  score : UInt32 := 0
  email : Bytes := []
  headPhoto : Bytes := []
  userName : Bytes := []
  phone : Bytes := []
  deriving DecidableEq

/-- `ReadBufInfo`: the header of the frame being received. -/
structure ReadBufInfo where
  totalSize : UInt32 := 0
  msgType : UInt32 := 0
  gotHead : Bool := false
  deriving DecidableEq

/-- `UserSession`.  `thread` is an index into `threadList`; `stateMachine`
and `nextState` carry the type of the state object they point to; `adImgFp`
holds the bytes still to be read from the open file; `bufev` holds the
undrained bytes of the input buffer.  `buf_size` is `World.bufSize`. -/
structure UserSession where
  clifd : Int := -1
  thread : Option Nat := none
  locate : Location := locationLeft
  currChessBoard : Option BoardPtr := none
  stateMachine : Option StateType := none
  nextState : Option StateType := none
  userInfo : UsersInfo := {}
  status : UserGameStatus := .notStart
  adImgFp : Option Bytes := none
  bufev : Option Bytes := none
  bufInfo : ReadBufInfo := {}
  deriving DecidableEq

/-- `ChessBoard`; `currentHall` is the hall's id. -/
structure ChessBoard where
  leftUser : Option SessionId := none
  rightUser : Option SessionId := none
  bottomUser : Option SessionId := none
  chessBoardID : UInt32
  currentHall : UInt32
  currUserNum : UInt32 := 0
  firstComeUserLocate : UInt32 := locationMax
  totalTime : UInt32 := 0
  singleStepTime : UInt32 := 0
  recentWinnerLocate : Location := locationMax
  recentLoserLocate : Location := locationMax
  deriving DecidableEq

/-- `GameHall`. -/
structure GameHall where
  gameHallID : UInt32
  chessBoardMaxNum : UInt32
  chessBoardInfo : Std.TreeMap UInt32 BoardPtr := {}

/-- One call of `bufferevent_write`. -/
structure Sent where
  user : SessionId
  type : MessageType
  body : Payload
  deriving DecidableEq

/-- `MainThread::gameHallMaxNum`. -/
def gameHallMaxNum : UInt32 := 5

/-- `MainThread::chessBoardMaxNum`. -/
def chessBoardMaxNum : UInt32 := 60

/-- `MainThread::connectionMaxStep`. -/
def connectionMaxStep : Nat := 10

/-- Everything the worker and the main thread own.  `sent`, `sqlLog` and
`findPwd` record, newest first, what was handed to libevent, to MySQL and to
`FindPwdViaEmail`. -/
structure World where
  users : SessionId → Option UserSession
  nextUser : SessionId
  boards : BoardPtr → ChessBoard
  halls : UInt32 → GameHall
  fdSessionMap : Std.TreeMap Int SessionId
  sessionList : List SessionId
  bufSize : SessionId → Nat
  sent : List Sent
  sqlLog : List Bytes
  findPwd : List Bytes

/-- The state after `MainThread::MainThread` and `CreateWorkTheads(1)`. -/
def World.init : World where
  users := fun _ => none
  nextUser := 0
  boards := fun p => { chessBoardID := p.id, currentHall := p.hall }
  halls := fun id => { gameHallID := id, chessBoardMaxNum := chessBoardMaxNum }
  fdSessionMap := {}
  sessionList := []
  bufSize := fun _ => 0
  sent := []
  sqlLog := []
  findPwd := []

/-! ## The outside world -/

/-- A row of `users_info` without `head_photo`; `score` is what `atoi` makes
of the column's text. -/
structure UserRow where
  account : Bytes
  password : Bytes
  email : Option Bytes
  score : Option Int32
  userName : Option Bytes
  phone : Option Bytes
  deriving DecidableEq

/-- A row of `ad_pictures`. -/
structure AdRow where
  id : Int32
  existed : Int32
  imageName : Option Bytes
  imageType : Option Bytes
  imageHashcode : Option Bytes
  imageSize : Option Int32
  linkUrl : Option Bytes
  locatePath : Option Bytes
  deriving DecidableEq

/-- A row of `image_version` as `GetImageVersionInfoFromDB` selects it. -/
structure VersionRow where
  version : Option Bytes
  mandatoryUpdate : Int32
  info : Option Bytes
  locatePath : Option Bytes
  deriving DecidableEq

/-- What MySQL answers to one statement, after the reconnects of
`mysql_db_excute`. -/
inductive SqlReply where
  | error
  | done
  | users (rows : List UserRow)
  | photos (rows : List (Option Bytes))
  | ads (rows : List AdRow)
  | versions (rows : List VersionRow)
  deriving DecidableEq

/-- What the process sees of its surroundings: libprotobuf, a database whose
answer may depend on every statement it was sent so far (newest first), the
files that `fopen` opens, and `mysql_real_escape_string`. -/
structure Env where
  proto : Protobuf
  mysql : List Bytes → SqlReply
  fopen : Bytes → Option Bytes
  mysqlRealEscapeString : Bytes → Bytes

/-! ## Access -/

/-- The chair's pointer on a board. -/
def ChessBoard.seat (board : ChessBoard) : Seat → Option SessionId
  | .left => board.leftUser
  | .right => board.rightUser
  | .bottom => board.bottomUser

/-- Assign the chair's pointer. -/
def ChessBoard.setSeat (board : ChessBoard) (seat : Seat)
    (user : Option SessionId) : ChessBoard :=
  match seat with
  | .left => { board with leftUser := user }
  | .right => { board with rightUser := user }
  | .bottom => { board with bottomUser := user }

/-- Overwrite the object at an address. -/
def World.setUser (w : World) (u : SessionId) (s : UserSession) : World :=
  { w with users := Function.update w.users u (some s) }

/-- Assign fields of a session; the access fails on a deleted one. -/
def World.modifyUser (w : World) (u : SessionId)
    (f : UserSession → UserSession) : Option World :=
  (w.users u).map fun s => w.setUser u (f s)

/-- Assign fields of a board. -/
def World.modifyBoard (w : World) (b : BoardPtr)
    (f : ChessBoard → ChessBoard) : World :=
  { w with boards := Function.update w.boards b (f (w.boards b)) }

end ChessServer
