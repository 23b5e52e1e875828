import ChessServer.Server.Types

/-!
# Protocol messages

The messages of `message.proto`, one structure each: a `required` field is
a plain field, an `optional` one an `Option`, and the accessor of an absent
optional field returns the default value of its type, as the generated code
does.  Parsing and serialising belong to libprotobuf, which is not part of
the repository; `Protobuf` is its interface.  Where an object that was parsed
is sent on, it carries the fields that its class does not know, as the bytes
that they are written back as.
-/

namespace ChessServer

/-! ## Messages a client sends -/

structure Echo where
  timeStamp : Option Bytes
  unknownFields : Bytes := []
  deriving DecidableEq

structure LogOnorOut where
  account : Bytes
  password : Bytes
  deriving DecidableEq

structure Register where
  emailAccount : Bytes
  password : Bytes
  username : Option Bytes
  deriving DecidableEq

structure FindPassword where
  email : Bytes
  opt : Option Bytes
  deriving DecidableEq

structure ChessBoardInfoReq where
  chessBoardId : Int32
  opcode : Option Int32
  deriving DecidableEq

structure HallInfoReq where
  gameHallId : Int32
  opcode : Option Int32
  deriving DecidableEq

structure RequestPlay where
  gameHallId : Int32
  chessBoardId : Int32
  locate : Int32
  deriving DecidableEq

structure MoveChess where
  srcChessType : Int32
  srcUserLocate : Int32
  fromPointX : Int32
  fromPointY : Int32
  desPointX : Int32
  desPointY : Int32
  isWinner : Bool
  eatTargetChessType : Option Int32
  targetUserLocate : Option UInt32
  unknownFields : Bytes := []
  deriving DecidableEq

/-- `(Location)moveChess.src_user_locate()`. -/
def MoveChess.srcLocate (m : MoveChess) : Location :=
  m.srcUserLocate.toUInt32

/-- `(Location)moveChess.target_user_locate()`: an absent field reads `0`,
which is `LOCATION_LEFT`. -/
def MoveChess.targetLocate (m : MoveChess) : Location :=
  m.targetUserLocate.getD 0

structure UserMessage where
  srcUserLocate : UInt32
  msgContent : Bytes
  deriving DecidableEq

structure Reconciled where
  applyOrReply : UInt32
  srcUserLocate : UInt32
  tarUserLocate : UInt32
  status : Option Bytes
  deriving DecidableEq

structure GiveUp where
  srcUserLocate : UInt32
  opt : Option Bytes
  deriving DecidableEq

structure Undo where
  repOrRespon : UInt32
  srcUserLocate : UInt32
  tarUserLocate : UInt32
  status : Option Bool
  deriving DecidableEq

structure GameReadyReq where
  srcUserLocate : UInt32
  opcode : Option UInt32
  totalTime : Option UInt32
  singleStepTime : Option UInt32
  deriving DecidableEq

structure UpdateUserInfo where
  userName : Bytes
  account : Bytes
  password : Bytes
  exEmail : Option Bytes
  phone : Option Bytes
  headImage : Option Bytes
  deriving DecidableEq

structure AdPictureReq where
  imageId : UInt32
  reqType : UInt32
  lastOne : Option Bool
  deriving DecidableEq

/-! ## Messages the server sends -/

/-- `ChessBoardUser`, as `WrapChessBoardInfo` and `HandleLogin` fill it. -/
structure ChessBoardUser where
  chessBoardEmpty : Bool
  userName : Option Bytes := none
  account : Option Bytes := none
  score : Option UInt32 := none
  exEmail : Option Bytes := none
  phone : Option Bytes := none
  headImage : Option Bytes := none
  status : Option UserGameStatus := none
  deriving DecidableEq

structure ImageVersion where
  serverVersion : Bytes
  mandatoryUpdate : Bool
  deriving DecidableEq

structure ReplyStatus where
  status : UInt32
  user : Option ChessBoardUser := none
  versionInfo : Option ImageVersion := none
  deriving DecidableEq

structure ChessBoardInfo where
  id : UInt32
  peopleNum : UInt32
  leftUser : ChessBoardUser
  rightUser : ChessBoardUser
  bottomUser : ChessBoardUser
  deriving DecidableEq

structure HallInfo where
  gameHallId : UInt32
  totalPeople : UInt32
  currPeople : UInt32
  totalChessboard : Option UInt32
  chessBoard : List ChessBoardInfo
  deriving DecidableEq

structure GameHallSumary where
  account : Bytes
  username : Bytes
  score : UInt32
  hallNum : UInt32
  headPicture : Bytes
  adPicture1 : Bytes
  hallInfo : List HallInfo
  deriving DecidableEq

structure RequestPlayReply where
  status : Int32
  firstComeUserLocate : UInt32
  chessBoard : Option ChessBoardInfo := none
  deriving DecidableEq

/-- `MoveAction`; `token_locate` is required but `MoveChessHandle` leaves it
unset when the mover's own `locate` is no chair. -/
structure MoveAction where
  srcUserLocate : UInt32
  movechess : MoveChess
  tokenLocate : Option UInt32
  deriving DecidableEq

structure GameStatusReply where
  leftUserStatus : Bool
  rightUserStatus : Bool
  bottomUserStatus : Bool
  tokenLocate : UInt32
  totalTime : UInt32
  singleStepTime : UInt32
  deriving DecidableEq

structure AdPictureItemReply where
  imageId : UInt32
  existed : Bool
  imageType : Option Bytes := none
  imageName : Option Bytes := none
  imageHashcode : Option Bytes := none
  url : Option Bytes := none
  imageSize : Option UInt32 := none
  deriving DecidableEq

structure AdPictureContentReply where
  ended : Bool
  content : Option Bytes := none
  deriving DecidableEq

/-- What `OnWrite` is asked to send: a message still to be serialised, or
the bytes of a client's message passed on unchanged. -/
inductive Payload where
  | forward (msg : Bytes)
  | echo (m : Echo)
  | replyStatus (m : ReplyStatus)
  | chessBoardInfo (m : ChessBoardInfo)
  | hallInfo (m : HallInfo)
  | gameHallSumary (m : GameHallSumary)
  | requestPlayReply (m : RequestPlayReply)
  | moveAction (m : MoveAction)
  | giveUp (m : GiveUp)
  | gameStatusReply (m : GameStatusReply)
  | adPictureItemReply (m : AdPictureItemReply)
  | adPictureContentReply (m : AdPictureContentReply)
  deriving DecidableEq

/-! ## libprotobuf -/

/-- The generated `ParseFromString` of every message a client sends, `none`
for a `false` result, and `SerializeToString`.  Of an `Echo` it is the object
that is used, whatever the result. -/
structure Protobuf where
  echo : Bytes → Echo
  logOnorOut : Bytes → Option LogOnorOut
  register : Bytes → Option Register
  findPassword : Bytes → Option FindPassword
  chessBoardInfoReq : Bytes → Option ChessBoardInfoReq
  hallInfoReq : Bytes → Option HallInfoReq
  requestPlay : Bytes → Option RequestPlay
  moveChess : Bytes → Option MoveChess
  userMessage : Bytes → Option UserMessage
  reconciled : Bytes → Option Reconciled
  giveUp : Bytes → Option GiveUp
  undo : Bytes → Option Undo
  gameReadyReq : Bytes → Option GameReadyReq
  updateUserInfo : Bytes → Option UpdateUserInfo
  adPictureReq : Bytes → Option AdPictureReq
  serialize : Payload → Bytes

end ChessServer
