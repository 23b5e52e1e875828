import ChessServer.Lib.ProtocolBuffers

/-!
# The generated classes of `message.proto`

The fields of each class of `message.pb.cpp`.
-/

namespace ChessServer

open ProtocolBuffers

/-! ## Fields -/

abbrev Echo.desc : Desc := .optional 1 .bytes .nil

abbrev LogOnorOut.desc : Desc := .required 1 .bytes <| .required 2 .bytes .nil

abbrev ImageVersion.desc : Desc := .required 1 .bytes <| .required 2 .bool .nil

abbrev Register.desc : Desc :=
  .required 1 .bytes <| .required 2 .bytes <| .optional 3 .bytes .nil

abbrev ChessBoardUser.desc : Desc :=
  .required 1 .bool <| .optional 2 .bytes <| .optional 3 .bytes <|
    .optional 4 .int32 <| .optional 5 .bytes <| .optional 6 .bytes <|
    .optional 7 .bytes <| .optional 8 .uint32 .nil

abbrev ReplyStatus.desc : Desc :=
  .required 1 .uint32 <| .message 2 .optional ChessBoardUser.desc <|
    .message 3 .optional ImageVersion.desc .nil

abbrev ChessBoardInfoReq.desc : Desc :=
  .required 1 .int32 <| .optional 2 .int32 .nil

abbrev ChessBoardInfo.desc : Desc :=
  .required 1 .uint32 <| .required 2 .uint32 <|
    .message 3 .required ChessBoardUser.desc <|
    .message 4 .required ChessBoardUser.desc <|
    .message 5 .required ChessBoardUser.desc .nil

abbrev HallInfoReq.desc : Desc := .required 1 .int32 <| .optional 2 .int32 .nil

abbrev HallInfo.desc : Desc :=
  .required 1 .int32 <| .required 2 .uint32 <| .required 3 .uint32 <|
    .optional 4 .uint32 <| .message 5 .repeated ChessBoardInfo.desc .nil

abbrev GameHallSumaryReq.desc : Desc := .optional 1 .int32 .nil

abbrev GameHallSumary.desc : Desc :=
  .required 1 .bytes <| .required 2 .bytes <| .required 3 .int32 <|
    .required 4 .uint32 <| .required 5 .bytes <| .required 6 .bytes <|
    .optional 7 .bytes <| .message 8 .repeated HallInfo.desc .nil

abbrev RequestPlay.desc : Desc :=
  .required 1 .int32 <| .required 2 .int32 <| .required 3 .int32 .nil

abbrev RequestPlayReply.desc : Desc :=
  .required 1 .int32 <| .required 2 .uint32 <|
    .message 3 .optional ChessBoardInfo.desc .nil

abbrev MoveChess.desc : Desc :=
  .required 1 .int32 <| .required 2 .int32 <| .required 3 .int32 <|
    .required 4 .int32 <| .required 5 .int32 <| .required 6 .int32 <|
    .required 7 .bool <| .optional 8 .int32 <| .optional 9 .uint32 .nil

abbrev MoveAction.desc : Desc :=
  .required 1 .uint32 <| .message 2 .required MoveChess.desc <|
    .required 3 .uint32 .nil

abbrev UserMessage.desc : Desc :=
  .required 1 .uint32 <| .required 2 .bytes .nil

abbrev SystemMessage.desc : Desc := .required 1 .bytes .nil

abbrev Reconciled.desc : Desc :=
  .required 1 .uint32 <| .required 2 .uint32 <| .required 3 .uint32 <|
    .optional 4 .bytes .nil

abbrev GiveUp.desc : Desc := .required 1 .uint32 <| .optional 2 .bytes .nil

abbrev Undo.desc : Desc :=
  .required 1 .uint32 <| .required 2 .uint32 <| .required 3 .uint32 <|
    .optional 4 .bool .nil

abbrev GameReadyReq.desc : Desc :=
  .required 1 .uint32 <| .optional 2 .uint32 <| .optional 3 .uint32 <|
    .optional 4 .uint32 .nil

abbrev GameStatusReply.desc : Desc :=
  .required 1 .bool <| .required 2 .bool <| .required 3 .bool <|
    .required 4 .uint32 <| .required 5 .uint32 <| .required 6 .uint32 .nil

abbrev FindPassword.desc : Desc :=
  .required 1 .bytes <| .optional 2 .bytes .nil

abbrev UpdateUserInfo.desc : Desc :=
  .required 1 .bytes <| .required 2 .bytes <| .required 3 .bytes <|
    .optional 4 .bytes <| .optional 5 .bytes <| .optional 6 .bytes .nil

abbrev AdPictureItemReply.desc : Desc :=
  .required 1 .uint32 <| .required 2 .bool <| .optional 3 .bytes <|
    .optional 4 .bytes <| .optional 5 .bytes <| .optional 6 .bytes <|
    .optional 7 .uint32 .nil

abbrev AdPictureReq.desc : Desc :=
  .required 1 .uint32 <| .required 2 .uint32 <| .optional 3 .bool .nil

abbrev AdPictureContentReply.desc : Desc :=
  .required 1 .bool <| .optional 2 .bytes .nil

/-- All of the classes, in the order of the file. -/
def messageDescs : List Desc :=
  [ Echo.desc, LogOnorOut.desc, ImageVersion.desc, ReplyStatus.desc
  , Register.desc, ChessBoardUser.desc, ChessBoardInfoReq.desc
  , ChessBoardInfo.desc, HallInfoReq.desc, HallInfo.desc
  , GameHallSumaryReq.desc, GameHallSumary.desc, RequestPlay.desc
  , RequestPlayReply.desc, MoveChess.desc, MoveAction.desc, UserMessage.desc
  , SystemMessage.desc, Reconciled.desc, GiveUp.desc, Undo.desc
  , GameReadyReq.desc, GameStatusReply.desc, FindPassword.desc
  , UpdateUserInfo.desc, AdPictureItemReply.desc, AdPictureReq.desc
  , AdPictureContentReply.desc ]

end ChessServer
