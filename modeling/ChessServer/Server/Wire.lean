import ChessServer.Lib.Wire
import ChessServer.Server.World

/-!
# The messages on the wire

The field numbers of `message.proto`, as an instance of `Protobuf`.  The
model only assumes the interface; where a run is followed byte by byte, this
is the library it uses.
-/

namespace ChessServer

open Wire

/-! ## What the server sends -/

/-- `ChessBoardUser`. -/
def ChessBoardUser.fields (m : ChessBoardUser) : List Field :=
  [(1, ofBool m.chessBoardEmpty)] ++ optional 2 .bytes m.userName ++
    optional 3 .bytes m.account ++ optional 4 ofInt32 m.score ++
    optional 5 .bytes m.exEmail ++ optional 6 .bytes m.phone ++
    optional 7 .bytes m.headImage ++
    optional 8 (fun status => .varint status.code) m.status

/-- `ImageVersion`. -/
def ImageVersion.fields (m : ImageVersion) : List Field :=
  [(1, .bytes m.serverVersion), (2, ofBool m.mandatoryUpdate)]

/-- `ChessBoardInfo`. -/
def ChessBoardInfo.fields (m : ChessBoardInfo) : List Field :=
  [ (1, ofUInt32 m.id), (2, ofUInt32 m.peopleNum)
  , (3, .bytes (encode m.leftUser.fields))
  , (4, .bytes (encode m.rightUser.fields))
  , (5, .bytes (encode m.bottomUser.fields)) ]

/-- `HallInfo`. -/
def HallInfo.fields (m : HallInfo) : List Field :=
  [ (1, ofInt32 m.gameHallId), (2, ofUInt32 m.totalPeople)
  , (3, ofUInt32 m.currPeople) ] ++
    optional 4 ofUInt32 m.totalChessboard ++
    m.chessBoard.map fun board => (5, .bytes (encode board.fields))

/-- `MoveChess`. -/
def MoveChess.fields (m : MoveChess) : List Field :=
  [ (1, ofInt32 m.srcChessType.toUInt32), (2, ofInt32 m.srcUserLocate.toUInt32)
  , (3, ofInt32 m.fromPointX.toUInt32), (4, ofInt32 m.fromPointY.toUInt32)
  , (5, ofInt32 m.desPointX.toUInt32), (6, ofInt32 m.desPointY.toUInt32)
  , (7, ofBool m.isWinner) ] ++
    optional 8 (fun n => ofInt32 n.toUInt32) m.eatTargetChessType ++
    optional 9 ofUInt32 m.targetUserLocate

/-- The fields of a message the server builds. -/
def Payload.fields : Payload → List Field
  | .forward _ => []
  | .echo m => optional 1 .bytes m.timeStamp
  | .replyStatus m =>
      [(1, ofUInt32 m.status)] ++
        optional 2 (fun user => .bytes (encode user.fields)) m.user ++
        optional 3 (fun version => .bytes (encode version.fields)) m.versionInfo
  | .chessBoardInfo m => m.fields
  | .hallInfo m => m.fields
  | .gameHallSumary m =>
      [ (1, .bytes m.account), (2, .bytes m.username), (3, ofInt32 m.score)
      , (4, ofUInt32 m.hallNum), (5, .bytes m.headPicture)
      , (6, .bytes m.adPicture1) ] ++
        m.hallInfo.map fun hall => (8, .bytes (encode hall.fields))
  | .requestPlayReply m =>
      [ (1, ofInt32 m.status.toUInt32), (2, ofUInt32 m.firstComeUserLocate) ] ++
        optional 3 (fun board => .bytes (encode board.fields)) m.chessBoard
  | .moveAction m =>
      [ (1, ofUInt32 m.srcUserLocate)
      , (2, .bytes (encode m.movechess.fields ++ m.movechess.unknownFields)) ] ++
        optional 3 ofUInt32 m.tokenLocate
  | .giveUp m => [(1, ofUInt32 m.srcUserLocate)] ++ optional 2 .bytes m.opt
  | .gameStatusReply m =>
      [ (1, ofBool m.leftUserStatus), (2, ofBool m.rightUserStatus)
      , (3, ofBool m.bottomUserStatus), (4, ofUInt32 m.tokenLocate)
      , (5, ofUInt32 m.totalTime), (6, ofUInt32 m.singleStepTime) ]
  | .adPictureItemReply m =>
      [(1, ofUInt32 m.imageId), (2, ofBool m.existed)] ++
        optional 3 .bytes m.imageType ++ optional 4 .bytes m.imageName ++
        optional 5 .bytes m.imageHashcode ++ optional 6 .bytes m.url ++
        optional 7 ofUInt32 m.imageSize
  | .adPictureContentReply m =>
      [(1, ofBool m.ended)] ++ optional 2 .bytes m.content

/-- The fields that follow these: those of an object that was parsed. -/
def Payload.unknownFields : Payload → Bytes
  | .echo m => m.unknownFields
  | _ => []

/-! ## What a client sends -/

/-- The generated parsers and serialisers. -/
def wireProtobuf : Protobuf where
  echo data :=
    let fields := (decode data).getD []
    ⟨bytes? fields 1, unknown fields [1]⟩
  logOnorOut data := do
    let fields ← decode data
    some ⟨← bytes? fields 1, ← bytes? fields 2⟩
  register data := do
    let fields ← decode data
    some ⟨← bytes? fields 1, ← bytes? fields 2, bytes? fields 3⟩
  findPassword data := do
    let fields ← decode data
    some ⟨← bytes? fields 1, bytes? fields 2⟩
  chessBoardInfoReq data := do
    let fields ← decode data
    some ⟨← int32? fields 1, int32? fields 2⟩
  hallInfoReq data := do
    let fields ← decode data
    some ⟨← int32? fields 1, int32? fields 2⟩
  requestPlay data := do
    let fields ← decode data
    some ⟨← int32? fields 1, ← int32? fields 2, ← int32? fields 3⟩
  moveChess data := do
    let fields ← decode data
    some
      { srcChessType := ← int32? fields 1
        srcUserLocate := ← int32? fields 2
        fromPointX := ← int32? fields 3
        fromPointY := ← int32? fields 4
        desPointX := ← int32? fields 5
        desPointY := ← int32? fields 6
        isWinner := ← bool? fields 7
        eatTargetChessType := int32? fields 8
        targetUserLocate := uint32? fields 9
        unknownFields := unknown fields [1, 2, 3, 4, 5, 6, 7, 8, 9] }
  userMessage data := do
    let fields ← decode data
    some ⟨← uint32? fields 1, ← bytes? fields 2⟩
  reconciled data := do
    let fields ← decode data
    some ⟨← uint32? fields 1, ← uint32? fields 2, ← uint32? fields 3,
      bytes? fields 4⟩
  giveUp data := do
    let fields ← decode data
    some ⟨← uint32? fields 1, bytes? fields 2⟩
  undo data := do
    let fields ← decode data
    some ⟨← uint32? fields 1, ← uint32? fields 2, ← uint32? fields 3,
      bool? fields 4⟩
  gameReadyReq data := do
    let fields ← decode data
    some ⟨← uint32? fields 1, uint32? fields 2, uint32? fields 3,
      uint32? fields 4⟩
  updateUserInfo data := do
    let fields ← decode data
    some ⟨← bytes? fields 1, ← bytes? fields 2, ← bytes? fields 3,
      bytes? fields 4, bytes? fields 5, bytes? fields 6⟩
  adPictureReq data := do
    let fields ← decode data
    some ⟨← uint32? fields 1, ← uint32? fields 2, bool? fields 3⟩
  serialize body := encode body.fields ++ body.unknownFields

end ChessServer
