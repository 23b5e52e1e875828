import ChessServer.Server.Game

/-!
# The state objects

`State` and its four subclasses.  A state object knows one thing besides its
type, the session it belongs to (`stateMachine` in the source, `u` here).
Each `MsgHandle` returns the flag on which the connection is kept open.
-/

namespace ChessServer

/-- `UserSession::SetNextState(new ...)`. -/
def setNextState (u : SessionId) (state : StateType) (w : World) :
    Option World :=
  w.modifyUser u fun s => { s with nextState := some state }

/-! ## State -/

/-- `State::EchoMsgHandle`: the object that was parsed is sent back. -/
def echoMsgHandle (env : Env) (u : SessionId) (msg : Bytes) (w : World) :
    Option (Bool × World) := do
  let echo := env.proto.echo msg
  let (_, w) ← messageReply env u .echo
    (.echo { echo with timeStamp := some (lit "Echo Reply from Server") }) w
  some (true, w)

/-- `State::HallInfoReqHandle`. -/
def hallInfoReqHandle (env : Env) (u : SessionId) (msg : Bytes) (w : World) :
    Option (Bool × World) :=
  match env.proto.hallInfoReq msg with
  | none => some (true, w)
  | some req => do
      let (info, w) ← wrapHallInfo req.gameHallId.toUInt32 w
      match info with
      | some info => do
          let (_, w) ← messageReply env u .hallInfo (.hallInfo info) w
          some (true, w)
      | none => some (true, w)

/-- One field of `UpdateUserInfos`, given the value to store if there is one:
memory first, then the database, whose result is ignored. -/
def updateField (u : SessionId) (value : Option Bytes)
    (set : Bytes → UsersInfo → UsersInfo)
    (toDB : Bytes → Bytes → World → Bool × World) (w : World) :
    Option World :=
  match value with
  | none => some w
  | some value => do
      let s ← w.users u
      let _ ← s.thread
      let w := w.setUser u { s with userInfo := set value s.userInfo }
      some (toDB s.userInfo.account value w).2

/-- `State::UpdateUserInfos`. -/
def updateUserInfos (env : Env) (u : SessionId) (msg : Bytes) (w : World) :
    Option (Bool × World) :=
  match env.proto.updateUserInfo msg with
  | none => some (true, w)
  | some info => do
      let s ← w.users u
      let old := s.userInfo
      let w ← updateField u
        ((some info.userName).filter fun name => name != old.userName)
        (fun name i => { i with userName := name }) (updateUserNameToDB env) w
      let w ← updateField u
        ((some info.password).filter fun pswd => pswd != old.password)
        (fun pswd i => { i with password := pswd })
        (updateUserPasswordToDB env) w
      let w ← updateField u (info.exEmail.filter fun email => email != old.email)
        (fun email i => { i with email := email }) (updateUserEmailToDB env) w
      let w ← updateField u (info.phone.filter fun phone => phone != old.phone)
        (fun phone i => { i with phone := phone }) (updateUserPhoneToDB env) w
      let w ← updateField u
        (info.headImage.filter fun image => decide (0 < image.length))
        (fun image i => { i with headPhoto := image }) (updateHeadImageToDB env) w
      some (true, w)

/-! ## StateAuth -/

/-- `StateAuth::HandleRegister`. -/
def handleRegister (env : Env) (u : SessionId) (msg : Bytes) (w : World) :
    Option (Bool × World) :=
  match env.proto.register msg with
  | none => some (true, w)
  | some info => do
      let s ← w.users u
      let _ ← s.thread
      let (ok, w) := insertUsersInfoToDB env
        { account := info.emailAccount
          password := info.password
          score := 100
          email := info.emailAccount
          userName := lit "新手" } w
      let (_, w) ← messageReply env u .registerReply
        (.replyStatus { status := if ok then 1 else 0 }) w
      some (true, w)

/-- `WorkThread::GetIndividualUser`: no registered session has this
account. -/
def getIndividualUser (account : Bytes) (w : World) : Option Bool := do
  let found ← (w.fdSessionMap.toList.map Prod.snd).foldlM (fun found v =>
    if found then some true
    else (w.users v).map fun s => s.userInfo.account == account) false
  some (!found)

/-- The branch of `HandleLogin` for a correct password. -/
def loginAccepted (env : Env) (u : SessionId) (w : World) :
    Option (ReplyStatus × World) := do
  let s ← w.users u
  let (_, photo, w) := getHeadImageFromDB env s.userInfo.account
    s.userInfo.headPhoto w
  let w ← w.modifyUser u fun s =>
    { s with userInfo := { s.userInfo with headPhoto := photo } }
  let s ← w.users u
  let user : ChessBoardUser :=
    { chessBoardEmpty := false
      account := some s.userInfo.account
      userName := some s.userInfo.userName
      score := some s.userInfo.score
      exEmail := some s.userInfo.email
      phone := some s.userInfo.phone
      headImage := some s.userInfo.headPhoto }
  let (ok, image, w) := getImageVersionInfoFromDB env {} w
  let version := if ok ∧ image.version.length > 0 then
      some ⟨image.version, image.mandatoryUpdate⟩
    else none
  some ({ status := 1, user := some user, versionInfo := version }, w)

/-- The conditions of `HandleLogin`, in its order: the account is not in use,
known, and the password is right.  `user_info` is overwritten on the way. -/
def checkLogin (env : Env) (u : SessionId) (login : LogOnorOut) (w : World) :
    Option (Bool × ReplyStatus × World) := do
  let s ← w.users u
  let _ ← s.thread
  let free ← getIndividualUser login.account w
  if !free then some (false, { status := 0 }, w)
  else do
    let (found, info, w) ←
      getUsersInfoFromDB env login.account s.userInfo w
    let w ← w.modifyUser u fun s => { s with userInfo := info }
    if !found then some (false, { status := 0 }, w)
    else if info.password = login.password then do
      let (status, w) ← loginAccepted env u w
      some (true, status, w)
    else do
      let w ← w.modifyUser u fun s =>
        { s with userInfo := { s.userInfo with account := [] } }
      some (false, { status := 0 }, w)

/-- `StateAuth::HandleLogin`. -/
def handleLogin (env : Env) (u : SessionId) (msg : Bytes) (w : World) :
    Option (Bool × World) :=
  match env.proto.logOnorOut msg with
  | none => some (false, w)
  | some login => do
      let (ret, status, w) ← checkLogin env u login w
      let (_, w) ← messageReply env u .loginReply (.replyStatus status) w
      some (ret, w)

/-- `StateAuth::HandleFindPwd`; the timer library takes it from there. -/
def handleFindPwd (env : Env) (msg : Bytes) (w : World) : Bool × World :=
  match env.proto.findPassword msg with
  | none => (true, w)
  | some pwd => (true, { w with findPwd := pwd.email :: w.findPwd })

/-- `StateAuth::MsgHandle`. -/
def stateAuthMsgHandle (env : Env) (u : SessionId) (msgType : UInt32)
    (msg : Bytes) (w : World) : Option (Bool × World) :=
  match MessageType.ofCode msgType with
  | some .register => handleRegister env u msg w
  | some .login => do
      let (ret, w) ← handleLogin env u msg w
      let w ← (if ret then setNextState u .downAd w else some w)
      some (true, w)
  -- `HandleLogout` is always true, which closes the connection
  | some .logout => some (false, w)
  | some .echo => echoMsgHandle env u msg w
  | some .findPassword => some (handleFindPwd env msg w)
  | _ => some (false, w)

/-! ## StateAdPictureDownload -/

/-- `StateAdPictureDownload::DownloadImageInfo`. -/
def downloadImageInfo (env : Env) (u : SessionId) (info : AdPicturesInfo)
    (w : World) : Option (Bool × World) :=
  let reply : AdPictureItemReply :=
    if info.existed then
      { imageId := info.imageId
        existed := true
        imageType := some info.imageType
        imageName := some info.imageName
        imageHashcode := some info.imageHashcode
        url := some info.linkUrl
        imageSize := some info.imageSize }
    else { imageId := info.imageId, existed := false }
  messageReply env u .adImageInfo (.adPictureItemReply reply) w

/-- `StateAdPictureDownload::SendImageContent`.  `fread` fills the buffer or
stops at the end of the file. -/
def sendImageContent (env : Env) (u : SessionId) (w : World) :
    Option (Bool × World) := do
  let w := w.getBuffer u maxDataLength
  let s ← w.users u
  match s.adImgFp with
  | none => some (false, w)
  | some fp =>
      let data := fp.take (w.bufSize u)
      if data.length > 0 then do
        let w ← w.modifyUser u fun s =>
          { s with adImgFp := some (fp.drop (w.bufSize u)) }
        let (ret, w) ← messageReply env u .adImageContent
          (.adPictureContentReply ⟨false, some data⟩) w
        if ret then some (true, w)
        else do
          let w ← w.modifyUser u fun s => { s with adImgFp := none }
          some (false, w)
      else do
        let w ← w.modifyUser u fun s => { s with adImgFp := none }
        let (_, w) ← messageReply env u .adImageContent
          (.adPictureContentReply ⟨true, none⟩) w
        some (true, w)

/-- `if (stateMachine->ad_img_fp == NULL)` of `AdPictureItemHandle`: open the
file that the database names for the picture. -/
def openImage (env : Env) (u : SessionId) (imageId : UInt32) (w : World) :
    Option World := do
  let s ← w.users u
  if s.adImgFp = none then do
    let _ ← s.thread
    let (found, info, w) := getAdPicturesInfoFromDB env imageId {} w
    if found then
      w.modifyUser u fun s => { s with adImgFp := env.fopen info.locatePath }
    else some w
  else some w

/-- The `switch` on the request's type in `AdPictureItemHandle`. -/
def adPictureReply (env : Env) (u : SessionId) (item : AdPictureReq)
    (w : World) : Option (Bool × World) :=
  if item.reqType = 1 then do
    let s ← w.users u
    let _ ← s.thread
    let (_, info, w) := getAdPicturesInfoFromDB env item.imageId {} w
    let (_, w) ← downloadImageInfo env u info w
    some (true, w)
  else if item.reqType = 2 then do
    let w ← openImage env u item.imageId w
    sendImageContent env u w
  else some (true, w)

/-- `StateAdPictureDownload::AdPictureItemHandle`. -/
def adPictureItemHandle (env : Env) (u : SessionId) (msg : Bytes)
    (w : World) : Option (Bool × World) :=
  match env.proto.adPictureReq msg with
  | none => some (true, w)
  | some item => do
      let (ret, w) ← adPictureReply env u item w
      let s ← w.users u
      let w ← (if ret ∧ s.adImgFp = none ∧ item.lastOne = some true then
          setNextState u .gameReady w
        else some w)
      some (ret, w)

/-- `StateAdPictureDownload::MsgHandle`. -/
def stateAdPictureDownloadMsgHandle (env : Env) (u : SessionId)
    (msgType : UInt32) (msg : Bytes) (w : World) : Option (Bool × World) :=
  match MessageType.ofCode msgType with
  | some .adImageReq => adPictureItemHandle env u msg w
  | some .echo => echoMsgHandle env u msg w
  | _ => some (false, w)

/-! ## StateGameReady -/

/-- The seat of `GameRequestHandle`: `locate` is overwritten first, then
`AddUser` is tried unless a game is going on.  The flag is its result. -/
def joinBoard (chessBoard : BoardPtr) (u : SessionId) (locate : Location)
    (w : World) : Option (Bool × World) := do
  let w ← w.modifyUser u fun s => { s with locate := locate }
  let began ← gameBegan chessBoard w
  if began then some (false, w)
  else
    let (added, board) := (w.boards chessBoard).addUser u locate
    if added then some (true, w.modifyBoard chessBoard fun _ => board)
    else some (false, w)

/-- The `else` branch of `GameRequestHandle`: the user has taken the seat. -/
def joinAccepted (chessBoard : BoardPtr) (u : SessionId) (locate : Location)
    (w : World) : Option (RequestPlayReply × World) := do
  let w ← w.modifyUser u fun s => { s with status := .ready }
  let w ← w.modifyUser u fun s => { s with currChessBoard := some chessBoard }
  let w := if (w.boards chessBoard).currUserNum = 1 then
      w.modifyBoard chessBoard fun board =>
        { board with firstComeUserLocate := locate }
    else w
  let first := (w.boards chessBoard).firstComeUserLocate
  let info ← wrapChessBoardInfo chessBoard w
  let w ← setNextState u .gamePlay w
  some (⟨1, first, some info⟩, w)

/-- `StateGameReady::GameRequestHandle`. -/
def gameRequestHandle (env : Env) (u : SessionId) (msg : Bytes) (w : World) :
    Option (Bool × World) :=
  match env.proto.requestPlay msg with
  | none => some (true, w)
  | some m =>
      match getGameHall m.gameHallId.toUInt32 with
      | none => some (true, w)
      | some hall => do
          let (chessBoard, w) := w.getChessBoardByID hall m.chessBoardId.toUInt32
          let locate := m.locate.toUInt32
          -- `chessBoard->GameBegan()` without a test for NULL
          let chessBoard ← chessBoard
          let (addedOk, w) ← joinBoard chessBoard u locate w
          if addedOk then do
            let (reply, w) ← joinAccepted chessBoard u locate w
            let (_, w) ← messageReply env u .requestPlayReply
              (.requestPlayReply reply) w
            let w ← broadCastMsg env chessBoard .requestPlayReply
              (.requestPlayReply { reply with status := 2 }) locate w
            let w ← broadCastHallInfo env chessBoard u w
            some (true, w)
          else do
            let reply : RequestPlayReply :=
              ⟨0, (w.boards chessBoard).firstComeUserLocate, none⟩
            let (_, w) ← messageReply env u .requestPlayReply
              (.requestPlayReply reply) w
            some (true, w)

/-- `StateGameReady::MsgHandle`. -/
def stateGameReadyMsgHandle (env : Env) (u : SessionId) (msgType : UInt32)
    (msg : Bytes) (w : World) : Option (Bool × World) :=
  match MessageType.ofCode msgType with
  | some .gameHallSumaryReq => gameHallSumaryHandle env u w
  | some .hallInfoReq => hallInfoReqHandle env u msg w
  | some .requestPlay => gameRequestHandle env u msg w
  | some .echo => echoMsgHandle env u msg w
  | some .updateUserInfo => updateUserInfos env u msg w
  | _ => some (false, w)

/-! ## StateGamePlay -/

/-- `StateGamePlay::ChessBoardReq`. -/
def chessBoardReq (env : Env) (u : SessionId) (msg : Bytes) (w : World) :
    Option (Bool × World) :=
  match env.proto.chessBoardInfoReq msg with
  | none => some (true, w)
  | some _ => do
      let s ← w.users u
      let board ← s.currChessBoard
      let info ← wrapChessBoardInfo board w
      let (_, w) ← messageReply env u .chessBoard (.chessBoardInfo info) w
      some (true, w)

/-- The message types that `StateGamePlay` passes on to its board. -/
def MessageType.inGame : MessageType → Bool
  | .moveChess | .userMsg | .undoReq | .undoReps | .giveUp | .gameReadyReq
  | .systemMsg | .reconciledReq | .reconciledResp | .requestPlay => true
  | _ => false

/-- The `switch` of `StateGamePlay::MsgHandle`. -/
def stateGamePlaySwitch (env : Env) (u : SessionId) (msgType : UInt32)
    (msg : Bytes) (w : World) : Option (Bool × World) :=
  match MessageType.ofCode msgType with
  | some .gameHallSumaryReq => gameHallSumaryHandle env u w
  | some .hallInfoReq => hallInfoReqHandle env u msg w
  | some .echo => echoMsgHandle env u msg w
  | some .chessBoardReq => chessBoardReq env u msg w
  | some .updateUserInfo => updateUserInfos env u msg w
  | some type =>
      if type.inGame then do
        let s ← w.users u
        match s.currChessBoard with
        | some board => translateMsg env board msgType msg w
        | none => translateMsgNull env msgType msg w
      else some (false, w)
  | none => some (false, w)

/-- `StateGamePlay::MsgHandle`. -/
def stateGamePlayMsgHandle (env : Env) (u : SessionId) (msgType : UInt32)
    (msg : Bytes) (w : World) : Option (Bool × World) := do
  let (ret, w) ← stateGamePlaySwitch env u msgType msg w
  if ret then some (true, w)
  else do
    let w ← setNextState u .gameReady w
    let w ← w.modifyUser u fun s => { s with status := .notStart }
    some (false, w)

/-- The virtual call `stateMachine->MsgHandle(msg_type, msg)`. -/
def StateType.msgHandle (env : Env) (state : StateType) (u : SessionId)
    (msgType : UInt32) (msg : Bytes) (w : World) : Option (Bool × World) :=
  match state with
  | .auth => stateAuthMsgHandle env u msgType msg w
  | .downAd => stateAdPictureDownloadMsgHandle env u msgType msg w
  | .gameReady => stateGameReadyMsgHandle env u msgType msg w
  | .gamePlay => stateGamePlayMsgHandle env u msgType msg w

end ChessServer
