import ChessServer.Lib.Machine
import ChessServer.Server.Reply

/-!
# Downloading a picture

`StateAdPictureDownload` once more, for one session whose replies are accepted,
with what the model of the server leaves out: `fread` may yield fewer bytes
than the buffer holds, and the calls of `fclose` are counted.
-/

namespace ChessServer.Download

/-- What the state uses of a `UserSession`.  `adImgFp` holds the bytes still to
be read from the open file, `sent` the replies in their order. -/
structure Session where
  bufSize : Nat
  adImgFp : Option Bytes := none
  nextState : Option StateType := none
  sent : List Payload := []
  /-- how many files were closed -/
  closed : Nat := 0
  deriving DecidableEq

/-- A request, and what the calls that handle it yield. -/
structure Request where
  /-- the size of its frame, which was read into the buffer -/
  totalSize : Nat
  item : AdPictureReq
  /-- what `GetAdPicturesInfoFromDB` returns -/
  found : Bool
  info : AdPicturesInfo
  /-- what `fread` returns -/
  rdSize : Nat

namespace Session

/-- `UserSession::GetBuffer`. -/
def getBuffer (size : Nat) (s : Session) : Session :=
  if s.bufSize = 0 ∧ size < maxDataLength then
    { s with bufSize := maxDataLength }
  else if s.bufSize < size then { s with bufSize := size }
  else s

/-- `UserSession::MessageReply`, which reuses the buffer. -/
def messageReply (env : Env) (body : Payload) (s : Session) : Session :=
  let s := s.getBuffer ((body.bytes env).length + dataHeadLength)
  { s with sent := s.sent ++ [body] }

/-- `fclose`. -/
def fclose (s : Session) : Session :=
  { s with adImgFp := none, closed := s.closed + 1 }

/-- `StateAdPictureDownload::DownloadImageInfo`. -/
def downloadImageInfo (env : Env) (info : AdPicturesInfo) (s : Session) :
    Session :=
  let reply : AdPictureItemReply :=
    if info.existed then
      { imageId := info.imageId
        existed := true
        imageType := some info.imageType
        imageName := some info.imageName
        imageHashcode := some info.imageHashcode
        url := some info.linkUrl
        imageSize := some info.imageSize }
    else { imageId := info.imageId, existed := false }
  s.messageReply env (.adPictureItemReply reply)

/-- `StateAdPictureDownload::SendImageContent`. -/
def sendImageContent (env : Env) (rdSize : Nat) (s : Session) :
    Bool × Session :=
  let s := s.getBuffer maxDataLength
  match s.adImgFp with
  | none => (false, s)
  | some fp =>
      if rdSize > 0 then
        let s := { s with adImgFp := some (fp.drop rdSize) }
        (true, s.messageReply env
          (.adPictureContentReply ⟨false, some (fp.take rdSize)⟩))
      else
        (true, s.fclose.messageReply env
          (.adPictureContentReply ⟨true, none⟩))

/-- `if (stateMachine->ad_img_fp == NULL)` of `AdPictureItemHandle`. -/
def openImage (env : Env) (r : Request) (s : Session) : Session :=
  if s.adImgFp = none ∧ r.found then
    { s with adImgFp := env.fopen r.info.locatePath }
  else s

/-- The `switch` on the request's type in `AdPictureItemHandle`. -/
def adPictureReply (env : Env) (r : Request) (s : Session) : Bool × Session :=
  if r.item.reqType = 1 then (true, s.downloadImageInfo env r.info)
  else if r.item.reqType = 2 then
    (s.openImage env r).sendImageContent env r.rdSize
  else (true, s)

/-- `StateAdPictureDownload::AdPictureItemHandle`. -/
def adPictureItemHandle (env : Env) (r : Request) (s : Session) :
    Bool × Session :=
  let (ret, s) := s.adPictureReply env r
  if ret ∧ s.adImgFp = none ∧ r.item.lastOne = some true then
    (ret, { s with nextState := some .gameReady })
  else (ret, s)

end Session

/-- `fread` into a buffer of a size: the next bytes of a file, at least one of
them unless there is none. -/
def Freads (size : Nat) (rest : Bytes) (rdSize : Nat) : Prop :=
  rdSize ≤ size ∧ rdSize ≤ rest.length ∧ (rdSize = 0 → rest = [])

/-- A request for content names the image, whose file can be opened. -/
def Names (env : Env) (image : UInt32) (file : Bytes) (r : Request) : Prop :=
  r.item.imageId = image ∧ r.found = true ∧
    env.fopen r.info.locatePath = some file

/-- The requests of a session for one image. -/
def download (env : Env) (bufSize : Nat) (image : UInt32) (file : Bytes) :
    Machine Session Request where
  start := { bufSize }
  enabled := fun r s => s.nextState = none ∧ (r.item.reqType = 2 →
    Names env image file r ∧
      Freads ((s.getBuffer r.totalSize).getBuffer maxDataLength).bufSize
        (s.adImgFp.getD file) r.rdSize)
  step := fun r s =>
    some ((s.getBuffer r.totalSize).adPictureItemHandle env r).2

end ChessServer.Download
