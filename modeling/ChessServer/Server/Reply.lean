import ChessServer.Server.Database

/-!
# Replies and scores

The members of `UserSession` that the game handlers call: the shared buffer,
`MessageReply` through `WorkThread::OnWrite`, and the two score updates.
-/

namespace ChessServer

/-- `UserSession::GetBuffer`: only the size of the buffer is kept. -/
def World.getBuffer (u : SessionId) (size : Nat) (w : World) : World :=
  if w.bufSize u = 0 ∧ size < maxDataLength then
    { w with bufSize := Function.update w.bufSize u maxDataLength }
  else if w.bufSize u < size then
    { w with bufSize := Function.update w.bufSize u size }
  else w

/-- The bytes of a payload before framing. -/
def Payload.bytes (env : Env) : Payload → Bytes
  | .forward msg => msg
  | body => env.proto.serialize body

/-- The four bytes of a `u_int32` in memory order. -/
def le32 (n : UInt32) : Bytes :=
  [n.toUInt8, (n >>> 8).toUInt8, (n >>> 16).toUInt8, (n >>> 24).toUInt8]

/-- The frame `OnWrite` lays out in the buffer. -/
def frame (msgType : UInt32) (data : Bytes) : Bytes :=
  le32 (data.length + dataHeadLength).toUInt32 ++ le32 msgType ++ data

/-- `WorkThread::OnWrite`; a missing `bufferevent` is a null dereference in
libevent. -/
def onWrite (env : Env) (cliFd : Int) (type : MessageType) (body : Payload)
    (u : SessionId) (w : World) : Option (Bool × World) :=
  let w := w.getBuffer u ((body.bytes env).length + dataHeadLength)
  if cliFd < 0 then some (false, w)
  else do
    let s ← w.users u
    let _ ← s.bufev
    some (true, { w with sent := ⟨u, type, body⟩ :: w.sent })

/-- `UserSession::MessageReply`. -/
def messageReply (env : Env) (u : SessionId) (type : MessageType)
    (body : Payload) (w : World) : Option (Bool × World) := do
  let s ← w.users u
  let _ ← s.thread
  onWrite env s.clifd type body u w

/-- `UserSession::IncreaseScore`. -/
def increaseScore (env : Env) (u : SessionId) (score : UInt32) (w : World) :
    Option World := do
  let s ← w.users u
  let _ ← s.thread
  let info := { s.userInfo with score := s.userInfo.score + score }
  let w := w.setUser u { s with userInfo := info }
  some (updateUserScoreToDB env info.account info.score w).2

/-- `UserSession::ReduceScore`. -/
def reduceScore (env : Env) (u : SessionId) (score : UInt32) (w : World) :
    Option World := do
  let s ← w.users u
  let _ ← s.thread
  let info := { s.userInfo with score := s.userInfo.score - score }
  let w := w.setUser u { s with userInfo := info }
  some (updateUserScoreToDB env info.account info.score w).2

end ChessServer
