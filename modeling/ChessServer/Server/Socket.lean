import ChessServer.Lib.Machine
import ChessServer.Server.Thread

/-!
# Messages on a unix socket

`unix_domain_send_msg` and `unix_domain_recv_msg` at the two ends of a socket.
A step is one round of one of the loops: `select`, then `send` or `recv`, each
of which may be interrupted, do a part of what it is asked for, or fail.  A
message is a `unix_domain_msg`, its `size` and as many bytes of `data`.
-/

namespace ChessServer.LibTimer

/-- A message with its header. -/
def unixDomainMsg (data : Bytes) : Bytes := le32 data.length.toUInt32 ++ data

/-- `sizeof(unix_domain_msg)`. -/
def msgHdrLen : Nat := 4

/-- How a round ends. -/
inductive Round where
  /-- `rc` is positive -/
  | bytes (rc : Nat)
  /-- `EINTR`, `EAGAIN`, or a `select` that times out without a `timeout` -/
  | again
  /-- `select` times out, or a call fails -/
  | fails
  /-- `rc` is 0: all bytes were read and the peer has closed the socket -/
  | shutdown
  deriving DecidableEq

/-- The variables of `unix_domain_send_msg`, and what it has returned.  The
length of a message that it can be called with fits an `int`. -/
structure SendMsg where
  sendLen : Nat := 0
  ret : Option Int := none
  deriving DecidableEq

/-- The variables of `unix_domain_recv_msg`, what `org_msg` points at, and
what it has returned. -/
structure RecvMsg where
  orgMsg : Bytes
  /-- what `rx_buff` points at, if that is not the caller's buffer -/
  rxBuff : Option Bytes := none
  recvLen : Nat := 0
  msgLen : UInt32
  gotMsgHdr : Bool := false
  ret : Option Int := none
  deriving DecidableEq

/-- A round of `unix_domain_send_msg` for a message of a length. -/
def SendMsg.round (msgLen : Nat) (r : Round) (s : SendMsg) : SendMsg :=
  match r with
  | .bytes rc =>
      { s with
        sendLen := s.sendLen + rc
        ret := if s.sendLen + rc < msgLen then none else some 0 }
  | .again => s
  | .fails | .shutdown => { s with ret := some (-1) }

/-- Overwrite a part of a buffer. -/
def splice (buf : Bytes) (i : Nat) (data : Bytes) : Bytes :=
  buf.take i ++ data ++ buf.drop (i + data.length)

namespace RecvMsg

/-- `recv` fills `&rx_buff[recv_len]`. -/
def fill (data : Bytes) (s : RecvMsg) : RecvMsg :=
  match s.rxBuff with
  | none =>
      { s with
        orgMsg := splice s.orgMsg s.recvLen data
        recvLen := s.recvLen + data.length }
  | some rxBuff =>
      { s with
        rxBuff := some (splice rxBuff s.recvLen data)
        recvLen := s.recvLen + data.length }

/-- The block that looks at the header.  A buffer for a longer message is new,
and only this function knows it. -/
def header (size : UInt32) (malloc : Bool) (s : RecvMsg) : RecvMsg :=
  if s.gotMsgHdr = false ∧ msgHdrLen ≤ s.recvLen then
    let s := { s with
      gotMsgHdr := true
      msgLen := msgHdrLen.toUInt32 + readLe32 s.orgMsg }
    if size < s.msgLen then
      if malloc then
        { s with
          rxBuff := some (s.orgMsg.take s.recvLen ++
            List.replicate (s.msgLen.toNat - s.recvLen) 0) }
      else { s with ret := some (-1) }
    else s
  else s

/-- The condition of the loop. -/
def check (s : RecvMsg) : RecvMsg :=
  if s.ret = none ∧ s.msgLen.toNat ≤ s.recvLen then { s with ret := some 0 }
  else s

/-- A round of `unix_domain_recv_msg` with a buffer of a size; `data` is what
`recv` yields, if it yields something. -/
def round (size : UInt32) (malloc : Bool) (data : Bytes) (r : Round)
    (s : RecvMsg) : RecvMsg :=
  match r with
  | .bytes _ => ((s.fill data).header size malloc).check
  | .again => s
  | .fails | .shutdown => { s with ret := some (-1) }

end RecvMsg

/-- The two ends of a socket. -/
structure Transfer where
  sender : SendMsg := {}
  receiver : RecvMsg
  /-- the sender has closed its end -/
  closed : Bool := false
  deriving DecidableEq

/-- Whose loop goes on. -/
inductive Io where
  | send (r : Round)
  | recv (r : Round) (malloc : Bool)
  | close
  deriving DecidableEq

namespace Transfer

/-- What a call of `recv` yields of a message. -/
def pending (msg : Bytes) (r : Round) (a : Transfer) : Bytes :=
  match r with
  | .bytes rc => (msg.drop a.receiver.recvLen).take rc
  | .again | .fails | .shutdown => []

def step (msg : Bytes) (size : UInt32) (e : Io) (a : Transfer) : Transfer :=
  match e with
  | .send r => { a with sender := a.sender.round msg.length r }
  | .recv r malloc =>
      { a with receiver := a.receiver.round size malloc (a.pending msg r) r }
  | .close => { a with closed := true }

/-- How a round of `send` can end. -/
def CanSend (msg : Bytes) (a : Transfer) : Round → Prop
  | .bytes rc => 0 < rc ∧ a.sender.sendLen + rc ≤ msg.length
  | .again | .fails => True
  | .shutdown => False

/-- How a round of `recv` can end.  It is asked for `msg_len - recv_len` bytes
and yields bytes that were sent. -/
def CanRecv (a : Transfer) : Round → Prop
  | .bytes rc => 0 < rc ∧ a.receiver.recvLen + rc ≤ a.receiver.msgLen.toNat ∧
      a.receiver.recvLen + rc ≤ a.sender.sendLen
  | .again | .fails => True
  | .shutdown => a.closed = true ∧ a.receiver.recvLen = a.sender.sendLen

/-- What can happen while the receiver is in its loop. -/
def enabled (msg : Bytes) (e : Io) (a : Transfer) : Prop :=
  match e with
  | .send r => a.sender.ret = none ∧ a.closed = false ∧ a.CanSend msg r
  | .recv r _ => a.receiver.ret = none ∧ a.CanRecv r
  | .close => a.closed = false

end Transfer

/-- A message on its way into a buffer of a size. -/
def transfer (size : UInt32) (buffer data : Bytes) : Machine Transfer Io where
  start := { receiver := { orgMsg := buffer, msgLen := size } }
  enabled := fun e a => a.enabled (unixDomainMsg data) e
  step := fun e a => some (a.step (unixDomainMsg data) size e)

end ChessServer.LibTimer
