import ChessServer.Server.Service

/-!
# A call of timer_add

`timer_add` sends its request over a socket of its own and waits for the
reply; the timer thread accepts the socket when it is back in `select`,
receives the request, handles it and sends the reply.  Every call of `select`,
`send` and `recv` can fail on either side, and between two of them the other
side goes on.  A message is as long as the buffers for it, whether its header
has arrived or not.
-/

namespace ChessServer.LibTimer

/-- `MAX_BUF_SIZE`, which is also the length of every message. -/
def maxBufSize : Nat := 68

/-- Where the caller is in `timer_add`. -/
inductive Caller where
  /-- before `unix_domain_socket_connect` -/
  | connect
  /-- in `unix_domain_send_msg` -/
  | sending (sendLen : Nat)
  /-- in `unix_domain_recv_msg` -/
  | receiving (recvLen : Nat)
  /-- the socket is closed -/
  | returned (ret : Int32)
  deriving DecidableEq

/-- The caller has a socket. -/
def Caller.busy : Caller → Bool
  | .sending _ | .receiving _ => true
  | .connect | .returned _ => false

/-- Where the timer thread is with the socket. -/
inductive Peer where
  /-- not accepted yet -/
  | listening
  /-- in `unix_domain_recv_msg` -/
  | receiving (recvLen : Nat)
  /-- before `handle_msg` -/
  | handling
  /-- in `unix_domain_send_msg` -/
  | sending (sendLen : Nat)
  | closed
  deriving DecidableEq

/-- A call of `timer_add` and the library. -/
structure Exchange where
  lib : State := {}
  caller : Caller := .connect
  peer : Peer := .listening
  /-- the bytes that the caller has sent, and those that it has been sent -/
  request : Nat := 0
  reply : Nat := 0
  /-- the message that the timer thread sends back -/
  answer : Option Request := none
  /-- the ids of the timers that `handle_msg` has added for the call -/
  inserted : List Int32 := []

/-- What happens next. -/
inductive Turnover where
  | connect (ok : Bool)
  /-- the caller's `send` takes some bytes -/
  | callerSend (n : Nat)
  /-- the caller's `recv` yields some bytes -/
  | callerRecv (n : Nat)
  /-- the caller's `select` times out, or one of its calls fails -/
  | callerFails
  | accept
  | peerRecv (n : Nat)
  | peerSend (n : Nat)
  | peerFails
  | handle (now : Timeval) (malloc : Bool)
  /-- the timer thread does something else -/
  | other (e : Wake)
  /-- the worker takes a handler and calls it -/
  | pop

namespace Exchange

/-- The caller has received more of the reply. -/
def received (recvLen : Nat) (x : Exchange) : Exchange :=
  if recvLen < maxBufSize then { x with caller := .receiving recvLen }
  else { x with caller := .returned ((x.answer.map Request.id).getD (-1)) }

/-- `handle_msg` has handled the request. -/
def handled (r : Int × Request × State) (x : Exchange) : Exchange :=
  { x with
    lib := r.2.2
    peer := .sending 0
    answer := some r.2.1
    inserted := if r.1 = 0 then x.inserted ++ [r.2.1.id] else x.inserted }

/-- One step; `msg` is the request. -/
def step (msg : Request) (e : Turnover) (x : Exchange) : Option Exchange :=
  match e with
  | .connect ok =>
      -- without a connection there is no socket to accept
      some (if ok then { x with caller := .sending 0 }
        else { x with caller := .returned (-1), peer := .closed })
  | .callerSend n =>
      some { x with
        request := x.request + n
        caller := if x.request + n < maxBufSize then .sending (x.request + n)
          else .receiving 0 }
  | .callerRecv n =>
      match x.caller with
      | .receiving recvLen => some (x.received (recvLen + n))
      | .connect | .sending _ | .returned _ => none
  | .callerFails => some { x with caller := .returned (-1) }
  | .accept => some { x with peer := .receiving 0 }
  | .peerRecv n =>
      match x.peer with
      | .receiving recvLen =>
          some { x with
            peer := if recvLen + n < maxBufSize then .receiving (recvLen + n)
              else .handling }
      | .listening | .handling | .sending _ | .closed => none
  | .peerSend n =>
      some { x with
        reply := x.reply + n
        peer := if x.reply + n < maxBufSize then .sending (x.reply + n)
          else .closed }
  | .peerFails => some { x with peer := .closed }
  | .handle now malloc =>
      (x.lib.handleMsg now malloc msg).map fun r => x.handled r
  | .other e => (e.handle x.lib).map fun lib => { x with lib }
  | .pop => do
      let s ← Service.pop { lib := x.lib }
      some { x with lib := s.lib }

/-- Nobody else adds a timer with the caller's handler and argument. -/
def Foreign (msg : Request) : Wake → Prop
  | .timeout _ _ _ _ | .failed _ => True
  | .request msg' now _ _ => now.Normalised ∧
      ∀ m ∈ msg', ¬ (m.action = .add ∧ m.handler = msg.handler ∧
        m.handlerArg = msg.handlerArg)

/-- What can happen next. -/
def enabled (msg : Request) (e : Turnover) (x : Exchange) : Prop :=
  match e with
  | .connect _ => x.caller = .connect
  | .callerSend n => x.caller = .sending x.request ∧ 0 < n ∧
      x.request + n ≤ maxBufSize
  | .callerRecv n => ∃ recvLen ∈ List.range maxBufSize,
      x.caller = .receiving recvLen ∧ 0 < n ∧ recvLen + n ≤ x.reply
  | .callerFails => x.caller.busy = true
  | .accept => x.peer = .listening ∧ x.lib.running = true ∧
      x.caller ≠ .connect
  | .peerRecv n => ∃ recvLen ∈ List.range maxBufSize,
      x.peer = .receiving recvLen ∧ 0 < n ∧ recvLen + n ≤ x.request
  | .peerSend n => x.peer = .sending x.reply ∧ 0 < n ∧
      x.reply + n ≤ maxBufSize
  | .peerFails => x.peer ≠ .listening ∧ x.peer ≠ .handling ∧ x.peer ≠ .closed
  | .handle now _ => x.peer = .handling ∧ now.Normalised
  | .other e => (x.peer = .listening ∨ x.peer = .closed) ∧
      x.lib.running = true ∧ Foreign msg e
  | .pop => True

end Exchange

/-- `timer_add` and the timer thread, from the start of the library.  Without a
request nothing is sent. -/
def exchange (sec usec : Int) (hndlr : Option Handler) (hndlrArg : Arg) :
    Machine Exchange Turnover where
  start :=
    if (timerAdd sec usec hndlr hndlrArg).isSome then {}
    else { caller := .returned (-1), peer := .closed }
  enabled := fun e x =>
    ∃ msg ∈ timerAdd sec usec hndlr hndlrArg, x.enabled msg e
  step := fun e x =>
    (timerAdd sec usec hndlr hndlrArg).bind fun msg => x.step msg e

end ChessServer.LibTimer
