import ChessServer.Lib.Lease
import ChessServer.Lib.Machine
import ChessServer.Server.Database

/-!
# FindPwdViaEmail

`findpwd.cpp`: a request for an account becomes a `FpwUserInfo` that goes
from timer to timer until `TimeOutHandle` deletes it.  The timers belong to
the timer library, which runs one handler at a time and none before it is
due; what happens in between is up to the clock and to the users.
-/

namespace ChessServer

namespace FindPwd

/-- What `md5` returns: 32 characters, all of them hexadecimal digits. -/
abbrev Digest := { token : Bytes // token.length = 32 ∧ 0 ∉ token }

/-- `VERIFY_PATH`. -/
def verifyPath : Bytes := lit "/usr/share/web/data/"

/-- The arguments of `timer_add` in microseconds. -/
def delay (sec usec : Nat) : Nat := sec * 1000000 + usec

/-- `OUT_TIME`. -/
def outTime : Nat := delay (5 * 60) 0

/-- `FpwUserInfo`; `request` is the object's identity, the number of requests
made before its own. -/
structure FpwUserInfo where
  request : Nat
  account : Bytes
  token : Digest
  retryCount : UInt8 := 0
  deriving DecidableEq

/-- The two handlers that are handed to `timer_add`. -/
inductive Handler where
  | sendMail
  | timeOutHandle
  deriving DecidableEq

/-- A pending timer. -/
structure Timer where
  due : Nat
  handler : Handler
  user : FpwUserInfo
  deriving DecidableEq

/-- The pending timers and the files, with the clock of the timer library.
`writes` records, newest first, the calls of `WriteUserTokentoFile`; a write
is granted when the mail went out. -/
structure State where
  now : Nat
  requests : Nat
  timers : List Timer
  files : Bytes → Option Bytes
  writes : List (Lease.Write Bytes Bytes)

/-- Before the first request. -/
def State.init : State where
  now := 0
  requests := 0
  timers := []
  files := fun _ => none
  writes := []

/-- `c_str()` of the path of an account's file.  Files are told apart by the
bytes of their paths: no file has two of them. -/
def path (account : Bytes) : Bytes := cString (verifyPath ++ account)

/-- `strncpy(buf, token.c_str(), sizeof(buf) - 1)` of a zeroed buffer, of
which `fwrite` takes `token.size()` bytes. -/
def tokenText (token : Bytes) : Bytes :=
  (((cString token).take 33) ++ List.replicate 34 0).take token.length

/-- `timer_add`; it may fail. -/
def State.timerAdd (added : Bool) (sec usec : Nat) (handler : Handler)
    (user : FpwUserInfo) (w : State) : State :=
  if added then
    { w with timers := w.timers ++ [⟨w.now + delay sec usec, handler, user⟩] }
  else w

/-- `FindPwdViaEmail::AddToTimerList`; `time` is what `time(NULL)`
returned. -/
def State.addToTimerList (md5 : Bytes → Digest) (account : Bytes)
    (time : UInt32) (added : Bool) (w : State) : State :=
  let user : FpwUserInfo :=
    { request := w.requests
      account := account
      token := md5 (account ++ lit (toString time.toNat)) }
  { w with requests := w.requests + 1 }.timerAdd added 0 10 .sendMail user

/-- `FindPwdViaEmail::WriteUserTokentoFile`; `mailed` is whether
`system(cmd)` returned 0. -/
def State.writeUserTokentoFile (user : FpwUserInfo) (mailed : Bool)
    (w : State) : State :=
  { w with
    files := Function.update w.files (path user.account)
      (some (tokenText user.token))
    writes := ⟨w.now, path user.account, user.request, user.token, mailed⟩ ::
      w.writes }

/-- `FindPwdViaEmail::SendMail`. -/
def State.sendMail (user : FpwUserInfo) (mailed added : Bool) (w : State) :
    State :=
  let w := w.writeUserTokentoFile user mailed
  if mailed then w.timerAdd added (5 * 60) 0 .timeOutHandle user
  else
    let user := { user with retryCount := user.retryCount + 1 }
    if user.retryCount ≤ 5 then w.timerAdd added 60 0 .sendMail user
    else w.timerAdd added 0 500 .timeOutHandle user

/-- `FindPwdViaEmail::TimeOutHandle`. -/
def State.timeOutHandle (user : FpwUserInfo) (w : State) : State :=
  { w with files := Function.update w.files (path user.account) none }

/-- What can happen. -/
inductive Event where
  /-- `FindPwdViaAccount` -/
  | request (account : Bytes) (time : UInt32) (added : Bool)
  /-- the handler of a pending timer runs -/
  | fire (timer : Timer) (mailed added : Bool)
  /-- time passes -/
  | pass (usec : Nat)
  /-- `Destrory`, which clears the timers -/
  | destrory

/-- A timer fires no earlier than asked. -/
def Event.Enabled (w : State) : Event → Prop
  | .fire timer _ _ => timer ∈ w.timers ∧ timer.due ≤ w.now
  | _ => True

instance (w : State) (e : Event) : Decidable (e.Enabled w) :=
  match e with
  | .fire timer _ _ =>
      inferInstanceAs (Decidable (timer ∈ w.timers ∧ timer.due ≤ w.now))
  | .request _ _ _ | .pass _ | .destrory => inferInstanceAs (Decidable True)

/-- Run a timer's handler. -/
def State.run (timer : Timer) (mailed added : Bool) (w : State) : State :=
  match timer.handler with
  | .sendMail => w.sendMail timer.user mailed added
  | .timeOutHandle => w.timeOutHandle timer.user

/-- One event. -/
def State.step (md5 : Bytes → Digest) (e : Event) (w : State) : Option State :=
  match e with
  | .request account time added =>
      some (w.addToTimerList md5 account time added)
  | .fire timer mailed added =>
      some ({ w with timers := w.timers.erase timer }.run timer mailed added)
  | .pass usec => some { w with now := w.now + usec }
  | .destrory => some { w with timers := [] }

/-- The requests for one server, as a machine. -/
def machine (md5 : Bytes → Digest) : Machine State Event where
  start := State.init
  enabled := fun e w => e.Enabled w
  step := State.step md5

end FindPwd

end ChessServer
