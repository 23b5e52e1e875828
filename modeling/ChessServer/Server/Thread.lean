import ChessServer.Lib.Machine
import ChessServer.Server.States

/-!
# Sessions and the worker thread

The life of a session object (`usersession.cpp`, the pool of
`mainthread.cpp`) and the callbacks libevent runs on the worker
(`thread.cpp`).  `World.step` is one event of the worker's loop.
-/

namespace ChessServer

/-! ## UserSession -/

/-- `UserSession::MessageHandle`. -/
def sessionMessageHandle (env : Env) (u : SessionId) (msgType : UInt32)
    (msg : Bytes) (w : World) : Option (Bool × World) := do
  let s ← w.users u
  let (state, w) := match s.stateMachine with
    | some state => (state, w)
    | none => (.auth, w.setUser u
        { s with stateMachine := some .auth, nextState := some .auth })
  let (ret, w) ← state.msgHandle env u msgType msg w
  if ret then do
    let s ← w.users u
    match s.nextState, s.stateMachine with
    | some next, some state =>
        if next ≠ state then
          some (true, w.setUser u { s with stateMachine := some next })
        else some (true, w)
    | _, _ => some (true, w)
  else some (false, w)

/-- The assignments of `DestructResource` after `LeaveRoomHandle`. -/
def UserSession.destruct (s : UserSession) : UserSession :=
  let s := if s.stateMachine = none then s
    else { s with stateMachine := none, nextState := none }
  let s := { s with adImgFp := none, bufev := none }
  if s.clifd ≠ -1 then
    { s with clifd := -1, thread := none, userInfo := {}, bufInfo := {} }
  else s

/-- The first block of `DestructResource`: a seated session leaves. -/
def leaveCurrChessBoard (env : Env) (u : SessionId) (w : World) :
    Option World := do
  let s ← w.users u
  match s.currChessBoard with
  | some board => do
      let w ← leaveRoomHandle env board u true w
      w.modifyUser u fun s => { s with currChessBoard := none }
  | none => some w

/-- `UserSession::DestructResource`. -/
def destructResource (env : Env) (u : SessionId) (w : World) :
    Option World := do
  let w ← leaveCurrChessBoard env u w
  w.modifyUser u UserSession.destruct

/-! ## The session pool -/

/-- One `new UserSession()` pushed to the back of the pool. -/
def World.newSession (w : World) : World :=
  { w with
    users := Function.update w.users w.nextUser (some {})
    nextUser := w.nextUser + 1
    sessionList := w.sessionList ++ [w.nextUser] }

/-- `MainThread::CreatSessionsPool`. -/
def creatSessionsPool (num : Nat) (w : World) : World :=
  num.repeat World.newSession w

/-- `delete session` after its buffer was freed. -/
def World.deleteSession (u : SessionId) (w : World) : World :=
  { w with
    users := Function.update w.users u none
    bufSize := Function.update w.bufSize u 0 }

/-- The trimming loop of `MainThread::DestrorySessionsFromPool`. -/
def destrorySessionsFromPool (env : Env) : Nat → World → Option World
  | 0, w => some w
  | num + 1, w =>
      match w.sessionList.getLast? with
      | none => some w
      | some session => do
          let w ← destructResource env session w
          let w := w.deleteSession session
          destrorySessionsFromPool env num
            { w with sessionList := w.sessionList.dropLast }

/-- `MainThread::RecycleSession`. -/
def recycleSession (env : Env) (u : SessionId) (w : World) :
    Option World := do
  let w ← destructResource env u w
  let w := { w with sessionList := u :: w.sessionList }
  if w.sessionList.length ≥ 2 * connectionMaxStep then
    destrorySessionsFromPool env connectionMaxStep w
  else some w

/-- `MainThread::GetOneSessionFromPool`. -/
def getOneSessionFromPool (w : World) : Option (SessionId × World) :=
  let w := if w.sessionList = [] then creatSessionsPool connectionMaxStep w
    else w
  match w.sessionList with
  | [] => none
  | session :: rest => some (session, { w with sessionList := rest })

/-! ## WorkThread -/

/-- `WorkThread::ClosingClientCon`. -/
def closingClientCon (env : Env) (fd : Int) (w : World) : Option World :=
  match w.fdSessionMap[fd]? with
  | none => some w
  | some session =>
      recycleSession env session
        { w with fdSessionMap := w.fdSessionMap.erase fd }

/-- `WorkThread::MessageHandle`; `ResetTimer` only touches the timer. -/
def messageHandle (env : Env) (fd : Int) (msgType : UInt32) (msg : Bytes)
    (w : World) : Option (Bool × World) :=
  match w.fdSessionMap[fd]? with
  | none => some (false, w)
  | some session => do
      let (ret, w) ← sessionMessageHandle env session msgType msg w
      if ret then some (true, w)
      else do
        let w ← closingClientCon env fd w
        some (false, w)

/-- `COMMAND_NOTIFY_ADD_EVENT` of `WorkThread::NotifyReceivedProcess`. -/
def notifyAddEvent (fd : Int) (w : World) : Option World := do
  let (session, w) ← getOneSessionFromPool w
  let w ← w.modifyUser session fun s =>
    { s with clifd := fd, thread := some 0, bufev := some [] }
  some { w with fdSessionMap := w.fdSessionMap.insertIfNew fd session }

/-! ## The read callback -/

/-- `*((u_int32 *)p)` on the little-endian target. -/
def readLe32 (p : Bytes) : UInt32 :=
  (p.getD 0 0).toUInt32 ||| (p.getD 1 0).toUInt32 <<< 8 |||
    (p.getD 2 0).toUInt32 <<< 16 ||| (p.getD 3 0).toUInt32 <<< 24

/-- The header check of `OnReadCb` fails. -/
def ReadBufInfo.invalid (info : ReadBufInfo) : Bool :=
  decide (info.msgType > msgTypeMax) ||
    decide (info.totalSize.toNat > 512 * maxDataLength)

/-- The first block of `OnReadCb`: the header, once it has arrived. -/
def ReadBufInfo.readHead (info : ReadBufInfo) (input : Bytes) : ReadBufInfo :=
  if !info.gotHead ∧ input.length ≥ dataHeadLength then
    { info with totalSize := readLe32 input, msgType := readLe32 (input.drop 4) }
  else info

/-- The header block found a header that it refuses. -/
def ReadBufInfo.refuses (info : ReadBufInfo) (input : Bytes) : Bool :=
  !info.gotHead && decide (input.length ≥ dataHeadLength) &&
    (info.readHead input).invalid

/-- The header block's result when it does not refuse. -/
def ReadBufInfo.accept (info : ReadBufInfo) (input : Bytes) : ReadBufInfo :=
  if input.length ≥ dataHeadLength then
    { info.readHead input with gotHead := true }
  else info

/-- `(input_len == total_size) && got_head`: the frame is handed on. -/
def ReadBufInfo.complete (info : ReadBufInfo) (input : Bytes) : Bool :=
  input.length == info.totalSize.toNat && info.gotHead

/-- The body of a complete frame; a `total_size` below the header's length
would make the `string` constructor throw. -/
def ReadBufInfo.body (info : ReadBufInfo) (input : Bytes) : Option Bytes :=
  if info.totalSize.toNat < dataHeadLength then none
  else some ((input.take info.totalSize.toNat).drop dataHeadLength)

/-- `WorkThread::OnReadCb`. -/
def onReadCb (env : Env) (u : SessionId) (w : World) : Option World := do
  let s ← w.users u
  let _ ← s.thread
  let input ← s.bufev
  if s.bufInfo.refuses input then
    closingClientCon env s.clifd
      (w.setUser u { s with bufInfo := s.bufInfo.readHead input })
  else do
    let info := s.bufInfo.accept input
    let w := w.setUser u { s with bufInfo := info }
    if info.complete input then do
      let w := w.getBuffer u info.totalSize.toNat
      let w := w.setUser u { s with
        bufInfo := info, bufev := some (input.drop info.totalSize.toNat) }
      let data ← info.body input
      let (ret, w) ← messageHandle env s.clifd info.msgType data w
      if ret then w.modifyUser u fun s => { s with bufInfo := {} }
      else some w
    else some w

/-! ## The other callbacks -/

/-- The bits of `events` that `OnEventCb` looks at. -/
structure BevEvent where
  eof : Bool
  error : Bool
  timeout : Bool
  reading : Bool
  writing : Bool
  deriving DecidableEq

/-- `!ret` of `OnEventCb`. -/
def BevEvent.closes (events : BevEvent) : Bool :=
  events.eof || events.error || (events.timeout && events.reading) ||
    (events.timeout && events.writing)

/-- `WorkThread::OnEventCb`. -/
def onEventCb (env : Env) (u : SessionId) (events : BevEvent) (w : World) :
    Option World := do
  let s ← w.users u
  let _ ← s.thread
  if events.closes then closingClientCon env s.clifd w else some w

/-- `WorkThread::TimerOutHandle`. -/
def timerOutHandle (env : Env) (u : SessionId) (w : World) :
    Option World := do
  let s ← w.users u
  let _ ← s.thread
  closingClientCon env s.clifd w

/-! ## The event loop -/

/-- One thing that can wake the worker. -/
inductive Event where
  /-- the main thread passed on an accepted descriptor -/
  | accept (fd : Int)
  /-- bytes arrived and the read callback runs -/
  | read (u : SessionId) (data : Bytes)
  /-- a `bufferevent` event -/
  | event (u : SessionId) (events : BevEvent)
  /-- the inactivity timer -/
  | timer (u : SessionId)
  deriving DecidableEq

/-- When the kernel and libevent can raise an event: `accept` returns no
descriptor that is still open, a `bufferevent` callback needs the
`bufferevent`, and a timer is pending while the session has a descriptor. -/
def Event.Enabled (w : World) : Event → Prop
  | .accept fd => 0 ≤ fd ∧ w.fdSessionMap[fd]? = none
  | .read u _ | .event u _ => ∃ s, w.users u = some s ∧ s.bufev ≠ none
  | .timer u => ∃ s, w.users u = some s ∧ s.clifd ≠ -1

instance (w : World) (e : Event) : Decidable (e.Enabled w) :=
  match e with
  | .accept fd => inferInstanceAs (Decidable (0 ≤ fd ∧ w.fdSessionMap[fd]? = none))
  | .read u _ | .event u _ =>
      match h : w.users u with
      | none => isFalse (by rintro ⟨s, hs, _⟩; rw [h] at hs; cases hs)
      | some s =>
          if hb : s.bufev ≠ none then isTrue ⟨s, h, hb⟩
          else isFalse (by rintro ⟨t, ht, hn⟩; rw [h] at ht; cases ht; exact hb hn)
  | .timer u =>
      match h : w.users u with
      | none => isFalse (by rintro ⟨s, hs, _⟩; rw [h] at hs; cases hs)
      | some s =>
          if hc : s.clifd ≠ -1 then isTrue ⟨s, h, hc⟩
          else isFalse (by rintro ⟨t, ht, hn⟩; rw [h] at ht; cases ht; exact hc hn)

/-- Append arrived bytes to the input buffer. -/
def UserSession.arrive (s : UserSession) (data : Bytes) : UserSession :=
  { s with bufev := s.bufev.map (· ++ data) }

/-- One round of the worker's event loop. -/
def World.step (env : Env) (e : Event) (w : World) : Option World :=
  match e with
  | .accept fd => notifyAddEvent fd w
  | .read u data => do
      let w ← w.modifyUser u fun s => s.arrive data
      onReadCb env u w
  | .event u events => onEventCb env u events w
  | .timer u => timerOutHandle env u w

/-- The server with one worker thread, as a machine. -/
def server (env : Env) : Machine World Event where
  start := World.init
  enabled := fun e w => e.Enabled w
  step := World.step env

end ChessServer
