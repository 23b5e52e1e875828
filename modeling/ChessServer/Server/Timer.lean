import ChessServer.Lib.DList
import ChessServer.Lib.Machine

/-!
# The timers of libtimer

`libtimer.c` keeps the timers that are waiting in `timerq`, sorted by their
deadlines, and hands those that expire to `timeout_list`, from which the
thread that runs `time_out_task` takes them.  Both lists live in one heap; a
pointer that is no good is a fault, as is a wait for a mutex that its owner
waits for.  A function returns what the source returns, and the state.
-/

namespace ChessServer.LibTimer

open DList

/-! ## Times -/

/-- `struct timeval`.  Its members are of type `long`: when the clock and the
timeouts stay below a quarter of its end, no time that the timer thread computes
leaves its range (`reachable_long`). -/
structure Timeval where
  tvSec : Int
  tvUsec : Int
  deriving DecidableEq

/-- `MICRO_PER_SEC`. -/
def microPerSec : Int := 1000000

/-- `MAX_USEC`. -/
def maxUsec : Int := 999999

/-- `ALMOST_NOW`. -/
def almostNow : Int := 1000

/-- `TV_LESS_THAN`. -/
def Timeval.lessThan (t1 t2 : Timeval) : Bool :=
  decide (t1.tvSec < t2.tvSec) ||
    (t1.tvSec == t2.tvSec && decide (t1.tvUsec < t2.tvUsec))

/-- `TV_MINUS`. -/
def Timeval.minus (t1 t2 : Timeval) : Timeval :=
  if t1.tvUsec ≥ t2.tvUsec then
    ⟨t1.tvSec - t2.tvSec, t1.tvUsec - t2.tvUsec⟩
  else ⟨t1.tvSec - t2.tvSec - 1, t1.tvUsec + (maxUsec - t2.tvUsec)⟩

/-- The deadline of a timer that is added at a time. -/
def Timeval.deadline (now timeout : Timeval) : Timeval where
  tvSec := now.tvSec +
    (timeout.tvSec + (now.tvUsec + timeout.tvUsec).tdiv microPerSec)
  tvUsec := (now.tvUsec + timeout.tvUsec).tmod microPerSec

/-! ## The state of the library -/

/-- The address of a function. -/
abbrev Handler := Nat

/-- A `void *`; `none` is `NULL`. -/
abbrev Arg := Option Nat

/-- `tl_timer_t` without its links.  The members that `malloc` leaves as they
are, and that nobody reads, are zero. -/
structure Timer where
  timeout : Timeval := ⟨0, 0⟩
  handler : Option Handler
  handlerArg : Arg
  id : Int32 := 0
  deriving DecidableEq

/-- `e_action_type`. -/
inductive Action where
  | add
  | del
  | delAll
  | destrory
  | max
  deriving DecidableEq

/-- A `tl_timer_t` on its way between a caller and the timer thread. -/
structure Request where
  action : Action
  timeout : Timeval := ⟨0, 0⟩
  handler : Option Handler := none
  handlerArg : Arg := none
  id : Int32 := 0
  deriving DecidableEq

/-- `timerq.mutex` and `timeout_mutex`. -/
inductive Mutex where
  | timerq
  | timeout
  deriving DecidableEq

/-- The variables of the library. -/
structure State where
  heap : Heap Timer := fun _ => none
  /-- the next address that `malloc` returns -/
  top : Ptr := 0
  timerq : Ends := ⟨none, none⟩
  curId : Int32 := 0
  timeoutList : Ends := ⟨none, none⟩
  timeoutThreadIsOn : Bool := false
  held : Mutex → Bool := fun _ => false
  /-- a mutex was unlocked that nobody had locked -/
  misused : Bool := false
  /-- the threads that were created to run `time_out_task` -/
  workers : Nat := 0
  /-- the calls of `free_arg` functions, newest first -/
  freed : List (Handler × Arg) := []
  /-- the timer thread has not exited -/
  running : Bool := true

/-- `id = timerq.cur_id++`, and once more for the value that means failure:
the id and the counter. -/
def nextId (curId : Int32) : Int32 × Int32 :=
  if curId = -1 then (curId + 1, curId + 2) else (curId, curId + 1)

namespace State

/-- `pthread_mutex_lock`. -/
def lock (m : Mutex) (s : State) : Option State :=
  if s.held m then none
  else some { s with held := Function.update s.held m true }

/-- `pthread_mutex_unlock`. -/
def unlock (m : Mutex) (s : State) : State :=
  { s with
    held := Function.update s.held m false
    misused := s.misused || !s.held m }

/-- `timer_dequeue`. -/
def timerDequeue (t : Ptr) (s : State) : Option State := do
  let (timerq, heap) ← remove t s.timerq s.heap
  some { s with timerq, heap }

/-! ## Requests -/

/-- `add_timernode_to_list`, at a time and with an outcome of `malloc`. -/
def addTimernodeToList (now : Timeval) (malloc : Bool) (msg : Request)
    (s : State) : Option (Int × Request × State) :=
  if msg.timeout.tvSec < 0 ∨ msg.timeout.tvUsec < 0 ∨
      (msg.timeout.tvSec = 0 ∧ msg.timeout.tvUsec = 0) then
    some (-1, { msg with id := -1 }, s.unlock .timerq)
  else if malloc = false then
    some (-1, { msg with id := -1 }, s.unlock .timerq)
  else do
    let newTime := now.deadline msg.timeout
    let s ← s.lock .timerq
    let (id, curId) := nextId s.curId
    let tmp ← find (fun t => newTime.lessThan t.timeout) s.heap s.top
      s.timerq.first
    let (timerq, heap) ← insertBefore s.top
      ⟨newTime, msg.handler, msg.handlerArg, id⟩ tmp s.timerq s.heap
    some (0, { msg with id },
      { s with curId, timerq, heap, top := s.top + 1 }.unlock .timerq)

/-- `del_timernode_from_list`.  That the argument is cleared in the node,
which is freed next, is left out. -/
def delTimernodeFromList (msg : Request) (s : State) :
    Option (Int × State) :=
  if msg.id = -1 then some (-1, s)
  else do
    let s ← s.lock .timerq
    let t ← find (fun t => t.id == msg.id) s.heap s.top s.timerq.first
    match t with
    | none => some (-1, s.unlock .timerq)
    | some t => do
        let n ← s.heap t
        let s := match msg.handler with
          | some freeArg =>
              { s with freed := (freeArg, n.val.handlerArg) :: s.freed }
          | none => s
        let s ← s.timerDequeue t
        some (0, s.unlock .timerq)

/-- The loop of `del_all_timer`. -/
def dequeueAll : Nat → State → Option State
  | fuel, s =>
      match s.timerq.last with
      | none => some s
      | some t =>
          match fuel with
          | 0 => none
          | fuel + 1 => do
              let s ← s.timerDequeue t
              dequeueAll fuel s

/-- `del_all_timer`; `pthread_exit` ends the timer thread. -/
def delAllTimer (needDestrory : Bool) (s : State) : Option (Int × State) := do
  let s ← s.lock .timerq
  let s ← s.dequeueAll s.top
  let s := s.unlock .timerq
  some (0, if needDestrory then { s with running := false } else s)

/-- `handle_msg`. -/
def handleMsg (now : Timeval) (malloc : Bool) (msg : Request) (s : State) :
    Option (Int × Request × State) :=
  match msg.action with
  | .add => s.addTimernodeToList now malloc msg
  | .del => do
      let (ret, s) ← s.delTimernodeFromList msg
      some (ret, msg, s)
  | .destrory => do
      let (ret, s) ← s.delAllTimer true
      some (ret, msg, s)
  | .delAll => do
      let (ret, s) ← s.delAllTimer false
      some (ret, msg, s)
  | .max => some (0, msg, s)

/-! ## Expiry -/

/-- `add_timeout_list`. -/
def addTimeoutList (malloc : Bool) (hdl : Handler) (hdlArg : Arg)
    (s : State) : Option (Int × State) := do
  let s ← s.lock .timeout
  if malloc then do
    let (timeoutList, heap) ← pushFront s.top
      { handler := some hdl, handlerArg := hdlArg } s.timeoutList s.heap
    some (0, { s with timeoutList, heap, top := s.top + 1 }.unlock .timeout)
  else some (-1, s.unlock .timeout)

/-- The last block of `timer_execute`: somebody has to look at the list.  A
signal leaves nothing in the state. -/
def wakeWorker (create : Bool) (s : State) : Option State := do
  let s ← s.lock .timeout
  if s.timeoutThreadIsOn then some (s.unlock .timeout)
  else do
    let s := { s with timeoutThreadIsOn := true }.unlock .timeout
    if create then some { s with workers := s.workers + 1 }
    else do
      let s ← s.lock .timeout
      some ({ s with timeoutThreadIsOn := false }.unlock .timeout)

/-- `timer_execute`, with the outcomes of `malloc` and `pthread_create`. -/
def timerExecute (malloc create : Bool) (s : State) : Option State :=
  match s.timerq.first with
  | none => some s
  | some first => do
      let n ← s.heap first
      let s ← s.lock .timerq
      let s ← s.timerDequeue first
      let s := s.unlock .timerq
      match n.val.handler with
      | none => some s
      | some hdl => do
          let (ret, s) ← s.addTimeoutList malloc hdl n.val.handlerArg
          if ret ≠ 0 then some s else s.wakeWorker create

/-- `get_pending_list`. -/
def getPendingList (s : State) : Option (Option Ptr × State) := do
  let s ← s.lock .timeout
  let (ptr, timeoutList, heap) ← popBack s.timeoutList s.heap
  some (ptr, { s with timeoutList, heap }.unlock .timeout)

/-- `get_rest_time`; `none` is the return value `-1`. -/
def getRestTime (now : Timeval) (s : State) : Option (Option Timeval) :=
  match s.timerq.first with
  | none => some none
  | some first => do
      let n ← s.heap first
      if now.lessThan n.val.timeout then
        some (some (n.val.timeout.minus now))
      else some (some ⟨0, almostNow⟩)

end State

/-! ## The timer thread -/

/-- `timer_server_task` when it calls `unix_domain_accept_req`: the library,
what `time_ptr` points at, and what the clock said when that was computed. -/
structure Task where
  lib : State := {}
  timePtr : Option Timeval := none
  clock : Timeval

/-- How `unix_domain_accept_req` returns, and what the clock and the system
calls say until the next call. -/
inductive Wake where
  /-- it returns 0 -/
  | timeout (now : Timeval) (malloc create : Bool) (next : Timeval)
  /-- it returns a negative value -/
  | failed (next : Timeval)
  /-- it returns a socket, on which a message arrives or not -/
  | request (msg : Option Request) (now : Timeval) (malloc : Bool)
      (next : Timeval)

/-- Microseconds. -/
def Timeval.micros (t : Timeval) : Int := t.tvSec * 1000000 + t.tvUsec

/-- What `my_gettimeofday` fills in. -/
structure Timeval.Normalised (t : Timeval) : Prop where
  nonneg : 0 ≤ t.tvUsec
  lt : t.tvUsec < 1000000

/-- What the kernel promises of the clock and of `select`: the clock never
goes back, and a timeout is not reported before it is over. -/
def Wake.Possible (a : Task) : Wake → Prop
  | .timeout now _ _ next => next.Normalised ∧ now.Normalised ∧
      now.micros ≤ next.micros ∧
      ∃ timeout, a.timePtr = some timeout ∧
        a.clock.micros + timeout.micros ≤ now.micros
  | .failed next => next.Normalised ∧ a.clock.micros ≤ next.micros
  | .request _ now _ next => next.Normalised ∧ now.Normalised ∧
      a.clock.micros ≤ now.micros ∧ now.micros ≤ next.micros

/-- The part of a round before `check:`. -/
def Wake.handle (s : State) : Wake → Option State
  | .timeout _ malloc create _ => s.timerExecute malloc create
  | .failed _ => some s
  | .request none _ _ _ => some s
  | .request (some msg) now malloc _ =>
      (s.handleMsg now malloc msg).map fun r => r.2.2

/-- The reading of the clock in `get_rest_time`. -/
def Wake.next : Wake → Timeval
  | .timeout _ _ _ next | .failed next | .request _ _ _ next => next

/-- One round of `timer_server_task`. -/
def Task.step (e : Wake) (a : Task) : Option Task := do
  let lib ← e.handle a.lib
  let timePtr ← lib.getRestTime e.next
  some ⟨lib, timePtr, e.next⟩

/-- The timer thread, which starts when the clock says `clock`. -/
def timerThread (clock : Timeval) : Machine Task Wake where
  start := { clock }
  enabled := fun e a => a.lib.running = true ∧ e.Possible a
  step := Task.step

end ChessServer.LibTimer
