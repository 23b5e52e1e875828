import ChessServer.Server.Timer

/-!
# The thread that calls the handlers

`time_out_task` takes the handlers off `timeout_list`, and waits on
`timeout_cond` when there are none.  Here it runs against the timer thread.
A step is what happens between the locking and the unlocking of a mutex, so
two blocks of one thread may have any number of blocks of the others between
them.
-/

namespace ChessServer.LibTimer

open DList

namespace State

/-- The loop of `get_pending_list_count`. -/
def countPending (h : Heap Timer) : Nat → Option Ptr → Option Nat
  | _, none => some 0
  | 0, some _ => none
  | fuel + 1, some ptr => do
      let n ← h ptr
      let count ← countPending h fuel n.next
      some (count + 1)

/-- `get_pending_list_count`. -/
def getPendingListCount (s : State) : Option (Nat × State) := do
  let s ← s.lock .timeout
  let count ← countPending s.heap s.top s.timeoutList.first
  some (count, s.unlock .timeout)

/-- `get_waite_interval`, at a time; the seconds are cut to an `int`. -/
def getWaiteInterval (now : Timeval) (s : State) : Option (Int × State) := do
  let s ← s.lock .timerq
  match s.timerq.last with
  | none => some (0, s.unlock .timerq)
  | some last => do
      let n ← s.heap last
      let timeintval :=
        if now.lessThan n.val.timeout then n.val.timeout.minus now else ⟨0, 0⟩
      let interval := (Int32.ofInt timeintval.tvSec).toInt
      some (max 0 (min 600 interval), s.unlock .timerq)

/-- The handler of a node is called, and the node is freed. -/
def callHandler (firstArg : Ptr) (s : State) :
    Option (Option (Handler × Arg) × State) := do
  let n ← s.heap firstArg
  match n.val.handler with
  | some handler =>
      some (some (handler, n.val.handlerArg),
        { s with heap := Function.update s.heap firstArg none })
  | none => some (none, s)

/-! ## The blocks of `timer_execute` -/

/-- The first timer is taken; `none` is a `NULL` handler. -/
def takeFirst (s : State) : Option (Option (Handler × Arg) × State) :=
  match s.timerq.first with
  | none => some (none, s)
  | some first => do
      let n ← s.heap first
      let s ← s.lock .timerq
      let s ← s.timerDequeue first
      some (n.val.handler.map fun hdl => (hdl, n.val.handlerArg),
        s.unlock .timerq)

/-- The block that looks for a worker: whether one has to be created.  If not,
`timeout_cond` is signalled. -/
def claimWorker (s : State) : Option (Bool × State) := do
  let s ← s.lock .timeout
  if s.timeoutThreadIsOn then some (false, s.unlock .timeout)
  else some (true, { s with timeoutThreadIsOn := true }.unlock .timeout)

end State

/-! ## Threads -/

/-- Where the timer thread is. -/
inductive TimerTask where
  /-- in `unix_domain_accept_req` -/
  | select
  /-- before `add_timeout_list` -/
  | expired (hdl : Handler) (hdlArg : Arg)
  /-- before the block that looks for a worker -/
  | queued
  /-- before `pthread_create` -/
  | create
  | exited
  deriving DecidableEq

/-- Where a thread is that runs `time_out_task`. -/
inductive Worker where
  /-- before `get_pending_list_count` -/
  | count
  /-- before `get_waite_interval` -/
  | interval
  /-- before the block that waits -/
  | wait (waiteInterval : Int)
  /-- in `pthread_cond_timedwait`, without the mutex -/
  | waiting
  /-- in `pthread_cond_timedwait`, which is about to return 0 -/
  | signalled
  /-- in `pthread_cond_timedwait`, which is about to return `ETIMEDOUT` -/
  | timedOut
  /-- before `get_pending_list` -/
  | pending
  /-- before the handler is called -/
  | handle (firstArg : Ptr)
  deriving DecidableEq

/-- The next block of `time_out_task`: where the thread is then, and the
handler it has called.  No place is left after `pthread_exit`. -/
def Worker.block (now : Timeval) (s : State) :
    Worker → Option (Option Worker × Option (Handler × Arg) × State)
  | .count => do
      let (n, s) ← s.getPendingListCount
      some (some (if n = 0 then .interval else .pending), none, s)
  | .interval => do
      let (waiteInterval, s) ← s.getWaiteInterval now
      some (some (.wait waiteInterval), none, s)
  | .wait _ => do
      let s ← s.lock .timeout
      some (some .waiting, none, s.unlock .timeout)
  | .waiting => some (some .waiting, none, s)
  | .signalled => do
      let s ← s.lock .timeout
      some (some .count, none, s.unlock .timeout)
  | .timedOut => do
      let s ← s.lock .timeout
      some (none, none, { s with timeoutThreadIsOn := false }.unlock .timeout)
  | .pending => do
      let (firstArg, s) ← s.getPendingList
      match firstArg with
      | none => some (some .count, none, s)
      | some firstArg => some (some (.handle firstArg), none, s)
  | .handle firstArg => do
      let (called, s) ← s.callHandler firstArg
      some (some .count, called, s)

/-- `pthread_cond_signal`: a thread that waits goes on.  Without one the
signal is lost. -/
def condSignal : List Worker → List Worker
  | [] => []
  | .waiting :: workers => .signalled :: workers
  | w :: workers => w :: condSignal workers

/-- The timer thread and the workers that have not exited. -/
structure Threads where
  lib : State := {}
  task : TimerTask := .select
  workers : List Worker := []
  /-- the handlers that were called, newest first -/
  called : List (Handler × Arg) := []

/-- Who goes on.  `malloc` and `pthread_create` succeed. -/
inductive Turn where
  /-- the timer thread handles a request -/
  | request (msg : Request) (now : Timeval)
  /-- the timer thread's `select` times out -/
  | timeout
  /-- the timer thread, inside `timer_execute` -/
  | task
  /-- a worker -/
  | worker (i : Nat) (now : Timeval)
  /-- a worker's wait is over: its time is up, or it is woken for no reason -/
  | woken (i : Nat) (timedOut : Bool)
  deriving DecidableEq

/-- The next block of the timer thread inside `timer_execute`. -/
def Threads.taskBlock (s : Threads) : Option Threads :=
  match s.task with
  | .expired hdl hdlArg => do
      let (ret, lib) ← s.lib.addTimeoutList true hdl hdlArg
      some { s with lib, task := if ret ≠ 0 then .select else .queued }
  | .queued => do
      let (create, lib) ← s.lib.claimWorker
      some (if create then { s with lib, task := .create }
        else { s with lib, task := .select, workers := condSignal s.workers })
  | .create =>
      some { s with
        lib := { s.lib with workers := s.lib.workers + 1 }
        task := .select
        workers := s.workers ++ [.count] }
  | .select | .exited => some s

/-- One step. -/
def Threads.step (e : Turn) (s : Threads) : Option Threads :=
  match e with
  | .request msg now => do
      let (_, _, lib) ← s.lib.handleMsg now true msg
      some { s with lib, task := if lib.running then .select else .exited }
  | .timeout => do
      let (hdl, lib) ← s.lib.takeFirst
      match hdl with
      | none => some { s with lib }
      | some (hdl, hdlArg) => some { s with lib, task := .expired hdl hdlArg }
  | .task => s.taskBlock
  | .worker i now => do
      let w ← s.workers[i]?
      let (w', called, lib) ← w.block now s.lib
      let workers := match w' with
        | some w' => s.workers.set i w'
        | none => s.workers.eraseIdx i
      some { s with lib, workers, called := called.toList ++ s.called }
  | .woken i timedOut =>
      some { s with
        workers := s.workers.set i (if timedOut then .timedOut else .signalled) }

/-- Who can go on. -/
def Threads.enabled (e : Turn) (s : Threads) : Prop :=
  match e with
  | .request _ now => s.task = .select ∧ now.Normalised
  | .timeout => s.task = .select
  | .task => s.task ≠ .select ∧ s.task ≠ .exited
  | .worker i _ => ∃ w ∈ s.workers[i]?, w ≠ .waiting
  | .woken i _ => s.workers[i]? = some .waiting

/-- The library at work. -/
def threads : Machine Threads Turn where
  start := {}
  enabled := fun e s => s.enabled e
  step := Threads.step

end ChessServer.LibTimer
