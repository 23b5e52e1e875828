import ChessServer.Server.Worker

/-!
# The library in use

The requests of the functions that callers of libtimer call, and the library
as they see it: the timer thread handles one request or one expiry after the
other, and the worker takes one handler after the other off `timeout_list`
and calls it.
-/

namespace ChessServer.LibTimer

open DList

/-! ## Requests -/

/-- The request of `timer_add`, if it makes one. -/
def timerAdd (sec usec : Int) (hndlr : Option Handler) (hndlrArg : Arg) :
    Option Request :=
  if hndlr = none then none
  else if sec < 0 ∨ usec < 0 ∨ (sec = 0 ∧ usec = 0) then none
  else some {
    action := .add
    handler := hndlr
    handlerArg := hndlrArg
    timeout := ⟨sec, usec⟩ }

/-- The request of `timer_rem`, if it makes one. -/
def timerRem (id : Int32) (freeArg : Option Handler) : Option Request :=
  if id < 0 then none
  else some { action := .del, id, handler := freeArg }

/-- The request of `timer_clear`. -/
def timerClear : Request where
  action := .delAll

/-! ## Use -/

/-- The library, and the handlers that were called, oldest first. -/
structure Service where
  lib : State := {}
  called : List (Handler × Arg) := []

/-- What happens next.  `malloc` and `pthread_create` succeed. -/
inductive Use where
  | add (sec usec : Int) (hndlr : Option Handler) (hndlrArg : Arg)
      (now : Timeval)
  | rem (id : Int32) (freeArg : Option Handler)
  | clear
  /-- the timer thread's `select` times out -/
  | expire
  /-- the worker takes a handler and calls it -/
  | pop

/-- The timer thread handles a request; only an addition reads the clock. -/
def Service.request (now : Timeval) (msg : Request) (s : Service) :
    Option Service := do
  let (_, _, lib) ← s.lib.handleMsg now true msg
  some { s with lib }

/-- The body of the loop of `time_out_task`, when it does not wait. -/
def Service.pop (s : Service) : Option Service := do
  let (firstArg, lib) ← s.lib.getPendingList
  match firstArg with
  | none => some { s with lib }
  | some firstArg => do
      let (called, lib) ← lib.callHandler firstArg
      some { lib, called := s.called ++ called.toList }

def Service.step (e : Use) (s : Service) : Option Service :=
  match e with
  | .add sec usec hndlr hndlrArg now =>
      match timerAdd sec usec hndlr hndlrArg with
      | none => some s
      | some msg => s.request now msg
  | .rem id freeArg =>
      match timerRem id freeArg with
      | none => some s
      | some msg => s.request ⟨0, 0⟩ msg
  | .clear => s.request ⟨0, 0⟩ timerClear
  | .expire => do
      let lib ← s.lib.timerExecute true true
      some { s with lib }
  | .pop => s.pop

/-- Any order of uses, at any times. -/
def service : Machine Service Use where
  start := {}
  enabled := fun e _ =>
    match e with
    | .add _ _ _ _ now => now.Normalised
    | .rem _ _ | .clear | .expire | .pop => True
  step := Service.step

end ChessServer.LibTimer
