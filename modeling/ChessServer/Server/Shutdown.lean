import ChessServer.Server.Thread

/-!
# The life of the process

What follows the event loop: `WorkThread::Run` sweeps the worker's sessions
into the pool, and the destructor of `MainThread` deletes the pool.
-/

namespace ChessServer

/-- One round of the loop of `WorkThread::DestrotiedSessions`: the first
session of the map is recycled, and only then is its entry erased. -/
def destrotiedSession (env : Env) (w : World) : Option World :=
  match w.fdSessionMap.toList with
  | [] => some w
  | (fd, session) :: _ => do
      let w ← recycleSession env session w
      some { w with fdSessionMap := w.fdSessionMap.erase fd }

/-- `DestrorySessionsFromPool(0, true)`. -/
def destroryAllSessions (env : Env) (w : World) : Option World := do
  let w ← w.sessionList.foldlM (fun w session => do
    let w ← destructResource env session w
    some (w.deleteSession session)) w
  some { w with sessionList := [] }

/-- How far the process has come. -/
inductive Phase where
  /-- `event_base_dispatch` -/
  | running
  /-- `DestrotiedSessions` -/
  | sweeping
  /-- the worker has returned -/
  | joined
  /-- `MainThread::~MainThread` is done -/
  | gone
  deriving DecidableEq

/-- The server with the phase its worker is in. -/
structure Process where
  world : World
  phase : Phase

/-- What can happen next. -/
inductive Life where
  | serve (e : Event)
  /-- `COMMAND_NOTIFY_QUIT_LOOP` -/
  | quit
  | sweep
  | join
  | exit
  deriving DecidableEq

/-- When it can happen: the sweep goes on while the map has entries. -/
def Life.Enabled (p : Process) : Life → Prop
  | .serve e => p.phase = .running ∧ e.Enabled p.world
  | .quit => p.phase = .running
  | .sweep => p.phase = .sweeping ∧ p.world.fdSessionMap.toList ≠ []
  | .join => p.phase = .sweeping ∧ p.world.fdSessionMap.toList = []
  | .exit => p.phase = .joined

instance (p : Process) (l : Life) : Decidable (l.Enabled p) :=
  match l with
  | .serve e => inferInstanceAs (Decidable (p.phase = .running ∧ e.Enabled p.world))
  | .quit => inferInstanceAs (Decidable (p.phase = .running))
  | .sweep => inferInstanceAs
      (Decidable (p.phase = .sweeping ∧ p.world.fdSessionMap.toList ≠ []))
  | .join => inferInstanceAs
      (Decidable (p.phase = .sweeping ∧ p.world.fdSessionMap.toList = []))
  | .exit => inferInstanceAs (Decidable (p.phase = .joined))

/-- One step of the process.  `join` is the `clear` after the loop. -/
def Process.step (env : Env) (l : Life) (p : Process) : Option Process :=
  match l with
  | .serve e => (p.world.step env e).map fun w => ⟨w, .running⟩
  | .quit => some ⟨p.world, .sweeping⟩
  | .sweep => (destrotiedSession env p.world).map fun w => ⟨w, .sweeping⟩
  | .join => some ⟨{ p.world with fdSessionMap := {} }, .joined⟩
  | .exit => (destroryAllSessions env p.world).map fun w => ⟨w, .gone⟩

/-- The whole process, as a machine. -/
def process (env : Env) : Machine Process Life where
  start := ⟨World.init, .running⟩
  enabled := fun l p => l.Enabled p
  step := Process.step env

end ChessServer
