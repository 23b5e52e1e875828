import ChessServer.Server.World

/-!
# Who is where

The part of the server's state that decides whether its pointers are good:
which sessions are registered under which descriptor or wait in the pool,
who sits on which chair, and what each session believes about its own place.
The server's functions do far more, but on a `Layout` each of them is one of
the few operations below, and the invariants are stated and kept here.
-/

namespace ChessServer

/-! ## Places -/

/-- What a session knows of its place. -/
structure Place where
  clifd : Int
  thread : Option Nat
  bufev : Option Bytes
  bufInfo : ReadBufInfo
  locate : Location
  currChessBoard : Option BoardPtr
  stateMachine : Option StateType
  nextState : Option StateType
  deriving DecidableEq

/-- The place of a session. -/
def UserSession.place (s : UserSession) : Place where
  clifd := s.clifd
  thread := s.thread
  bufev := s.bufev
  bufInfo := s.bufInfo
  locate := s.locate
  currChessBoard := s.currChessBoard
  stateMachine := s.stateMachine
  nextState := s.nextState

/-- A session that serves a connection. -/
structure Place.Online (p : Place) : Prop where
  clifd : 0 ≤ p.clifd
  thread : p.thread.isSome
  bufev : p.bufev.isSome

/-- A session that waits in the pool. -/
structure Place.Idle (p : Place) : Prop where
  clifd : p.clifd = -1
  thread : p.thread = none
  bufev : p.bufev = none
  bufInfo : p.bufInfo = {}
  currChessBoard : p.currChessBoard = none
  stateMachine : p.stateMachine = none
  nextState : p.nextState = none

/-- Between two events: seated exactly in the game state, where a session
that another user's message took off its board still has to leave it. -/
def Place.Settled (p : Place) : Prop :=
  if p.currChessBoard.isSome then
    p.stateMachine = some .gamePlay ∧ p.nextState = some .gamePlay
  else
    (p.nextState = p.stateMachine ∧ p.stateMachine ≠ some .gamePlay) ∨
      (p.stateMachine = some .gamePlay ∧ p.nextState = some .gameReady)

/-- The state object that follows agrees with the seat: what a handler that
keeps its session leaves behind. -/
def Place.Pending (p : Place) : Prop :=
  p.stateMachine.isSome ∧ p.nextState.isSome ∧
    (p.currChessBoard.isSome ↔ p.nextState = some .gamePlay)

/-! ## Layouts -/

/-- The server's state as far as `Place`s and seats are concerned. -/
structure Layout where
  place : SessionId → Option Place
  seats : BoardPtr → Seat → Option SessionId
  num : BoardPtr → UInt32
  registry : Int → Option SessionId
  pool : List SessionId
  nextUser : SessionId

/-- The layout of a world. -/
def World.layout (w : World) : Layout where
  place := fun u => (w.users u).map UserSession.place
  seats := fun b => (w.boards b).seat
  num := fun b => (w.boards b).currUserNum
  registry := fun fd => w.fdSessionMap[fd]?
  pool := w.sessionList
  nextUser := w.nextUser

/-- How many of the three chairs hold somebody. -/
def occupied {α : Type} (seats : Seat → Option α) : Nat :=
  (seats .left).isSome.toNat + (seats .right).isSome.toNat +
    (seats .bottom).isSome.toNat

/-- The number of occupied chairs after one of them changed hands. -/
theorem occupied_update {α : Type} (seats : Seat → Option α) (seat : Seat)
    (user : Option α) :
    occupied (Function.update seats seat user) + (seats seat).isSome.toNat =
      occupied seats + user.isSome.toNat := by
  cases seat <;> simp [occupied] <;> omega

theorem occupied_le {α : Type} (seats : Seat → Option α) :
    occupied seats ≤ 3 := by
  unfold occupied
  have := Bool.toNat_le (seats .left).isSome
  have := Bool.toNat_le (seats .right).isSome
  have := Bool.toNat_le (seats .bottom).isSome
  omega

namespace Layout

/-- What a session has received and not yet handled. -/
def input (l : Layout) (u : SessionId) : Option (Option Bytes × ReadBufInfo) :=
  (l.place u).map fun p => (p.bufev, p.bufInfo)

/-- The registry and the pool share out the sessions; `absent` is a session
that is on its way from one to the other. -/
structure Registry (absent : Option SessionId) (l : Layout) : Prop where
  registered : ∀ {fd u}, l.registry fd = some u →
    ∃ p, l.place u = some p ∧ p.clifd = fd ∧ p.Online
  pooled : ∀ {u}, u ∈ l.pool → ∃ p, l.place u = some p ∧ p.Idle
  nodup : l.pool.Nodup
  placed : ∀ {u p}, l.place u = some p → some u ≠ absent →
    u ∈ l.pool ∨ l.registry p.clifd = some u
  fresh : ∀ {u}, l.nextUser ≤ u → l.place u = none

/-- Chairs and sessions point at each other. -/
structure Seating (l : Layout) : Prop where
  seated : ∀ {b seat u}, l.seats b seat = some u →
    ∃ p, l.place u = some p ∧ p.currChessBoard = some b ∧
      p.locate = seat.location
  onBoard : ∀ {u p b}, l.place u = some p → p.currChessBoard = some b →
    ∃ seat : Seat, p.locate = seat.location ∧ l.seats b seat = some u
  count : ∀ b, (l.num b).toNat = occupied (l.seats b)

/-- Every session but `busy` is settled. -/
def Settled (busy : Option SessionId) (l : Layout) : Prop :=
  ∀ u p, l.place u = some p → some u ≠ busy → p.Settled

/-- What holds between two events. -/
structure Inv (l : Layout) : Prop where
  registry : l.Registry none
  seating : l.Seating
  settled : l.Settled none

/-! ## Operations -/

/-- Change the place of one session. -/
def modify (l : Layout) (u : SessionId) (f : Place → Place) : Layout :=
  { l with place := Function.update l.place u ((l.place u).map f) }

/-- Assign a chair and the board's number of users. -/
def setSeat (l : Layout) (b : BoardPtr) (seat : Seat)
    (user : Option SessionId) (num : UInt32) : Layout :=
  { l with
    seats := Function.update l.seats b (Function.update (l.seats b) seat user)
    num := Function.update l.num b num }

/-- Take a chair on a board. -/
def sit (l : Layout) (u : SessionId) (b : BoardPtr) (seat : Seat) : Layout :=
  (l.setSeat b seat (some u) (l.num b + 1)).modify u fun p =>
    { p with
      locate := seat.location
      currChessBoard := some b
      nextState := some .gamePlay }

/-- Vacate a chair. -/
def vacate (l : Layout) (b : BoardPtr) (seat : Seat) : Layout :=
  l.setSeat b seat none (l.num b - 1)

/-- Leave the board and go back to the hall. -/
def stand (l : Layout) (u : SessionId) (b : BoardPtr) (seat : Seat) :
    Layout :=
  (l.vacate b seat).modify u fun p =>
    { p with currChessBoard := none, nextState := some .gameReady }

end Layout

/-- The place of a session that has been destructed. -/
def Place.reset (p : Place) : Place :=
  { p with
    clifd := -1
    thread := none
    bufev := none
    bufInfo := {}
    currChessBoard := none
    stateMachine := none
    nextState := none }

namespace Layout

/-- Forget a descriptor. -/
def unregister (l : Layout) (fd : Int) : Layout :=
  { l with registry := Function.update l.registry fd none }

/-- Leave the board, if on one, and become an idle session. -/
def destruct (l : Layout) (u : SessionId) : Layout :=
  match (l.place u).bind (·.currChessBoard), (l.place u).bind (seatAt ·.locate) with
  | some b, some seat => (l.vacate b seat).modify u Place.reset
  | _, _ => l.modify u Place.reset

/-- Join the pool. -/
def toPool (l : Layout) (u : SessionId) : Layout :=
  { l with pool := u :: l.pool }

/-- Delete the last session of the pool. -/
def trimOne (l : Layout) : Layout :=
  match l.pool.getLast? with
  | none => l
  | some u =>
      { l with
        place := Function.update l.place u none
        pool := l.pool.dropLast }

/-- Construct one more session. -/
def newSession (l : Layout) : Layout :=
  { l with
    place := Function.update l.place l.nextUser (some (UserSession.place {}))
    pool := l.pool ++ [l.nextUser]
    nextUser := l.nextUser + 1 }

/-- The pool after `RecycleSession` has looked at its length. -/
def trimmedPool (pool : List SessionId) : List SessionId :=
  if pool.length ≥ 2 * connectionMaxStep then
    pool.take (pool.length - connectionMaxStep)
  else pool

/-- How sessions move between the pool and the registry during one event: a
registered session goes to the front of the pool, or the first one of the
pool, which may just have been filled, gets a descriptor. -/
inductive Transfer (l l' : Layout) : Prop where
  | stay (hregistry : l'.registry = l.registry) (hpool : l'.pool = l.pool)
  | recycle {u : SessionId} {fd : Int} (hreg : l.registry fd = some u)
      (hregistry : l'.registry = Function.update l.registry fd none)
      (hpool : l'.pool = trimmedPool (u :: l.pool))
  | serve {u : SessionId} {fd : Int} {rest : List SessionId}
      (hfree : l.registry fd = none)
      (hregistry : l'.registry = Function.update l.registry fd (some u))
      (hpool : l'.pool = rest)
      (hfilled : l.pool = u :: rest ∨
        l.pool = [] ∧ rest.length + 1 = connectionMaxStep)

/-- Serve a descriptor with the first session of the pool. -/
def register (l : Layout) (fd : Int) (u : SessionId) : Layout :=
  { l with
    place := Function.update l.place u ((l.place u).map fun p =>
      { p with clifd := fd, thread := some 0, bufev := some [] })
    registry := Function.update l.registry fd (some u)
    pool := l.pool.tail }

end Layout

end ChessServer
