import ChessServer.Model.Layout

/-!
# The game at one table

What a board is for: up to three players with a status and a score, the
owner's mark, the clocks and the memory of the last capture.  `Act` lists
everything that can happen to a table and `Act.apply` says what it does, in
terms of chairs only.  The server's handlers are compared with these
functions; what holds of all runs of a table is proved here.
-/

namespace ChessServer

/-- Who sits on a chair. -/
structure Player where
  user : SessionId
  status : UserGameStatus
  score : UInt32
  deriving DecidableEq

/-- A board with the players it seats. -/
@[ext] structure Table where
  players : Seat → Option Player
  firstComeUserLocate : UInt32
  totalTime : UInt32
  singleStepTime : UInt32
  recentWinnerLocate : Location
  recentLoserLocate : Location

/-- The table at a board. -/
def World.table (w : World) (b : BoardPtr) : Table where
  players := fun seat => do
    let u ← (w.boards b).seat seat
    let s ← w.users u
    some ⟨u, s.status, s.userInfo.score⟩
  firstComeUserLocate := (w.boards b).firstComeUserLocate
  totalTime := (w.boards b).totalTime
  singleStepTime := (w.boards b).singleStepTime
  recentWinnerLocate := (w.boards b).recentWinnerLocate
  recentLoserLocate := (w.boards b).recentLoserLocate

namespace Table

/-! ## Looking at a table -/

/-- The status on a chair. -/
def status (t : Table) (seat : Seat) : Option UserGameStatus :=
  (t.players seat).map (·.status)

/-- Does the player on a chair pass a test of the status? -/
def passes (t : Table) (test : UserGameStatus → Bool) (seat : Seat) : Bool :=
  (t.status seat).any test

/-- How many players pass a test of the status. -/
def count (t : Table) (test : UserGameStatus → Bool) : Nat :=
  (t.passes test .left).toNat + (t.passes test .right).toNat +
    (t.passes test .bottom).toNat

/-- Is the player on a chair PLAYING? -/
def isPlaying (t : Table) (seat : Seat) : Bool :=
  t.passes (· == .playing) seat

/-- How many players are PLAYING. -/
def active (t : Table) : Nat := t.count (· == .playing)

/-- The chair of the only player PLAYING, if there is exactly one. -/
def sole (t : Table) : Option Seat :=
  match [Seat.left, Seat.right, Seat.bottom].filter t.isPlaying with
  | [seat] => some seat
  | _ => none

/-- A game is going on or is not yet cleared away. -/
def began (t : Table) : Bool :=
  decide (0 < t.count fun status =>
    decide (UserGameStatus.began.code < status.code))

/-! ## Changing a table -/

/-- Change the player on a chair. -/
def modify (t : Table) (seat : Seat) (f : Player → Player) : Table :=
  { t with players := Function.update t.players seat ((t.players seat).map f) }

/-- Change the player on the chair that a location names, if any. -/
def modifyAt (t : Table) (locate : Location) (f : Player → Player) : Table :=
  match seatAt locate with
  | some seat => t.modify seat f
  | none => t

/-- Assign a status. -/
def setStatus (status : UserGameStatus) (p : Player) : Player :=
  { p with status := status }

/-- Add to a score. -/
def gain (score : UInt32) (p : Player) : Player :=
  { p with score := p.score + score }

/-- Take from a score. -/
def lose (score : UInt32) (p : Player) : Player :=
  { p with score := p.score - score }

/-- The same change for everybody. -/
def modifyAll (t : Table) (f : Player → Player) : Table :=
  { t with players := fun seat => (t.players seat).map f }

/-- Everybody's game is over. -/
def endAll (t : Table) : Table := t.modifyAll (setStatus .ended)

/-- A last player PLAYING wins. -/
def crown (t : Table) : Table :=
  if t.active = 1 then
    t.modifyAll fun p =>
      if p.status = .playing then setStatus .ended (gain 10 p) else p
  else t

/-- Take a chair with status READY; the first to come owns the board. -/
def join (t : Table) (seat : Seat) (user : SessionId) (score : UInt32) :
    Table :=
  let t := { t with
    players := Function.update t.players seat (some ⟨user, .ready, score⟩) }
  if occupied t.players = 1 then
    { t with firstComeUserLocate := seat.location }
  else t

/-- Vacate a chair, and the ownership with it. -/
def vacate (t : Table) (seat : Seat) : Table :=
  { t with
    players := Function.update t.players seat none
    firstComeUserLocate :=
      if seat.location = t.firstComeUserLocate then locationMax
      else t.firstComeUserLocate }

/-- Leave the table; who leaves a running game ends it for all. -/
def leave (t : Table) (seat : Seat) : Table :=
  let left := (t.vacate seat).crown
  if t.isPlaying seat then left.endAll else left

/-- A rejected message: not in the game any more, then out. -/
def reject (t : Table) (seat : Seat) : Table :=
  (t.modify seat (setStatus .notStart)).leave seat

/-- Give up without leaving. -/
def surrender (t : Table) (seat : Seat) : Table :=
  if t.isPlaying seat then
    ((t.modify seat fun p => setStatus .ended (lose 30 p)).crown).endAll
  else (t.modify seat (setStatus .ended)).crown

/-- Remember the two sides of a capture. -/
def setRecent (t : Table) (winner loser : Location) : Table :=
  { t with recentWinnerLocate := winner, recentLoserLocate := loser }

/-- Remember, or forget, a capture and move its points. -/
def capture (t : Table) (m : MoveChess) : Table :=
  if m.isWinner then
    ((t.setRecent m.srcLocate m.targetLocate).modifyAt m.srcLocate
      (gain 10)).modifyAt m.targetLocate
        fun p => setStatus .ended (lose 10 p)
  else t.setRecent locationMax locationMax

/-- A move; the mover is done when nobody is left to play with. -/
def move (t : Table) (m : MoveChess) : Table :=
  let t := t.capture m
  if t.active > 1 then t else t.modifyAt m.srcLocate (setStatus .ended)

/-- An undo that was agreed to: the last capture is taken back. -/
def undo (t : Table) : Table :=
  if t.recentWinnerLocate ≠ locationMax then
    (t.modifyAt t.recentWinnerLocate (lose 10)).modifyAt t.recentLoserLocate
      fun p => setStatus .playing (gain 10 p)
  else t

/-- Set the clocks. -/
def setTime (t : Table) (total single : UInt32) : Table :=
  { t with totalTime := total, singleStepTime := single }

/-- The first comer's choice of the clocks. -/
def chooseTime (t : Table) (m : GameReadyReq) : Table :=
  match m.totalTime, m.singleStepTime with
  | some total, some single =>
      if m.srcUserLocate = t.firstComeUserLocate then t.setTime total single
      else t
  | _, _ => t

/-- A player is ready; the game starts when all three are. -/
def ready (t : Table) (m : GameReadyReq) : Table :=
  let t := (t.modifyAt m.srcUserLocate (setStatus .began)).chooseTime m
  if t.count (· == .began) = 3 then t.modifyAll (setStatus .playing) else t

/-- Another game, for a player whose last one is over; `began` is the state
of the board that the message names. -/
def again (t : Table) (seat : Seat) (began : Bool) : Table :=
  if began ∧ t.status seat = some .ended then t.modify seat (setStatus .ready)
  else t

end Table

/-! ## Acts -/

/-- What can happen to a table. -/
inductive Act where
  | join (seat : Seat) (user : SessionId) (score : UInt32)
  | leave (seat : Seat)
  | reject (seat : Seat)
  | surrender (seat : Seat)
  | move (m : MoveChess)
  | draw
  | undo
  | ready (m : GameReadyReq)
  | again (seat : Seat) (began : Bool)

/-- What an act does to its table. -/
def Act.apply (t : Table) : Act → Table
  | .join seat user score => t.join seat user score
  | .leave seat => t.leave seat
  | .reject seat => t.reject seat
  | .surrender seat => t.surrender seat
  | .move m => t.move m
  | .draw => t.endAll
  | .undo => t.undo
  | .ready m => t.ready m
  | .again seat began => t.again seat began

end ChessServer
