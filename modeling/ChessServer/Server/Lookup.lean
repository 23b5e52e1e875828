import ChessServer.Server.Board

/-!
# The board table of a hall

`GameHall::GetChessBoardByID` once more, with what the model of the server
leaves out: where `new` puts a board, and what `find(id)->second` is when there
is no entry for the id.  `std::map::find` does not throw; it returns `end()`,
and `second` is then whatever lies in memory there.
-/

namespace ChessServer.Lookup

/-- `GameHall`, with the boards that it has constructed.  The address of a
board is its place in `boards`, which holds the values of `chessBoardID`. -/
structure GameHall where
  chessBoardMaxNum : UInt32
  chessBoardInfo : Std.TreeMap UInt32 Nat := {}
  boards : List UInt32 := []
  /-- how often `second` of `end()` was read -/
  endReads : Nat := 0

namespace GameHall

/-- `GetChessValidBoardNum`. -/
def getChessValidBoardNum (hall : GameHall) : Nat := hall.chessBoardInfo.size

/-- `chessBoardInfo.find(id)->second`, where `behind` lies behind the last
entry; `none` is `NULL`. -/
def find (behind : Option Nat) (id : UInt32) (hall : GameHall) :
    Option Nat × GameHall :=
  match hall.chessBoardInfo[id]? with
  | some chessBoard => (some chessBoard, hall)
  | none => (behind, { hall with endReads := hall.endReads + 1 })

/-- `CreateChessBoard`. -/
def createChessBoard (id : UInt32) (hall : GameHall) : Bool × GameHall :=
  if hall.getChessValidBoardNum > hall.chessBoardMaxNum.toNat then (false, hall)
  else
    (true, { hall with
      boards := hall.boards ++ [id]
      chessBoardInfo :=
        hall.chessBoardInfo.insertIfNew id hall.boards.length })

/-- `GetChessBoardByID`. -/
def getChessBoardByID (behind : Option Nat) (id : UInt32) (hall : GameHall) :
    Option Nat × GameHall :=
  if id = 0 ∨ id > hall.chessBoardMaxNum then (none, hall)
  else
    let (chessBoard, hall) := hall.find behind id
    match chessBoard with
    | some chessBoard => (some chessBoard, hall)
    | none =>
        let (ret, hall) := hall.createChessBoard id
        if ret then hall.find behind id else (none, hall)

/-- `ChessBoard::GetChessBoardID` of the board at an address. -/
def getChessBoardID (hall : GameHall) (chessBoard : Nat) : Option UInt32 :=
  hall.boards[chessBoard]?

end GameHall

/-- A call of `GetChessBoardByID`, with the memory behind the map. -/
structure Call where
  id : UInt32
  behind : Option Nat := none

/-- The hall after some calls. -/
def hallAfter (chessBoardMaxNum : UInt32) (calls : Nat → Call) : Nat → GameHall
  | 0 => { chessBoardMaxNum }
  | n + 1 => ((hallAfter chessBoardMaxNum calls n).getChessBoardByID
      (calls n).behind (calls n).id).2

/-- What a call returns. -/
def returned (chessBoardMaxNum : UInt32) (calls : Nat → Call) (n : Nat) :
    Option Nat :=
  ((hallAfter chessBoardMaxNum calls n).getChessBoardByID
    (calls n).behind (calls n).id).1

end ChessServer.Lookup
