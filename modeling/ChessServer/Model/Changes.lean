import Mathlib.Logic.Relation
import ChessServer.Model.Layout
import ChessServer.Server.Thread

/-!
# Elementary changes

Whatever the worker does during one event is a sequence of assignments to
the memory of the server, writes to clients and statements to the database.
`Change u` lists those that occur while an event of session `u` is handled,
each with what the source has made sure of when it gets there; an invariant
of the whole server is an invariant of each of them.
-/

namespace ChessServer

/-! ## What is sent -/

/-- The board's count of its users is right. -/
def ChessBoard.Counted (board : ChessBoard) : Prop :=
  board.currUserNum.toNat = occupied board.seat

/-- Every board's count of its users is right. -/
def World.Counted (w : World) : Prop := ∀ b, (w.boards b).Counted

/-- How many of the three user entries are not marked empty. -/
def ChessBoardInfo.users (info : ChessBoardInfo) : Nat :=
  (!info.leftUser.chessBoardEmpty).toNat +
    (!info.rightUser.chessBoardEmpty).toNat +
    (!info.bottomUser.chessBoardEmpty).toNat

/-- `people_num` is the number of users shown. -/
def ChessBoardInfo.Sound (info : ChessBoardInfo) : Prop :=
  info.peopleNum.toNat = info.users

/-- The snapshots of boards in a hall are right. -/
def HallInfo.Sound (info : HallInfo) : Prop :=
  ∀ board ∈ info.chessBoard, board.Sound

/-- Every snapshot of a board in a message is right. -/
def Payload.Sound : Payload → Prop
  | .chessBoardInfo info => info.Sound
  | .hallInfo info => info.Sound
  | .gameHallSumary m => ∀ info ∈ m.hallInfo, info.Sound
  | .requestPlayReply m => ∀ info ∈ m.chessBoard, info.Sound
  | _ => True

/-! ## What is asked of the database -/

/-- An `UPDATE` statement. -/
def isUpdate (sql : Bytes) : Bool := (lit "UPDATE").isPrefixOf sql

/-- The session has logged in and seen the pictures. -/
def World.InHall (w : World) (u : SessionId) : Prop :=
  ∃ s, w.users u = some s ∧
    (s.stateMachine = some .gameReady ∨ s.stateMachine = some .gamePlay)

/-! ## Changes -/

/-- One change while an event of session `u` is handled. -/
inductive Change (u : SessionId) (w : World) : World → Prop where
  | send (m : Sent) (hsound : w.Counted → m.body.Sound) :
      Change u w { w with sent := m :: w.sent }
  | buffer (v : SessionId) (size : Nat) : Change u w (w.getBuffer v size)
  | publish {hall id : UInt32} (hhall : getGameHall hall = some hall)
      (hid : id ≠ 0) (hmax : id ≤ (w.halls hall).chessBoardMaxNum) :
      Change u w (w.createChessBoard hall id).2
  | read {sql : Bytes} (hsql : isUpdate sql = false) :
      Change u w { w with sqlLog := sql :: w.sqlLog }
  | update (sql : Bytes) (hu : w.InHall u) :
      Change u w { w with sqlLog := sql :: w.sqlLog }
  | request (email : Bytes) :
      Change u w { w with findPwd := email :: w.findPwd }
  /-- a new status for a user on a chair -/
  | mark {b : BoardPtr} {seat : Seat} {v : SessionId} {s : UserSession}
      (status : UserGameStatus) (hs : w.users v = some s)
      (hseat : (w.boards b).seat seat = some v) :
      Change u w (w.setUser v { s with status := status })
  /-- a new score for a user on a chair -/
  | score {b : BoardPtr} {seat : Seat} {v : SessionId} {s : UserSession}
      (score : UInt32) (hs : w.users v = some s)
      (hseat : (w.boards b).seat seat = some v) :
      Change u w
        (w.setUser v { s with userInfo := { s.userInfo with score := score } })
  /-- clocks, or the memory of a capture -/
  | note {b : BoardPtr} {board : ChessBoard}
      (hseat : board.seat = (w.boards b).seat)
      (hnum : board.currUserNum = (w.boards b).currUserNum) :
      Change u w (w.modifyBoard b fun _ => board)
  /-- a user on a chair gets up -/
  | vacate {b : BoardPtr} {seat : Seat} {v : SessionId} {s : UserSession}
      (hs : w.users v = some s) (hseat : (w.boards b).seat seat = some v)
      (hlocate : s.locate = seat.location) (hstatus : s.status = .exited) :
      Change u w
        (w.modifyBoard b fun board => (board.leaveOutRoom s.locate).2)
  /-- who got up is told to go back to the hall -/
  | release {v : SessionId} {s : UserSession} (hs : w.users v = some s)
      (hboard : s.currChessBoard.isSome) :
      Change u w (w.setUser v { s with nextState := some .gameReady })
  | clear {v : SessionId} {s : UserSession} (hs : w.users v = some s)
      (hboard : s.currChessBoard.isSome)
      (hseat : ∀ b seat, (w.boards b).seat seat ≠ some v) :
      Change u w (w.setUser v { s with currChessBoard := none })
  /-- a message turned down in the game state -/
  | reject {s : UserSession} (hs : w.users u = some s) :
      Change u w (w.setUser u { s with status := .notStart })
  /-- a row of `users_info`, or nothing, for a session that logs in -/
  | load {s : UserSession} (info : UsersInfo) (hs : w.users u = some s)
      (hstate : s.stateMachine = some .auth) :
      Change u w (w.setUser u { s with userInfo := info })
  /-- a user's own data -/
  | edit {s : UserSession} {info : UsersInfo} (hs : w.users u = some s)
      (hu : w.InHall u) (haccount : info.account = s.userInfo.account)
      (hscore : info.score = s.userInfo.score) :
      Change u w (w.setUser u { s with userInfo := info })
  /-- the picture that is being downloaded -/
  | download {s : UserSession} (fp : Option Bytes) (hs : w.users u = some s)
      (hstate : s.stateMachine = some .downAd) :
      Change u w (w.setUser u { s with adImgFp := fp })
  /-- the state object that follows -/
  | advance {s : UserSession} {state next : StateType}
      (hs : w.users u = some s) (hstate : s.stateMachine = some state)
      (hnext : (state, next) ∈ [(.auth, .downAd), (.downAd, .gameReady),
        (.gameReady, .gamePlay), (.gamePlay, .gameReady)]) :
      Change u w (w.setUser u { s with nextState := some next })
  /-- a chair is asked for -/
  | seek {s : UserSession} (locate : Location) (hs : w.users u = some s)
      (hstate : s.stateMachine = some .gameReady) :
      Change u w (w.setUser u { s with locate := locate })
  /-- and granted -/
  | take {b : BoardPtr} {seat : Seat} {s : UserSession}
      (hs : w.users u = some s) (hlocate : s.locate = seat.location)
      (hstate : s.stateMachine = some .gameReady)
      (hfree : (w.boards b).seat seat = none)
      (hroom : (w.boards b).hasFullUsers = false)
      (hknown : ∃ hall id : UInt32,
        (w.halls hall).chessBoardInfo[id]? = some b) :
      Change u w (w.modifyBoard b fun board =>
        { board.setSeat seat (some u) with
          currUserNum := board.currUserNum + 1 })
  | enter {b : BoardPtr} {seat : Seat} {s : UserSession}
      (hs : w.users u = some s)
      (hseat : (w.boards b).seat seat = some u) :
      Change u w (w.setUser u { s with currChessBoard := some b })
  /-- bytes that arrived, and the header state -/
  | receive {s : UserSession} (bufev : Option Bytes) (info : ReadBufInfo)
      (hs : w.users u = some s) :
      Change u w (w.setUser u { s with bufev := bufev, bufInfo := info })
  /-- the first message of a connection -/
  | start {s : UserSession} (hs : w.users u = some s)
      (hclifd : s.clifd ≠ -1) (hstate : s.stateMachine = none) :
      Change u w (w.setUser u
        { s with stateMachine := some .auth, nextState := some .auth })
  /-- the state object is exchanged -/
  | switch {s : UserSession} {state next : StateType}
      (hs : w.users u = some s) (hstate : s.stateMachine = some state)
      (hnext : s.nextState = some next) :
      Change u w (w.setUser u { s with stateMachine := some next })
  /-- a connection is closed -/
  | unregister (fd : Int) :
      Change u w { w with fdSessionMap := w.fdSessionMap.erase fd }
  | destruct {v : SessionId} {s : UserSession} (hs : w.users v = some s)
      (hboard : s.currChessBoard = none)
      (hseat : ∀ b seat, (w.boards b).seat seat ≠ some v) :
      Change u w (w.setUser v s.destruct)
  | recycle : Change u w { w with sessionList := u :: w.sessionList }
  | delete {v : SessionId} (hlast : w.sessionList.getLast? = some v) :
      Change u w { w.deleteSession v with
        sessionList := w.sessionList.dropLast }
  /-- a connection is accepted -/
  | construct : Change u w w.newSession
  | serve {s : UserSession} {rest : List SessionId} {fd : Int} (hfd : 0 ≤ fd)
      (hpool : w.sessionList = u :: rest) (hs : w.users u = some s) :
      Change u w
        { w.setUser u { s with clifd := fd, thread := some 0, bufev := some [] }
          with
          sessionList := rest
          fdSessionMap := w.fdSessionMap.insertIfNew fd u }

/-- A sequence of changes. -/
def Changes (u : SessionId) : World → World → Prop :=
  Relation.ReflTransGen (Change u)

namespace Changes

variable {u : SessionId}

theorem refl (w : World) : Changes u w w := Relation.ReflTransGen.refl

theorem trans {w₁ w₂ w₃ : World} (h₁ : Changes u w₁ w₂)
    (h₂ : Changes u w₂ w₃) : Changes u w₁ w₃ :=
  Relation.ReflTransGen.trans h₁ h₂

theorem single {w w' : World} (h : Change u w w') : Changes u w w' :=
  Relation.ReflTransGen.single h

/-- What every change keeps, a sequence of changes keeps. -/
theorem invariant {I : World → Prop}
    (hkeep : ∀ {w w'}, I w → Change u w w' → I w') {w w' : World}
    (hw : I w) (h : Changes u w w') : I w' := by
  induction h with
  | refl => exact hw
  | tail _ hchange ih => exact hkeep ih hchange

end Changes

end ChessServer
