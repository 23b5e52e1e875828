/-!
# Constants and enumerations

The types of `usersession.h` and `state.h` that every later module shares.
Machine integers keep their widths: `u_int32` is `UInt32`, the `int32`
fields of the protocol are `Int32`, and a C++ enumeration whose values are
produced by casting a client's integer (`Location`) stays an integer, since
a cast does not reject what the enumeration does not name.
-/

namespace ChessServer

/-- A byte string: `std::string`, a socket buffer or a C buffer. -/
abbrev Bytes := List UInt8

/-- The bytes of a string literal of the source. -/
def lit (s : String) : Bytes := s.toUTF8.toList

/-- `DATA_HEAD_LENGTH`: two `u_int32`. -/
def dataHeadLength : Nat := 8

/-- `MAX_DATA_LENGTH`. -/
def maxDataLength : Nat := dataHeadLength + 8192

/-! ## Seats -/

/-- `Location` as the compiler lays it out, an unsigned integer. -/
abbrev Location := UInt32

/-- `LOCATION_LEFT`, which is also `LOCATION_UNKNOWN`. -/
def locationLeft : Location := 0

/-- `LOCATION_RIGHT`. -/
def locationRight : Location := 1

/-- `LOCATION_BOTTOM`. -/
def locationBottom : Location := 2

/-- `LOCATION_MAX`. -/
def locationMax : Location := 3

/-- The three chairs of a board. -/
inductive Seat where
  | left
  | right
  | bottom
  deriving DecidableEq, Repr

/-- The enumerator that names a chair. -/
def Seat.location : Seat → Location
  | .left => locationLeft
  | .right => locationRight
  | .bottom => locationBottom

/-- The chair a location names, if it names one. -/
def seatAt (locate : Location) : Option Seat :=
  if locate = locationLeft then some .left
  else if locate = locationRight then some .right
  else if locate = locationBottom then some .bottom
  else none

@[simp] theorem seatAt_location (seat : Seat) :
    seatAt seat.location = some seat := by
  cases seat <;> rfl

theorem seatAt_eq_some_iff {locate : Location} {seat : Seat} :
    seatAt locate = some seat ↔ locate = seat.location := by
  constructor
  · intro h
    unfold seatAt at h
    split at h
    · rename_i hl
      cases h
      exact hl
    · split at h
      · rename_i hr
        cases h
        exact hr
      · split at h
        · rename_i hb
          cases h
          exact hb
        · cases h
  · rintro rfl
    exact seatAt_location seat

theorem Seat.location_injective {a b : Seat} (h : a.location = b.location) :
    a = b := by
  have hseat := congrArg seatAt h
  simpa using hseat

@[simp] theorem Seat.location_ne_max (seat : Seat) :
    seat.location ≠ locationMax := by
  cases seat <;> decide

@[simp] theorem seatAt_locationMax : seatAt locationMax = none := rfl

/-! ## The user's part in a game -/

/-- `UserGameStatus`.  `STATUS_EXITED` is the same value as
`STATUS_NOT_START`. -/
inductive UserGameStatus where
  | notStart
  | ready
  | began
  | playing
  | ended
  deriving DecidableEq, Repr

/-- `STATUS_EXITED`. -/
abbrev UserGameStatus.exited : UserGameStatus := .notStart

/-- The enumerator's value. -/
def UserGameStatus.code : UserGameStatus → Nat
  | .notStart => 0
  | .ready => 1
  | .began => 2
  | .playing => 3
  | .ended => 4

/-- `StateType`; `STATE_INVALID` is never assigned. -/
inductive StateType where
  | auth
  | downAd
  | gameReady
  | gamePlay
  deriving DecidableEq, Repr

/-! ## Message types -/

/-- `MessageType`, in the order of `state.h`. -/
inductive MessageType where
  | unknown
  | echo
  | login
  | loginReply
  | logout
  | logoutReply
  | register
  | registerReply
  | chessBoardUser
  | chessBoardReq
  | chessBoard
  | hallInfoReq
  | hallInfo
  | gameHallSumaryReq
  | gameHallSumary
  | requestPlay
  | requestPlayReply
  | moveChess
  | announceMove
  | userMsg
  | systemMsg
  | reconciledReq
  | reconciledResp
  | giveUp
  | undoReq
  | undoReps
  | gameReadyReq
  | gameStatus
  | findPassword
  | updateUserInfo
  | adImageInfo
  | adImageReq
  | adImageContent
  | typeMax
  deriving DecidableEq, Repr

/-- The enumerators in order; the position is the value on the wire. -/
def MessageType.all : List MessageType :=
  [ .unknown, .echo, .login, .loginReply, .logout, .logoutReply, .register
  , .registerReply, .chessBoardUser, .chessBoardReq, .chessBoard
  , .hallInfoReq, .hallInfo, .gameHallSumaryReq, .gameHallSumary
  , .requestPlay, .requestPlayReply, .moveChess, .announceMove, .userMsg
  , .systemMsg, .reconciledReq, .reconciledResp, .giveUp, .undoReq, .undoReps
  , .gameReadyReq, .gameStatus, .findPassword, .updateUserInfo, .adImageInfo
  , .adImageReq, .adImageContent, .typeMax ]

/-- The enumerator with a given value: what a `switch` on `msg_type` sees. -/
def MessageType.ofCode (code : UInt32) : Option MessageType :=
  MessageType.all[code.toNat]?

/-- The value of an enumerator. -/
def MessageType.code (type : MessageType) : UInt32 :=
  (MessageType.all.idxOf type).toUInt32

/-- `MSG_TYPE_MAX`. -/
def msgTypeMax : UInt32 := 33

@[simp] theorem MessageType.ofCode_code (type : MessageType) :
    MessageType.ofCode type.code = some type := by
  cases type <;> rfl

end ChessServer
