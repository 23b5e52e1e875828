import ChessServer.Model.Table
import ChessServer.Server.Thread

/-!
# The act behind an event

An event of the worker's loop is at most one act at one table.  Which one is
computed here from the state before the event, without running a handler:
the message that the read callback is about to hand on, the state of its
session, and the fields of the message.
-/

namespace ChessServer

/-! ## Messages -/

/-- A proposal or an answer that ends the game in a draw. -/
def Reconciled.draws (peace : Reconciled) (type : MessageType) : Bool :=
  (type == .reconciledReq || peace.applyOrReply == 0) &&
    peace.status == some (lit "All")

/-- The message names a user who leaves for good. -/
def GiveUp.exits (giveup : GiveUp) : Bool :=
  giveup.opt == some (lit "exit")

/-- The types that `StateGamePlay` answers with `false`. -/
def MessageType.rejected : MessageType → Bool
  | .gameHallSumaryReq | .hallInfoReq | .echo | .chessBoardReq
  | .updateUserInfo | .moveChess | .userMsg | .undoReq | .undoReps | .giveUp
  | .gameReadyReq | .reconciledReq | .reconciledResp | .requestPlay => false
  | _ => true

/-- `StateGamePlay` rejects a message by its type alone. -/
def rejectsCode (msgType : UInt32) : Bool :=
  match MessageType.ofCode msgType with
  | some type => type.rejected
  | none => true

/-- The act of an in-game message on the board of its session. -/
def World.boardAct (env : Env) (w : World) (b : BoardPtr) (type : MessageType)
    (msg : Bytes) : Option Act :=
  match type with
  | .moveChess => (env.proto.moveChess msg).map Act.move
  | .reconciledReq | .reconciledResp => do
      let peace ← env.proto.reconciled msg
      if peace.draws type then some .draw else none
  | .giveUp => do
      let giveup ← env.proto.giveUp msg
      let seat ← seatAt giveup.srcUserLocate
      let _ ← (w.boards b).seat seat
      some (if giveup.exits then .leave seat else .surrender seat)
  | .undoReq | .undoReps => do
      let undo ← env.proto.undo msg
      if undo.accepted then some .undo else none
  | .gameReadyReq => (env.proto.gameReadyReq msg).map Act.ready
  | .requestPlay => do
      let m ← env.proto.requestPlay msg
      let hall ← getGameHall m.gameHallId.toUInt32
      let seat ← seatAt m.locate.toUInt32
      let c ← (w.getChessBoardByID hall m.chessBoardId.toUInt32).1
      some (.again seat (w.table c).began)
  | _ => none

/-- The messages that act on a board, and how. -/
theorem World.boardAct_cases {env : Env} {w : World} {b : BoardPtr}
    {type : MessageType} {msg : Bytes} {a : Act}
    (h : w.boardAct env b type msg = some a) :
    (∃ m, type = .moveChess ∧ env.proto.moveChess msg = some m ∧
      a = .move m) ∨
    (∃ peace, (type = .reconciledReq ∨ type = .reconciledResp) ∧
      env.proto.reconciled msg = some peace ∧ a = .draw) ∨
    (∃ giveup seat, type = .giveUp ∧ env.proto.giveUp msg = some giveup ∧
      giveup.srcUserLocate = seat.location ∧
      ((w.boards b).seat seat).isSome ∧
      a = if giveup.exits then .leave seat else .surrender seat) ∨
    (∃ undo, (type = .undoReq ∨ type = .undoReps) ∧
      env.proto.undo msg = some undo ∧ undo.accepted = true ∧ a = .undo) ∨
    (∃ m, type = .gameReadyReq ∧ env.proto.gameReadyReq msg = some m ∧
      a = .ready m) ∨
    (∃ m hall seat c, type = .requestPlay ∧
      env.proto.requestPlay msg = some m ∧
      getGameHall m.gameHallId.toUInt32 = some hall ∧
      m.locate.toUInt32 = seat.location ∧
      (w.getChessBoardByID hall m.chessBoardId.toUInt32).1 = some c ∧
      a = .again seat (w.table c).began) := by
  have hpeace : (do
      let peace ← env.proto.reconciled msg
      if peace.draws type then some Act.draw else none) = some a →
      ∃ peace, env.proto.reconciled msg = some peace ∧ a = .draw := by
    intro h
    simp only [Option.bind_eq_bind, Option.bind_eq_some_iff] at h
    obtain ⟨peace, hmsg, h⟩ := h
    split at h
    · cases h
      exact ⟨peace, hmsg, rfl⟩
    · cases h
  have hundo : (do
      let undo ← env.proto.undo msg
      if undo.accepted then some Act.undo else none) = some a →
      ∃ undo, env.proto.undo msg = some undo ∧ undo.accepted = true ∧
        a = .undo := by
    intro h
    simp only [Option.bind_eq_bind, Option.bind_eq_some_iff] at h
    obtain ⟨undo, hmsg, h⟩ := h
    split at h
    · rename_i haccepted
      cases h
      exact ⟨undo, hmsg, haccepted, rfl⟩
    · cases h
  cases type with
  | moveChess =>
      simp only [boardAct, Option.map_eq_some_iff] at h
      obtain ⟨m, hmsg, rfl⟩ := h
      exact Or.inl ⟨m, rfl, hmsg, rfl⟩
  | reconciledReq =>
      obtain ⟨peace, hmsg, rfl⟩ := hpeace h
      exact Or.inr (Or.inl ⟨peace, Or.inl rfl, hmsg, rfl⟩)
  | reconciledResp =>
      obtain ⟨peace, hmsg, rfl⟩ := hpeace h
      exact Or.inr (Or.inl ⟨peace, Or.inr rfl, hmsg, rfl⟩)
  | giveUp =>
      simp only [boardAct, Option.bind_eq_bind, Option.bind_eq_some_iff] at h
      obtain ⟨giveup, hmsg, seat, hseat, v, hv, h⟩ := h
      cases h
      exact Or.inr (Or.inr (Or.inl ⟨giveup, seat, rfl, hmsg,
        seatAt_eq_some_iff.mp hseat, Option.isSome_of_eq_some hv, rfl⟩))
  | undoReq =>
      obtain ⟨undo, hmsg, haccepted, rfl⟩ := hundo h
      exact Or.inr (Or.inr (Or.inr (Or.inl
        ⟨undo, Or.inl rfl, hmsg, haccepted, rfl⟩)))
  | undoReps =>
      obtain ⟨undo, hmsg, haccepted, rfl⟩ := hundo h
      exact Or.inr (Or.inr (Or.inr (Or.inl
        ⟨undo, Or.inr rfl, hmsg, haccepted, rfl⟩)))
  | gameReadyReq =>
      simp only [boardAct, Option.map_eq_some_iff] at h
      obtain ⟨m, hmsg, rfl⟩ := h
      exact Or.inr (Or.inr (Or.inr (Or.inr (Or.inl ⟨m, rfl, hmsg, rfl⟩))))
  | requestPlay =>
      simp only [boardAct, Option.bind_eq_bind, Option.bind_eq_some_iff] at h
      obtain ⟨m, hmsg, hall, hhall, seat, hseat, c, hc, h⟩ := h
      cases h
      exact Or.inr (Or.inr (Or.inr (Or.inr (Or.inr ⟨m, hall, seat, c, rfl,
        hmsg, hhall, seatAt_eq_some_iff.mp hseat, hc, rfl⟩))))
  | _ => cases h

/-- Only GIVE_UP with `exit` makes the user of a chair leave. -/
theorem World.boardAct_leave {env : Env} {w : World} {b : BoardPtr}
    {type : MessageType} {msg : Bytes} {seat : Seat}
    (h : w.boardAct env b type msg = some (.leave seat)) :
    type = .giveUp ∧ ∃ giveup, env.proto.giveUp msg = some giveup ∧
      giveup.exits = true ∧ giveup.srcUserLocate = seat.location := by
  rcases World.boardAct_cases h with ⟨_, _, _, ha⟩ | ⟨_, _, _, ha⟩ |
    ⟨giveup, seat', htype, hmsg, hlocate, _, ha⟩ | ⟨_, _, _, _, ha⟩ |
    ⟨_, _, _, ha⟩ | ⟨_, _, _, _, _, _, _, _, _, ha⟩
  case inr.inr.inl =>
    split at ha
    · rename_i hexits
      cases ha
      exact ⟨htype, giveup, hmsg, hexits, hlocate⟩
    · cases ha
  all_goals cases ha

/-- The act of a request to play from the hall, if the seat is granted. -/
def World.joinAct (env : Env) (w : World) (u : SessionId) (msg : Bytes) :
    Option (BoardPtr × Act) := do
  let m ← env.proto.requestPlay msg
  let hall ← getGameHall m.gameHallId.toUInt32
  let c ← (w.getChessBoardByID hall m.chessBoardId.toUInt32).1
  let seat ← seatAt m.locate.toUInt32
  let s ← w.users u
  if (w.table c).began ∨ (w.boards c).hasFullUsers ∨
      (w.boards c).seat seat ≠ none then none
  else some (c, .join seat u s.userInfo.score)

/-- The board and the chair of a session. -/
def World.chair (w : World) (u : SessionId) : Option (BoardPtr × Seat) := do
  let s ← w.users u
  let b ← s.currChessBoard
  let seat ← seatAt s.locate
  some (b, seat)

/-- The act of a message that is handed to its session. -/
def World.messageAct (env : Env) (w : World) (u : SessionId)
    (msgType : UInt32) (msg : Bytes) : Option (BoardPtr × Act) := do
  let s ← w.users u
  match s.stateMachine with
  | some .gameReady =>
      if MessageType.ofCode msgType = some .requestPlay then w.joinAct env u msg
      else none
  | some .gamePlay => do
      let (b, seat) ← w.chair u
      if rejectsCode msgType then some (b, .reject seat)
      else do
        let type ← MessageType.ofCode msgType
        let act ← w.boardAct env b type msg
        some (b, act)
  | _ => none

/-- The act of a connection that closes. -/
def World.closeAct (w : World) (u : SessionId) : Option (BoardPtr × Act) :=
  (w.chair u).map fun (b, seat) => (b, .leave seat)

/-! ## Events -/

/-- What the read callback does with the bytes it finds. -/
inductive Received where
  /-- no complete frame yet -/
  | waiting
  /-- a header that is refused -/
  | refused
  /-- a complete frame -/
  | message (msgType : UInt32) (msg : Bytes)
  /-- a frame shorter than its own header -/
  | broken
  deriving DecidableEq

/-- The outcome of `OnReadCb` on a header state and an input buffer. -/
def ReadBufInfo.received (info : ReadBufInfo) (input : Bytes) : Received :=
  if info.refuses input then .refused
  else if (info.accept input).complete input then
    match (info.accept input).body input with
    | some msg => .message (info.accept input).msgType msg
    | none => .broken
  else .waiting

/-- What a session's next read callback does when some bytes have arrived. -/
def World.received (w : World) (u : SessionId) (data : Bytes) : Received :=
  match w.users u with
  | none => .waiting
  | some s =>
      match s.bufev with
      | none => .waiting
      | some input => s.bufInfo.received (input ++ data)

/-- The undrained bytes and the header state that `OnReadCb` leaves to the
next callback when the connection is kept. -/
def ReadBufInfo.after (info : ReadBufInfo) (input : Bytes) :
    Bytes × ReadBufInfo :=
  match info.received input with
  | .message _ _ => (input.drop (info.accept input).totalSize.toNat, {})
  | _ => (input, info.accept input)

/-- The receiving side of session `u` after an event that keeps its
connection. -/
def World.inputAfter (w : World) (e : Event) (u : SessionId) :
    Option (Option Bytes × ReadBufInfo) :=
  match e with
  | .read v data =>
      if v = u then
        match w.layout.input u with
        | some (some input, info) =>
            let (input, info) := info.after (input ++ data)
            some (some input, info)
        | received => received
      else w.layout.input u
  | _ => w.layout.input u

/-- The act of an event. -/
def World.act (env : Env) (w : World) : Event → Option (BoardPtr × Act)
  | .accept _ => none
  | .read u data =>
      match w.received u data with
      | .waiting | .broken => none
      | .refused => w.closeAct u
      | .message msgType msg => w.messageAct env u msgType msg
  | .event u events => if events.closes then w.closeAct u else none
  | .timer u => w.closeAct u

/-- The table at a board after an act. -/
def World.tableAfter (w : World) (act : Option (BoardPtr × Act))
    (p : BoardPtr) : Table :=
  match act with
  | some (b, a) => if p = b then a.apply (w.table p) else w.table p
  | none => w.table p

/-! ## One board -/

/-- The act of an event at one board. -/
def World.actAt (env : Env) (w : World) (b : BoardPtr) (e : Event) :
    Option Act :=
  match w.act env e with
  | some (c, a) => if c = b then some a else none
  | none => none

theorem tableAfter_actAt (env : Env) (w : World) (b : BoardPtr) (e : Event) :
    w.tableAfter (w.act env e) b =
      ((w.actAt env b e).map (·.apply (w.table b))).getD (w.table b) := by
  unfold World.tableAfter World.actAt
  cases w.act env e with
  | none => rfl
  | some act =>
      obtain ⟨c, a⟩ := act
      by_cases hc : c = b
      · subst hc
        simp
      · simp [hc, Ne.symm hc]

theorem act_of_actAt {env : Env} {w : World} {b : BoardPtr} {e : Event}
    {a : Act} (h : w.actAt env b e = some a) : w.act env e = some (b, a) := by
  unfold World.actAt at h
  split at h
  · rename_i c a' hact
    split at h
    · rename_i hc
      cases h
      rw [hact, hc]
    · cases h
  · cases h

/-! ## Sitting down -/

theorem joinAct_free {env : Env} {w : World} {u : SessionId} {msg : Bytes}
    {b : BoardPtr} {a : Act} (h : w.joinAct env u msg = some (b, a)) :
    ∃ seat score, a = .join seat u score ∧ (w.table b).players seat = none := by
  simp only [World.joinAct, Option.bind_eq_bind, Option.bind_eq_some_iff] at h
  obtain ⟨_, _, _, _, c, _, seat, _, s, _, h⟩ := h
  split at h
  · cases h
  · rename_i hgrant
    cases h
    have hfree : (w.boards b).seat seat = none := by
      by_contra hne
      exact hgrant (Or.inr (Or.inr hne))
    exact ⟨seat, s.userInfo.score, rfl, by simp [World.table, hfree]⟩

/-- Whoever sits down takes a free chair. -/
theorem messageAct_join_free {env : Env} {w : World} {u : SessionId}
    {msgType : UInt32} {msg : Bytes} {b : BoardPtr} {seat : Seat}
    {user : SessionId} {score : UInt32}
    (h : w.messageAct env u msgType msg = some (b, .join seat user score)) :
    (w.table b).players seat = none := by
  simp only [World.messageAct, Option.bind_eq_bind,
    Option.bind_eq_some_iff] at h
  obtain ⟨s, _, h⟩ := h
  split at h
  · split at h
    · obtain ⟨seat', _, ha, hfree⟩ := joinAct_free h
      cases ha
      exact hfree
    · cases h
  · simp only [Option.bind_eq_some_iff] at h
    obtain ⟨⟨b', seat'⟩, _, h⟩ := h
    split at h
    · cases h
    · simp only [Option.bind_eq_some_iff] at h
      obtain ⟨type, _, a, hact, h⟩ := h
      cases h
      rcases World.boardAct_cases hact with ⟨_, _, _, ha⟩ |
        ⟨_, _, _, ha⟩ | ⟨_, _, _, _, _, _, ha⟩ | ⟨_, _, _, _, ha⟩ |
        ⟨_, _, _, ha⟩ | ⟨_, _, _, _, _, _, _, _, _, ha⟩
      case inr.inr.inl => split at ha <;> cases ha
      all_goals cases ha
  · cases h

/-- The event of whoever sits down is a message. -/
theorem act_join_free {env : Env} {w : World} {e : Event} {b : BoardPtr}
    {seat : Seat} {user : SessionId} {score : UInt32}
    (h : w.act env e = some (b, .join seat user score)) :
    (w.table b).players seat = none := by
  have hclose : ∀ u, w.closeAct u ≠ some (b, .join seat user score) := by
    intro u h
    simp [World.closeAct, Option.map_eq_some_iff] at h
  cases e with
  | accept fd => cases h
  | read u data =>
      unfold World.act at h
      dsimp only at h
      split at h
      · cases h
      · cases h
      · exact absurd h (hclose u)
      · exact messageAct_join_free h
  | event u events =>
      unfold World.act at h
      dsimp only at h
      split at h
      · exact absurd h (hclose u)
      · cases h
  | timer u => exact absurd h (hclose u)

end ChessServer
