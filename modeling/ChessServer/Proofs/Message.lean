import ChessServer.Proofs.Join

/-!
# The outcome of one message

`Outcome u w w' act`: the state object of session `u` handled a message and
kept the connection; from `w` to `w'` exactly `act` happened on the tables.
A message that is not kept leaves nothing but a changed `nextState`, and in
a game the status.  Every message has one of these outcomes
(`msgHandle_outcome`).
-/

namespace ChessServer

/-! ## Requests to play -/

/-- What is sent before a user sits down does not matter, -/
theorem Notified.joins {u : SessionId} {b : BoardPtr} {seat : Seat}
    {w₁ w₂ w₃ : World} (h₁ : Notified w₁ w₂) (h₂ : Joins u b seat w₂ w₃) :
    Joins u b seat w₁ w₃ where
  layout := by rw [h₂.layout, h₁.layout]
  others := fun c hc => (h₂.others c hc).trans (congrFun h₁.boards c)
  mark := fun v hv => (h₂.mark v hv).trans (h₁.quiet.mark v)
  table := by
    intro s hs
    rw [← h₁.users] at hs
    rw [h₂.table s hs, h₁.table]

/-- nor what is sent after it. -/
theorem Joins.notified {u : SessionId} {b : BoardPtr} {seat : Seat}
    {w₁ w₂ w₃ : World} (h₁ : Joins u b seat w₁ w₂) (h₂ : Notified w₂ w₃) :
    Joins u b seat w₁ w₃ where
  layout := h₂.layout.trans h₁.layout
  others := fun c hc => (congrFun h₂.boards c).trans (h₁.others c hc)
  mark := fun v hv => (h₂.quiet.mark v).trans (h₁.mark v hv)
  table := fun s hs => (h₂.table b).trans (h₁.table s hs)

/-- A request from the hall seats the user exactly when `joinAct` says so. -/
theorem gameRequestHandle_cases {env : Env} {u : SessionId} {s : UserSession}
    {msg : Bytes} {ret : Bool} {w w' : World} (hseating : w.layout.Seating)
    (hs : w.users u = some s) (hstand : s.currChessBoard = none)
    (h : gameRequestHandle env u msg w = some (ret, w')) :
    ret = true ∧ ((w.joinAct env u msg = none ∧ Own u w w') ∨
      ∃ b seat, w.joinAct env u msg =
          some (b, .join seat u s.userInfo.score) ∧
        (w.boards b).seat seat = none ∧ Joins u b seat w w') := by
  unfold gameRequestHandle at h
  unfold World.joinAct
  cases hmsg : env.proto.requestPlay msg with
  | none =>
      rw [hmsg] at h
      cases h
      exact ⟨rfl, Or.inl ⟨rfl, Own.refl u w⟩⟩
  | some m =>
      rw [hmsg] at h
      dsimp only at h
      cases hhall : getGameHall m.gameHallId.toUInt32 with
      | none =>
          rw [hhall] at h
          cases h
          exact ⟨rfl, Or.inl ⟨by simp [hhall], Own.refl u w⟩⟩
      | some hall =>
          rw [hhall] at h
          dsimp only at h
          have n₁ := getChessBoardByID_notified hall m.chessBoardId.toUInt32 w
          simp only [Option.bind_eq_bind, Option.bind_some, hhall]
          revert h n₁
          generalize w.getChessBoardByID hall m.chessBoardId.toUInt32 = found
          obtain ⟨chessBoard, w₁⟩ := found
          intro h n₁
          simp only [Option.bind_eq_bind, Option.bind_eq_some_iff] at h n₁ ⊢
          obtain ⟨c, rfl, ⟨ok, w₂⟩, hjoin, h⟩ := h
          have hs₁ : w₁.users u = some s := by rw [n₁.users, hs]
          simp only [Option.bind_some, hs]
          rcases joinBoard_cases hs₁ hjoin with
            ⟨rfl, hbegan, hfull, seat, hlocate, hfree, rfl⟩ |
            ⟨rfl, rfl, hwhy⟩
          · rw [n₁.table] at hbegan
            rw [n₁.boards] at hfull hfree
            simp only [if_true, Option.bind_eq_some_iff] at h
            obtain ⟨⟨reply, w₃⟩, hacc, ⟨_, w₄⟩, hreply, w₅, hsend, w₆, hhall',
              h⟩ := h
            cases h
            have hu : ((w₁.setUser u { s with
                locate := m.locate.toUInt32 }).modifyBoard c
                  (·.seated u seat)).users u = some { s with
                locate := m.locate.toUInt32 } := setUser_users_self _ _ _
            have hw₃ := joinAccepted_eq hu hacc
            have hw₃' : w₃ = (w₁.modifyBoard c fun board =>
                (board.seated u seat).owned seat.location).setUser u { s with
                  locate := seat.location
                  status := .ready
                  currChessBoard := some c
                  nextState := some .gamePlay } := by
              rw [hw₃, ← hlocate]
              simp [World.setUser, World.modifyBoard]
            have hj := join_joins (n₁.layout ▸ hseating) hs₁ hstand
              (by rw [n₁.boards]; exact hfree)
            rw [← hw₃'] at hj
            have n₂ := ((messageReply_notified hreply).trans
              (broadCastMsg_notified hsend)).trans
                (broadCastHallInfo_notified hhall')
            refine ⟨rfl, Or.inr ⟨c, seat, ?_, hfree,
              (n₁.joins hj).notified n₂⟩⟩
            rw [hlocate, seatAt_location]
            simp [hbegan, hfull, hfree]
          · simp only [Bool.false_eq_true, if_false,
              Option.bind_eq_some_iff] at h
            obtain ⟨⟨_, w₃⟩, hreply, h⟩ := h
            cases h
            have q : Own u w₁ (w₁.setUser u
                { s with locate := m.locate.toUInt32 }) :=
              modifyUser_own (modifyUser_eq hs₁ fun s =>
                { s with locate := m.locate.toUInt32 })
                (fun s' hs' => ⟨rfl, rfl, rfl, rfl, rfl, Or.inl rfl, fun hb => by
                  rw [hs₁] at hs'
                  cases hs'
                  simp [UserSession.place, hstand] at hb, rfl⟩) fun _ _ => rfl
            refine ⟨rfl, Or.inl ⟨?_, ((n₁.own u).trans q).trans
              ((messageReply_notified hreply).own u)⟩⟩
            rw [n₁.table, n₁.boards] at hwhy
            cases hseat : seatAt m.locate.toUInt32 with
            | none => rfl
            | some seat =>
                rw [Option.bind_some, if_pos]
                rcases hwhy with hwhy | hwhy | hwhy
                · exact Or.inl hwhy
                · exact Or.inr (Or.inl hwhy)
                · exact Or.inr (Or.inr (hwhy seat hseat))

/-! ## Exits -/

/-- Session `v` forgot its board and heads for the hall. -/
structure Rises (v : SessionId) (w w' : World) : Prop where
  layout : w'.layout = w.layout.modify v fun p =>
    { p with currChessBoard := none, nextState := some .gameReady }
  boards : w'.boards = w.boards
  mark : ∀ x, w'.mark x = w.mark x

/-- Session `v` left its chair of board `b` for the hall. -/
structure Stands (v : SessionId) (b : BoardPtr) (seat : Seat)
    (w w' : World) : Prop where
  layout : w'.layout = w.layout.stand v b seat
  others : ∀ c, c ≠ b → w'.boards c = w.boards c
  mark : ∀ x, (∀ seat, (w.boards b).seat seat ≠ some x) →
    w'.mark x = w.mark x
  table : w'.table b = (w.table b).leave seat
  score : ∀ s, w.users v = some s →
    ∃ s', w'.users v = some s' ∧ s'.userInfo.score = s.scoreAfter

/-- The two assignments after `LeaveRoomHandle` in `GiveUpHandle`. -/
theorem stand_setUser {w : World} {v : SessionId} {s : UserSession}
    (hs : w.users v = some s) :
    Rises v w (w.setUser v { s with
      nextState := some .gameReady
      currChessBoard := none }) where
  layout := by
    have hplace : w.layout.place v = some s.place := by
      simp [World.layout, hs]
    rw [layout_setUser hs]
    exact (Layout.modify_const hplace fun p =>
      { p with currChessBoard := none, nextState := some .gameReady }).symm
  boards := rfl
  mark := by
    intro x
    by_cases hx : x = v
    · subst hx
      simp [World.mark, hs, UserSession.mark]
    · simp [World.mark, World.setUser, hx]

/-- Getting up is leaving the table and then the state object. -/
theorem Rises.stands {v : SessionId} {b : BoardPtr} {seat : Seat}
    {w w₁ w₂ : World} (h : Rises v w₁ w₂)
    (l : Leaves b seat w w₁ ((w.table b).leave seat))
    (hscore : ∀ s, w.users v = some s →
      ∃ s', w₁.users v = some s' ∧ s'.userInfo.score = s.scoreAfter) :
    Stands v b seat w w₂ where
  layout := by rw [h.layout, l.layout, Layout.stand]
  others := fun c hc => (congrFun h.boards c).trans (l.others c hc)
  mark := by
    intro x hx
    rw [h.mark, World.mark, World.mark, l.outside x hx]
  table := by
    rw [← l.table]
    exact table_eq_of_marks (congrFun h.boards b) fun _ x _ => h.mark x
  score := by
    intro s hs
    obtain ⟨s₁, hs₁, hscore⟩ := hscore s hs
    obtain ⟨s₂, hs₂, hkept⟩ := score_of_mark hs₁ (h.mark v)
    exact ⟨s₂, hs₂, hkept.trans hscore⟩

/-- Giving up with `exit` makes a user get up. -/
theorem exit_stands {env : Env} {v : SessionId} {b : BoardPtr} {seat : Seat}
    {w w₁ w₂ w₃ : World} (hseating : w.layout.Seating)
    (hseat : (w.boards b).seat seat = some v)
    (hleave : leaveRoomHandle env b v true w = some w₁)
    (hnext : (w₁.modifyUser v fun s =>
      { s with nextState := some .gameReady }) = some w₂)
    (hboard : (w₂.modifyUser v fun s => { s with currChessBoard := none }) =
      some w₃) : Stands v b seat w w₃ := by
  obtain ⟨l₁, hscore⟩ := leaveRoomHandle_leaves hseating hseat hleave
  simp only [World.modifyUser, Option.map_eq_some_iff] at hnext
  obtain ⟨s, hs, rfl⟩ := hnext
  rw [modifyUser_eq (setUser_users_self _ _ _), setUser_setUser] at hboard
  obtain rfl : w₁.setUser v { s with
      nextState := some .gameReady
      currChessBoard := none } = w₃ := Option.some.inj hboard
  exact (stand_setUser hs).stands l₁ hscore

/-! ## Outcomes -/

/-- A kept message of session `u` did `act` and nothing else to the game. -/
inductive Outcome (u : SessionId) (w w' : World) :
    Option (BoardPtr × Act) → Prop where
  /-- the session, which is on no board, changed -/
  | own (h : Own u w w')
      (hstand : ∀ p, w.layout.place u = some p → p.currChessBoard = none) :
      Outcome u w w' none
  /-- nothing that concerns a game -/
  | quiet (h : Quiet w w') : Outcome u w w' none
  | joins {b : BoardPtr} {seat : Seat} {s : UserSession}
      (hs : w.users u = some s) (hstand : s.currChessBoard = none)
      (hfree : (w.boards b).seat seat = none) (h : Joins u b seat w w') :
      Outcome u w w' (some (b, .join seat u s.userInfo.score))
  | plays {b : BoardPtr} {a : Act} (h : Plays b w w' (a.apply (w.table b))) :
      Outcome u w w' (some (b, a))
  /-- a play that changed nothing -/
  | passes {b : BoardPtr} (h : Plays b w w' (w.table b)) : Outcome u w w' none
  | stands {v : SessionId} {b : BoardPtr} {seat : Seat}
      (hseat : (w.boards b).seat seat = some v) (h : Stands v b seat w w') :
      Outcome u w w' (some (b, .leave seat))

theorem Outcome.of_plays {u : SessionId} {w w' : World} {b : BoardPtr}
    {a : Option Act}
    (h : Plays b w w' (match a with
      | some a => a.apply (w.table b)
      | none => w.table b)) :
    Outcome u w w' (a.map fun a => (b, a)) := by
  cases a with
  | some a => exact .plays h
  | none => exact .passes h

/-- The act of a GIVE_UP. -/
theorem giveUpHandle_outcome {env : Env} {u : SessionId} {b : BoardPtr}
    {msg : Bytes} {ret : Bool} {w w' : World} (hseating : w.layout.Seating)
    (h : giveUpHandle env b msg w = some (ret, w')) :
    ret = true ∧ Outcome u w w'
      ((w.boardAct env b .giveUp msg).map fun a => (b, a)) := by
  unfold giveUpHandle at h
  unfold World.boardAct
  cases hmsg : env.proto.giveUp msg with
  | none =>
      rw [hmsg] at h
      cases h
      exact ⟨rfl, .quiet (Quiet.refl w)⟩
  | some giveup =>
      rw [hmsg] at h
      dsimp only at h
      simp only [Option.bind_eq_bind, Option.bind_some]
      cases huser : (w.boards b).getUserByLocation giveup.srcUserLocate with
      | none =>
          rw [huser] at h
          cases h
          refine ⟨rfl, ?_⟩
          cases hseat : seatAt giveup.srcUserLocate with
          | none => exact .quiet (Quiet.refl w)
          | some seat =>
              rw [seatAt_eq_some_iff.mp hseat,
                getUserByLocation_location] at huser
              simp only [Option.bind_some, huser, Option.bind_none,
                Option.map_none]
              exact .quiet (Quiet.refl w)
      | some v =>
          rw [huser] at h
          dsimp only at h
          obtain ⟨seat, hlocate, hseat⟩ := getUserByLocation_eq_some huser
          rw [hlocate, seatAt_location]
          simp only [Option.bind_some, hseat, Option.map_some]
          by_cases hexit : giveup.opt = some (lit "exit")
          · rw [if_pos hexit] at h
            simp only [Option.bind_eq_bind, Option.bind_eq_some_iff] at h
            obtain ⟨w₁, hleave, w₂, hnext, w₃, hboard, h⟩ := h
            cases h
            have hexits : giveup.exits = true := by
              simp [GiveUp.exits, hexit]
            rw [if_pos hexits]
            exact ⟨rfl, .stands hseat
              (exit_stands hseating hseat hleave hnext hboard)⟩
          · rw [if_neg hexit] at h
            simp only [Option.bind_eq_bind, Option.bind_eq_some_iff] at h
            obtain ⟨w₁, hleave, h⟩ := h
            cases h
            have hexits : ¬ giveup.exits = true := by
              simpa [GiveUp.exits] using hexit
            rw [if_neg hexits]
            exact ⟨rfl, .plays
              (surrender_plays hseating.distinct hseat hleave)⟩

/-- The act of a request for another game. -/
theorem gameAgainHandle_outcome {env : Env} {u : SessionId} {b : BoardPtr}
    {msg : Bytes} {ret : Bool} {w w' : World} (hseating : w.layout.Seating)
    (h : gameAgainHandle env b msg w = some (ret, w')) :
    ret = true ∧ Outcome u w w'
      ((w.boardAct env b .requestPlay msg).map fun a => (b, a)) := by
  unfold World.boardAct
  simp only [Option.bind_eq_bind]
  cases hmsg : env.proto.requestPlay msg with
  | none =>
      simp only [gameAgainHandle, hmsg] at h
      cases h
      exact ⟨rfl, .quiet (Quiet.refl w)⟩
  | some m =>
      rw [Option.bind_some]
      cases hhall : getGameHall m.gameHallId.toUInt32 with
      | none =>
          simp only [gameAgainHandle, hmsg, hhall] at h
          cases h
          exact ⟨rfl, .quiet (Quiet.refl w)⟩
      | some hall =>
          obtain ⟨hret, p⟩ := gameAgainHandle_plays hseating.distinct hmsg
            hhall h
          refine ⟨hret, .of_plays (p.congr ?_)⟩
          rw [Option.bind_some]
          cases seatAt m.locate.toUInt32 with
          | none => rfl
          | some seat =>
              cases (w.getChessBoardByID hall m.chessBoardId.toUInt32).1 with
              | none => rfl
              | some c => rfl

/-- The act of a move. -/
theorem moveChessHandle_outcome {env : Env} {u : SessionId} {b : BoardPtr}
    {msg : Bytes} {ret : Bool} {w w' : World} (hseating : w.layout.Seating)
    (h : moveChessHandle env b msg w = some (ret, w')) :
    ret = true ∧ Outcome u w w'
      (((env.proto.moveChess msg).map Act.move).map fun a => (b, a)) := by
  cases hmsg : env.proto.moveChess msg with
  | none =>
      simp only [moveChessHandle, hmsg] at h
      cases h
      exact ⟨rfl, .quiet (Quiet.refl w)⟩
  | some m =>
      obtain ⟨hret, p, _⟩ := moveChessHandle_plays hseating.distinct hmsg h
      exact ⟨hret, .plays p⟩

/-- The act of an answer to a draw. -/
theorem reconciledHandle_outcome {env : Env} {u : SessionId} {b : BoardPtr}
    {type : MessageType} {msg : Bytes} {ret : Bool} {w w' : World}
    (hseating : w.layout.Seating)
    (h : reconciledHandle env b msg type w = some (ret, w')) :
    ret = true ∧ Outcome u w w'
      (((env.proto.reconciled msg).bind fun peace =>
        if peace.draws type then some Act.draw else none).map
          fun a => (b, a)) := by
  cases hmsg : env.proto.reconciled msg with
  | none =>
      simp only [reconciledHandle, hmsg] at h
      cases h
      exact ⟨rfl, .quiet (Quiet.refl w)⟩
  | some peace =>
      obtain ⟨hret, p⟩ := reconciledHandle_plays hseating.distinct hmsg h
      refine ⟨hret, .of_plays (p.congr ?_)⟩
      rw [Option.bind_some]
      cases peace.draws type <;> rfl

/-- The act of an answer to an undo. -/
theorem undoHandle_outcome {env : Env} {u : SessionId} {b : BoardPtr}
    {type : MessageType} {msg : Bytes} {ret : Bool} {w w' : World}
    (hseating : w.layout.Seating)
    (h : undoHandle env b msg type w = some (ret, w')) :
    ret = true ∧ Outcome u w w'
      (((env.proto.undo msg).bind fun undo =>
        if undo.accepted then some Act.undo else none).map
          fun a => (b, a)) := by
  cases hmsg : env.proto.undo msg with
  | none =>
      simp only [undoHandle, hmsg] at h
      cases h
      exact ⟨rfl, .quiet (Quiet.refl w)⟩
  | some undo =>
      obtain ⟨hret, p⟩ := undoHandle_plays hseating.distinct hmsg h
      refine ⟨hret, .of_plays (p.congr ?_)⟩
      rw [Option.bind_some]
      cases undo.accepted <;> rfl

/-- The act of getting ready. -/
theorem gameReadyHandle_outcome {env : Env} {u : SessionId} {b : BoardPtr}
    {msg : Bytes} {ret : Bool} {w w' : World} (hseating : w.layout.Seating)
    (h : gameReadyHandle env b msg w = some (ret, w')) :
    ret = true ∧ Outcome u w w'
      (((env.proto.gameReadyReq msg).map Act.ready).map fun a => (b, a)) := by
  cases hmsg : env.proto.gameReadyReq msg with
  | none =>
      simp only [gameReadyHandle, hmsg] at h
      cases h
      exact ⟨rfl, .quiet (Quiet.refl w)⟩
  | some m =>
      obtain ⟨hret, p⟩ := gameReadyHandle_plays hseating.distinct hmsg h
      exact ⟨hret, .plays p⟩

/-- Every message that a board translates is the act that `boardAct`
computes from it. -/
theorem translateMsg_outcome {env : Env} {u : SessionId} {b : BoardPtr}
    {type : MessageType} {msgType : UInt32} {msg : Bytes} {ret : Bool}
    {w w' : World} (hseating : w.layout.Seating)
    (hcode : MessageType.ofCode msgType = some type)
    (hgame : type.inGame = true)
    (h : translateMsg env b msgType msg w = some (ret, w')) :
    if type.rejected then ret = false ∧ w' = w
    else ret = true ∧
      Outcome u w w' ((w.boardAct env b type msg).map fun a => (b, a)) := by
  unfold translateMsg at h
  rw [hcode] at h
  cases type with
  | moveChess => exact moveChessHandle_outcome hseating h
  | userMsg =>
      obtain ⟨hret, n⟩ := userMessageHandle_plays h
      exact ⟨hret, .quiet n.quiet⟩
  | reconciledReq => exact reconciledHandle_outcome hseating h
  | reconciledResp => exact reconciledHandle_outcome hseating h
  | giveUp => exact giveUpHandle_outcome hseating h
  | undoReq => exact undoHandle_outcome hseating h
  | undoReps => exact undoHandle_outcome hseating h
  | gameReadyReq => exact gameReadyHandle_outcome hseating h
  | requestPlay => exact gameAgainHandle_outcome hseating h
  | systemMsg =>
      cases h
      exact ⟨rfl, rfl⟩
  | _ => simp [MessageType.inGame] at hgame

/-! ## StateGamePlay -/

/-- `StateGamePlay` turns a message down, and with it the connection. -/
structure Rejects (u : SessionId) (w w' : World) : Prop where
  own : Own u w w'
  mark : ∀ s, w.users u = some s →
    w'.mark u = some (.notStart, s.userInfo.score)

/-- The chair of a session that believes to be on a board. -/
theorem chair_eq {w : World} {u : SessionId} {s : UserSession} {b : BoardPtr}
    (hseating : w.layout.Seating) (hs : w.users u = some s)
    (hboard : s.currChessBoard = some b) :
    ∃ seat : Seat, s.locate = seat.location ∧
      (w.boards b).seat seat = some u ∧ w.chair u = some (b, seat) := by
  have hplace : w.layout.place u = some s.place := by
    simp [World.layout, hs]
  obtain ⟨seat, hlocate, hseat⟩ := hseating.onBoard hplace hboard
  have hlocate' : s.locate = seat.location := hlocate
  exact ⟨seat, hlocate', hseat, by simp [World.chair, hs, hboard, hlocate']⟩

/-- The in-game types are handed to the board. -/
theorem stateGamePlaySwitch_inGame {env : Env} {u : SessionId}
    {type : MessageType} {msgType : UInt32} {msg : Bytes} {w : World}
    (hcode : MessageType.ofCode msgType = some type)
    (hgame : type.inGame = true) :
    stateGamePlaySwitch env u msgType msg w = (do
      let s ← w.users u
      s.currChessBoard.elim (translateMsgNull env msgType msg w)
        fun board => translateMsg env board msgType msg w) := by
  unfold stateGamePlaySwitch
  rw [hcode]
  cases type with
  | moveChess | userMsg | undoReq | undoReps | giveUp | gameReadyReq
  | systemMsg | reconciledReq | reconciledResp | requestPlay =>
      refine congrArg (w.users u).bind (funext fun s => ?_)
      cases s.currChessBoard <;> rfl
  | _ => simp [MessageType.inGame] at hgame

/-- They are answered with `true` if the board has a handler for them. -/
theorem translates_inGame {type : MessageType} (hgame : type.inGame = true) :
    translates type = !type.rejected := by
  cases type <;> first | rfl | cases hgame

/-- In the game state a message is handed to the board, answered without it,
or rejected. -/
theorem stateGamePlaySwitch_outcome {env : Env} {u : SessionId}
    {msgType : UInt32} {msg : Bytes} {ret : Bool} {w w' : World}
    (hseating : w.layout.Seating)
    (h : stateGamePlaySwitch env u msgType msg w = some (ret, w')) :
    if rejectsCode msgType then ret = false ∧ w' = w
    else ret = true ∧ Outcome u w w' (do
      let (b, _) ← w.chair u
      let type ← MessageType.ofCode msgType
      let act ← w.boardAct env b type msg
      some (b, act)) := by
  unfold rejectsCode
  cases hcode : MessageType.ofCode msgType with
  | none =>
      rw [stateGamePlaySwitch, hcode] at h
      cases h
      exact ⟨rfl, rfl⟩
  | some type =>
      have hquiet : (∀ b, w.boardAct env b type msg = none) →
          ret = true ∧ Quiet w w' → ret = true ∧ Outcome u w w' (do
            let (b, _) ← w.chair u
            let type ← some type
            let act ← w.boardAct env b type msg
            some (b, act)) := by
        rintro hnone ⟨hret, hq⟩
        refine ⟨hret, ?_⟩
        have hact : (do
            let (b, _) ← w.chair u
            let type ← some type
            let act ← w.boardAct env b type msg
            some (b, act)) = (none : Option (BoardPtr × Act)) := by
          cases w.chair u with
          | none => rfl
          | some c => simp [hnone]
        rw [hact]
        exact .quiet hq
      by_cases hgame : type.inGame = true
      · rw [stateGamePlaySwitch_inGame hcode hgame] at h
        simp only [Option.bind_eq_bind, Option.bind_eq_some_iff] at h
        obtain ⟨s, hs, h⟩ := h
        cases hboard : s.currChessBoard with
        | none =>
            -- a session without a board has no chair, and nothing happens
            rw [hboard] at h
            obtain ⟨_, rfl, hsame, n⟩ := translateMsgNull_notified hcode h
            have hchair : w.chair u = none := by
              simp [World.chair, hs, hboard]
            rw [hchair, translates_inGame hgame]
            by_cases hrej : type.rejected = true
            · rw [if_pos hrej, hrej]
              exact ⟨rfl, hsame (by rintro rfl; cases hrej)⟩
            · rw [if_neg hrej, Bool.eq_false_of_not_eq_true hrej]
              exact ⟨rfl, .quiet n.quiet⟩
        | some b =>
            rw [hboard] at h
            obtain ⟨seat, _, _, hchair⟩ := chair_eq hseating hs hboard
            have hout := translateMsg_outcome (u := u) hseating hcode hgame h
            rw [hchair]
            simp only [Option.bind_eq_bind, Option.bind_some]
            cases hact : w.boardAct env b type msg with
            | none =>
                rw [hact] at hout
                exact hout
            | some act =>
                rw [hact] at hout
                exact hout
      · rw [stateGamePlaySwitch, hcode] at h
        cases type with
        | gameHallSumaryReq =>
            exact hquiet (fun _ => rfl) (gameHallSumaryHandle_quiet h)
        | hallInfoReq => exact hquiet (fun _ => rfl) (hallInfoReqHandle_quiet h)
        | echo => exact hquiet (fun _ => rfl) (echoMsgHandle_quiet h)
        | chessBoardReq => exact hquiet (fun _ => rfl) (chessBoardReq_quiet h)
        | updateUserInfo =>
            exact hquiet (fun _ => rfl) (updateUserInfos_quiet h)
        | moveChess | userMsg | undoReq | undoReps | giveUp | gameReadyReq
        | systemMsg | reconciledReq | reconciledResp | requestPlay =>
            exact absurd rfl hgame
        | _ =>
            cases h
            exact ⟨rfl, rfl⟩

/-- A message in the game state is rejected, or is an act on the user's own
board. -/
theorem stateGamePlayMsgHandle_outcome {env : Env} {u : SessionId}
    {msgType : UInt32} {msg : Bytes} {ret : Bool} {w w' : World}
    (hseating : w.layout.Seating)
    (h : stateGamePlayMsgHandle env u msgType msg w = some (ret, w')) :
    if rejectsCode msgType then ret = false ∧ Rejects u w w'
    else ret = true ∧ Outcome u w w' (do
      let (b, _) ← w.chair u
      let type ← MessageType.ofCode msgType
      let act ← w.boardAct env b type msg
      some (b, act)) := by
  simp only [stateGamePlayMsgHandle, Option.bind_eq_bind,
    Option.bind_eq_some_iff] at h
  obtain ⟨⟨ok, w₁⟩, hswitch, h⟩ := h
  have hout := stateGamePlaySwitch_outcome hseating hswitch
  by_cases hrej : rejectsCode msgType = true
  · rw [if_pos hrej] at hout ⊢
    obtain ⟨rfl, rfl⟩ := hout
    simp only [Bool.false_eq_true, if_false, Option.bind_eq_some_iff] at h
    obtain ⟨w₂, hnext, w₃, hstatus, h⟩ := h
    cases h
    have q₁ := setNextState_own (Or.inr rfl) hnext
    have q₂ : Own u w₂ w' :=
      modifyUser_own hstatus (fun _ _ => .of_eq rfl) fun _ _ => rfl
    refine ⟨rfl, q₁.trans q₂, fun s hs => ?_⟩
    simp only [setNextState, modifyUser_eq hs, Option.some.injEq] at hnext
    subst hnext
    rw [modifyUser_eq (setUser_users_self _ _ _)] at hstatus
    cases hstatus
    simp [World.mark, UserSession.mark]
  · rw [if_neg hrej] at hout ⊢
    obtain ⟨rfl, hout⟩ := hout
    rw [if_pos rfl] at h
    cases h
    exact ⟨rfl, hout⟩

/-! ## Any state -/

/-- What the state object of a session makes of a message. -/
theorem msgHandle_outcome {env : Env} {state : StateType} {u : SessionId}
    {s : UserSession} {msgType : UInt32} {msg : Bytes} {ret : Bool}
    {w w' : World} (hseating : w.layout.Seating) (hs : w.users u = some s)
    (hstate : s.stateMachine = some state)
    (hstand : state ≠ .gamePlay → s.currChessBoard = none)
    (h : state.msgHandle env u msgType msg w = some (ret, w')) :
    (ret = true ∧ Outcome u w w' (w.messageAct env u msgType msg)) ∨
      (ret = false ∧ state ≠ .gamePlay ∧
        w.messageAct env u msgType msg = none ∧ Own u w w') ∨
      (ret = false ∧ state = .gamePlay ∧ rejectsCode msgType = true ∧
        Rejects u w w') := by
  have hown : state ≠ .gamePlay → Own u w w' →
      w.messageAct env u msgType msg = none →
      (ret = true ∧ Outcome u w w' (w.messageAct env u msgType msg)) ∨
      (ret = false ∧ state ≠ .gamePlay ∧
        w.messageAct env u msgType msg = none ∧ Own u w w') ∨
      (ret = false ∧ state = .gamePlay ∧ rejectsCode msgType = true ∧
        Rejects u w w') := by
    intro hne q hact
    cases ret with
    | true =>
        refine Or.inl ⟨rfl, ?_⟩
        rw [hact]
        refine .own q fun p hp => ?_
        simp only [World.layout, hs, Option.map_some, Option.some.injEq] at hp
        exact hp ▸ hstand hne
    | false => exact Or.inr (Or.inl ⟨rfl, hne, hact, q⟩)
  cases state with
  | auth =>
      refine hown (by decide) (stateAuthMsgHandle_own ⟨s, hs, hstate⟩ h) ?_
      simp [World.messageAct, hs, hstate]
  | downAd =>
      refine hown (by decide) (stateAdPictureDownloadMsgHandle_own h) ?_
      simp [World.messageAct, hs, hstate]
  | gameReady =>
      have hact : w.messageAct env u msgType msg =
          if MessageType.ofCode msgType = some .requestPlay then
            w.joinAct env u msg
          else none := by
        simp [World.messageAct, hs, hstate]
      have hplain : MessageType.ofCode msgType ≠ some .requestPlay →
          Own u w w' → _ := fun hcode q =>
        hown (by decide) q (by rw [hact, if_neg hcode])
      simp only [StateType.msgHandle, stateGameReadyMsgHandle] at h
      split at h
      · rename_i hcode
        exact hplain (by simp [hcode]) ((gameHallSumaryHandle_quiet h).2.own u)
      · rename_i hcode
        exact hplain (by simp [hcode]) ((hallInfoReqHandle_quiet h).2.own u)
      · rename_i hcode
        obtain ⟨hret, hcases⟩ := gameRequestHandle_cases hseating hs
          (hstand (by decide)) h
        rw [if_pos hcode] at hact
        rcases hcases with ⟨hnone, q⟩ | ⟨b, seat, hjoin, hfree, hj⟩
        · exact hown (by decide) q (hact.trans hnone)
        · refine Or.inl ⟨hret, ?_⟩
          rw [hact, hjoin]
          exact .joins hs (hstand (by decide)) hfree hj
      · rename_i hcode
        exact hplain (by simp [hcode]) ((echoMsgHandle_quiet h).2.own u)
      · rename_i hcode
        exact hplain (by simp [hcode]) ((updateUserInfos_quiet h).2.own u)
      · rename_i hcode _ _
        cases h
        exact hplain hcode (Own.refl u w)
  | gamePlay =>
      have hout := stateGamePlayMsgHandle_outcome hseating h
      by_cases hrej : rejectsCode msgType = true
      · rw [if_pos hrej] at hout
        exact Or.inr (Or.inr ⟨hout.1, rfl, hrej, hout.2⟩)
      · rw [if_neg hrej] at hout
        refine Or.inl ⟨hout.1, ?_⟩
        have hact : w.messageAct env u msgType msg = (do
            let (b, _) ← w.chair u
            let type ← MessageType.ofCode msgType
            let act ← w.boardAct env b type msg
            some (b, act)) := by
          simp [World.messageAct, hs, hstate, hrej]
        rw [hact]
        exact hout.2

end ChessServer
