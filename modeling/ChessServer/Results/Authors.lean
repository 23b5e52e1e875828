import ChessServer.Model.Client
import ChessServer.Model.Chairs
import ChessServer.Proofs.Requests

/-!
# Who is the author of an in-game message

`TranslateMsg` does not pass on which session sent a message.  The user on
the chair that the message names is taken for its author, on the board of
the sender (`named_seat_is_author`); what a request for another game sends is
about the board that it names.
-/

namespace ChessServer

open Wire

/-! ## Three players BEGAN start at once -/

/-- No act leaves three players BEGAN. -/
theorem Act.apply_began {t : Table} (a : Act)
    (h : t.count (· == .began) ≤ 2) : (a.apply t).count (· == .began) ≤ 2 := by
  have hkeep : ∀ {t' : Table}, t'.count (· == .began) ≤ t.count (· == .began) →
      t'.count (· == .began) ≤ 2 := fun hle => hle.trans h
  cases a with
  | join seat user score =>
      refine hkeep (Table.count_le fun seat' hs => ?_)
      have hplayers : (t.join seat user score).players =
          Function.update t.players seat (some ⟨user, .ready, score⟩) := by
        unfold Table.join
        dsimp only
        split <;> rfl
      rw [Table.passes_eq] at hs ⊢
      rw [Act.apply, hplayers] at hs
      by_cases hseat : seat' = seat
      · subst hseat
        simp at hs
      · rwa [Function.update_of_ne hseat] at hs
  | leave seat => exact hkeep (Table.count_leave_le rfl t seat)
  | reject seat =>
      refine hkeep ((Table.count_leave_le rfl _ seat).trans ?_)
      exact Table.count_modify_le (by simp) t seat
  | surrender seat => exact hkeep (Table.count_surrender_le rfl t seat)
  | move m =>
      have hcapture : (t.capture m).count (· == .began) ≤
          t.count (· == .began) := by
        unfold Table.capture
        split
        · refine (Table.count_modifyAt_le (by simp) _ _).trans ?_
          exact Table.count_modifyAt_le (by simp)
            (t.setRecent m.srcLocate m.targetLocate) _
        · exact Nat.le_refl _
      refine hkeep ?_
      simp only [Act.apply, Table.move]
      split
      · exact hcapture
      · exact (Table.count_modifyAt_le (by simp) _ _).trans hcapture
  | draw => exact hkeep (Table.count_endAll_le rfl t)
  | undo =>
      refine hkeep ?_
      simp only [Act.apply, Table.undo]
      split
      · refine (Table.count_modifyAt_le (by simp) _ _).trans ?_
        exact Table.count_modifyAt_le (by simp) _ _
      · exact Nat.le_refl _
  | ready m =>
      simp only [Act.apply, Table.ready]
      split
      · refine Nat.le_trans (Table.count_le (t := t) fun seat hs => ?_) h
        rw [Table.passes_modifyAll] at hs
        simp only [Table.setStatus_status, Option.any_eq_true] at hs
        obtain ⟨_, _, hs⟩ := hs
        cases hs
      · rename_i hne
        have := Table.count_le_three ((t.modifyAt m.srcUserLocate
          (Table.setStatus .began)).chooseTime m) (· == .began)
        omega
  | again seat began =>
      refine hkeep ?_
      simp only [Act.apply, Table.again]
      split
      · exact Table.count_modify_le (by simp) t seat
      · exact Nat.le_refl _

theorem reachable_began {env : Env} {w : World}
    (h : (server env).Reachable w) (b : BoardPtr) :
    (w.table b).count (· == .began) ≤ 2 := by
  revert b
  refine h.invariant_of (J := fun w => w.layout.Inv)
    (I := fun w => ∀ b, (w.table b).count (· == .began) ≤ 2) reachable_inv
    (fun b => by
      have hinit : (World.init.table b).count (· == .began) = 0 := rfl
      simp [server, hinit]) ?_
  intro e w w' hinv hbegan henabled _ hstep b
  rw [(step_spec hinv henabled hstep).table b]
  unfold World.tableAfter
  cases w.act env e with
  | none => exact hbegan b
  | some c =>
      dsimp only
      split
      · exact c.2.apply_began (hbegan b)
      · exact hbegan b

/-! ## The author -/

/-- The location that a message names for its author. -/
def authorLocate (env : Env) (type : MessageType) (msg : Bytes) :
    Option Location :=
  match type with
  | .moveChess => (env.proto.moveChess msg).map (·.srcLocate)
  | .giveUp => (env.proto.giveUp msg).map (·.srcUserLocate)
  | .gameReadyReq => (env.proto.gameReadyReq msg).map (·.srcUserLocate)
  | .requestPlay => do
      let m ← env.proto.requestPlay msg
      let _ ← getGameHall m.gameHallId.toUInt32
      some m.locate.toUInt32
  | _ => none

/-- The chair of board `b` whose user is taken for the author. -/
def World.authorSeat (env : Env) (w : World) (b : BoardPtr)
    (type : MessageType) (msg : Bytes) : Option Seat := do
  let locate ← authorLocate env type msg
  let seat ← seatAt locate
  let _ ← (w.boards b).seat seat
  some seat

/-- The board that REQUEST_PLAY names. -/
def World.namedBoard (env : Env) (w : World) (msg : Bytes) :
    Option BoardPtr := do
  let m ← env.proto.requestPlay msg
  let hall ← getGameHall m.gameHallId.toUInt32
  (w.getChessBoardByID hall m.chessBoardId.toUInt32).1

/-- Whether a game goes on there. -/
def World.namedBegan (env : Env) (w : World) (msg : Bytes) : Bool :=
  (w.namedBoard env msg).any fun c => (w.table c).began

/-- The table at board `b` after the user on `seat` did what a message says:
moved, gave up or left, declared itself ready, asked to play again. -/
def World.authored (env : Env) (w : World) (b : BoardPtr)
    (type : MessageType) (msg : Bytes) (seat : Seat) : Table :=
  match type with
  | .moveChess =>
      match env.proto.moveChess msg with
      | some m => (w.table b).move m
      | none => w.table b
  | .giveUp =>
      if (env.proto.giveUp msg).any (·.exits) then (w.table b).leave seat
      else (w.table b).surrender seat
  | .gameReadyReq =>
      match env.proto.gameReadyReq msg with
      | some m => (w.table b).ready m
      | none => w.table b
  | .requestPlay => (w.table b).again seat (w.namedBegan env msg)
  | _ => w.table b

/-- The message types that name an author. -/
def MessageType.authored : MessageType → Bool
  | .moveChess | .giveUp | .gameReadyReq | .requestPlay => true
  | _ => false

theorem MessageType.authored_inGame {type : MessageType}
    (h : type.authored = true) :
    type.inGame = true ∧ type.rejected = false := by
  cases type <;> simp_all [MessageType.authored, MessageType.inGame,
    MessageType.rejected]

/-- A message with an author does what it says for that author. -/
theorem tableAfter_authored {env : Env} {w : World} {b : BoardPtr}
    {type : MessageType} {msg : Bytes} {seat : Seat}
    (h : w.authorSeat env b type msg = some seat) :
    w.tableAfter ((w.boardAct env b type msg).map fun a => (b, a)) b =
      w.authored env b type msg seat := by
  simp only [World.authorSeat, Option.bind_eq_bind,
    Option.bind_eq_some_iff] at h
  obtain ⟨locate, hlocate, seat', hseat, v, hv, h⟩ := h
  cases h
  cases type with
  | moveChess =>
      simp only [authorLocate, Option.map_eq_some_iff] at hlocate
      obtain ⟨m, hmsg, _⟩ := hlocate
      simp [World.tableAfter, World.boardAct, World.authored, hmsg, Act.apply]
  | giveUp =>
      simp only [authorLocate, Option.map_eq_some_iff] at hlocate
      obtain ⟨giveup, hmsg, rfl⟩ := hlocate
      cases hexits : giveup.exits <;>
        simp [World.tableAfter, World.boardAct, World.authored, hmsg, hseat,
          hv, hexits, Act.apply]
  | gameReadyReq =>
      simp only [authorLocate, Option.map_eq_some_iff] at hlocate
      obtain ⟨m, hmsg, _⟩ := hlocate
      simp [World.tableAfter, World.boardAct, World.authored, hmsg, Act.apply]
  | requestPlay =>
      simp only [authorLocate, Option.bind_eq_bind,
        Option.bind_eq_some_iff] at hlocate
      obtain ⟨m, hmsg, hall, hhall, hname⟩ := hlocate
      cases hname
      simp only [World.tableAfter, World.boardAct, World.authored,
        World.namedBegan, World.namedBoard, hmsg, hhall, hseat,
        Option.bind_eq_bind, Option.bind_some]
      cases (w.getChessBoardByID hall m.chessBoardId.toUInt32).1 with
      | none => simp [Table.again]
      | some c => simp [Act.apply]
  | _ => cases hlocate

/-- Nobody sits where the location points, if anywhere. -/
theorem Table.modifyAt_players {t : Table} {locate : Location}
    (h : ∀ seat, seatAt locate = some seat → t.players seat = none)
    (f : Player → Player) : (t.modifyAt locate f).players = t.players := by
  unfold modifyAt
  split
  · rename_i seat hseat
    rw [modify_of_none (h seat hseat) f]
  · rfl

/-- A message without an author changes no player, unless it is a move. -/
theorem tableAfter_nobody {env : Env} {w : World} {b : BoardPtr}
    {type : MessageType} {msg : Bytes}
    (h : w.authorSeat env b type msg = none)
    (hmove : type = .moveChess → env.proto.moveChess msg = none)
    (hbegan : (w.table b).count (· == .began) ≤ 2)
    (hauthored : type.authored = true) :
    (w.tableAfter ((w.boardAct env b type msg).map fun a => (b, a))
      b).players = (w.table b).players := by
  have hempty : ∀ locate, authorLocate env type msg = some locate →
      ∀ seat, seatAt locate = some seat → (w.boards b).seat seat = none := by
    intro locate hlocate seat hseat
    simp only [World.authorSeat, hlocate, hseat, Option.bind_eq_bind,
      Option.bind_some] at h
    cases hv : (w.boards b).seat seat with
    | none => rfl
    | some v => simp [hv] at h
  have hplayers : ∀ locate, authorLocate env type msg = some locate →
      ∀ seat, seatAt locate = some seat → (w.table b).players seat = none :=
    fun locate hlocate seat hseat => by
      simp [World.table, hempty locate hlocate seat hseat]
  cases type with
  | moveChess =>
      simp [World.tableAfter, World.boardAct, hmove rfl]
  | giveUp =>
      cases hact : w.boardAct env b .giveUp msg with
      | none => rfl
      | some a =>
          rcases World.boardAct_cases hact with ⟨_, htype, _⟩ |
            ⟨_, htype, _⟩ | ⟨giveup, seat, _, hmsg, hlocate, hsome, _⟩ |
            ⟨_, htype, _⟩ | ⟨_, htype, _⟩ | ⟨_, _, _, _, htype, _⟩
          case inr.inr.inl =>
            have hnone := hempty giveup.srcUserLocate
              (by simp [authorLocate, hmsg]) seat (by simp [hlocate])
            rw [hnone] at hsome
            cases hsome
          all_goals simp at htype
  | gameReadyReq =>
      cases hmsg : env.proto.gameReadyReq msg with
      | none => simp [World.tableAfter, World.boardAct, hmsg]
      | some m =>
          have hkeep := Table.modifyAt_players (t := w.table b)
            (hplayers m.srcUserLocate (by simp [authorLocate, hmsg]))
            (Table.setStatus .began)
          have hcount : (((w.table b).modifyAt m.srcUserLocate
              (Table.setStatus .began)).chooseTime m).count (· == .began) ≠
              3 := by
            have hsame : (((w.table b).modifyAt m.srcUserLocate
                (Table.setStatus .began)).chooseTime m).count (· == .began) =
                (w.table b).count (· == .began) :=
              Table.count_congr fun seat => by
                rw [Table.passes_eq, Table.passes_eq,
                  Table.players_chooseTime, hkeep]
            omega
          simp only [World.tableAfter, World.boardAct, hmsg, Option.map_some,
            if_true, Act.apply, Table.ready, hcount, if_false,
            Table.players_chooseTime, hkeep]
  | requestPlay =>
      cases hact : w.boardAct env b .requestPlay msg with
      | none => rfl
      | some a =>
          rcases World.boardAct_cases hact with ⟨_, htype, _⟩ |
            ⟨_, htype, _⟩ | ⟨_, _, htype, _⟩ | ⟨_, htype, _⟩ | ⟨_, htype, _⟩ |
            ⟨m, hall, seat, c, _, hmsg, hhall, hlocate, _, rfl⟩
          case inr.inr.inr.inr.inr =>
            have hnone := hplayers m.locate.toUInt32
              (by simp [authorLocate, hmsg, hhall]) seat (by simp [hlocate])
            simp only [World.tableAfter, Option.map_some, if_true, Act.apply,
              Table.again]
            split
            · rw [Table.modify_of_none hnone]
            · rfl
          all_goals simp at htype
  | _ => simp [MessageType.authored] at hauthored

/-! ## The step of an in-game message -/

/-- An in-game message of a session in the game state reaches `TranslateMsg`
on the session's board, and the session keeps its connection. -/
theorem in_game_step {env : Env} {u : SessionId} {s : UserSession}
    {b : BoardPtr} {data msg : Bytes} {msgType : UInt32} {type : MessageType}
    {w w' : World} (hinv : w.layout.Inv) (hs : w.users u = some s)
    (hplay : s.stateMachine = some .gamePlay)
    (hboard : s.currChessBoard = some b)
    (hrecv : w.received u data = .message msgType msg)
    (htype : MessageType.ofCode msgType = some type)
    (hgame : type.inGame = true) (hkept : type.rejected = false)
    (hstep : World.step env (.read u data) w = some w') :
    ∃ w₀ w₁ w₂, Buffers u w w₀ ∧ w₀.layout.Inv ∧
      translateMsg env b msgType msg w₀ = some (true, w₁) ∧
      Handled u w₀ w₂ ((w.boardAct env b type msg).map fun a => (b, a)) ∧
      Buffers u w₂ w' ∧ w'.sent = w₁.sent := by
  obtain ⟨w₀, s₀, ret, w₂, hb, hinv₀, hreg₀, hs₀, hcore, hmsg, hlast⟩ :=
    read_message hinv hs hrecv hstep
  obtain ⟨_, _, _, hboard₀, hstate₀, _⟩ := core_eq hcore
  obtain ⟨rfl, w₁, htranslate, hsent⟩ := sessionMessageHandle_translates
    hinv₀.seating hs₀ (hstate₀.trans hplay) (hboard₀.trans hboard) htype
    hgame hkept hmsg
  have hact : w₀.messageAct env u msgType msg =
      (w.boardAct env b type msg).map fun a => (b, a) := by
    obtain ⟨seat, _, _, hchair⟩ :=
      chair_eq hinv₀.seating hs₀ (hboard₀.trans hboard)
    simp only [World.messageAct, hs₀, hstate₀.trans hplay, hchair,
      rejectsCode, htype, hkept, Option.bind_eq_bind, Option.bind_some,
      Bool.false_eq_true, if_false, hb.boardAct env hs]
    cases w.boardAct env b type msg <;> rfl
  rcases sessionMessageHandle_cases hinv₀ hreg₀ hs₀ hmsg with
    ⟨_, hh⟩ | ⟨hret, _⟩ | ⟨hret, _⟩
  · have hreg₂ : w₂.layout.registry s.clifd = some u := by
      rw [hh.registry, hreg₀]
    obtain ⟨s₂, hs₂, _⟩ := registered_session hh.inv.registry hreg₂
    have hend := hlast rfl
    rw [modifyUser_eq hs₂, Option.some.injEq] at hend
    subst hend
    exact ⟨w₀, w₁, w₂, hb, hinv₀, htranslate, hact ▸ hh,
      setUser_buffers hs₂ rfl, hsent⟩
  · cases hret
  · cases hret

/-- Nobody's status, score, seat, board or next state is different, and
nothing was sent. -/
structure Ignored (w w' : World) : Prop where
  tables : ∀ c, w'.table c = w.table c
  place : ∀ v sv, w.users v = some sv → ∃ sv', w'.users v = some sv' ∧
    sv'.locate = sv.locate ∧ sv'.currChessBoard = sv.currChessBoard ∧
    sv'.nextState = sv.nextState
  sent : w'.sent = w.sent

/-- A message of a session without a board does nothing, or kills the
process. -/
theorem boardless_step {env : Env} {u : SessionId} {s : UserSession}
    {data msg : Bytes} {msgType : UInt32} {type : MessageType}
    {w w' : World} (hinv : w.layout.Inv) (hs : w.users u = some s)
    (hplay : s.stateMachine = some .gamePlay)
    (hboard : s.currChessBoard = none)
    (hrecv : w.received u data = .message msgType msg)
    (htype : MessageType.ofCode msgType = some type)
    (hgame : type.inGame = true) (hkept : type.rejected = false)
    (hstep : World.step env (.read u data) w = some w') : Ignored w w' := by
  obtain ⟨w₀, s₀, ret, w₂, hb, hinv₀, _, hs₀, hcore, hmsg, hlast⟩ :=
    read_message hinv hs hrecv hstep
  obtain ⟨_, _, hlocate₀, hboard₀, hstate₀, hnext₀, hinfo₀, hstatus₀, _⟩ :=
    core_eq hcore
  obtain ⟨rfl, w₁, state, htranslate, n, rfl⟩ := sessionMessageHandle_boardless
    hs₀ (hstate₀.trans hplay) (hboard₀.trans hboard) htype hgame hkept hmsg
  have hsent₁ := translateMsgNull_sent htranslate
  have hend := hlast rfl
  rw [modifyUser_eq (setUser_users_self _ _ _), Option.some.injEq,
    setUser_setUser] at hend
  subst hend
  have husers : ∀ v, v ≠ u → (w₁.setUser u { s₀ with
      stateMachine := state, bufInfo := {} }).users v = w.users v := by
    intro v hv
    rw [← hb.users v hv, ← n.users]
    simp [World.setUser, hv]
  refine ⟨fun c => ?_, fun v sv hv => ?_, ?_⟩
  · refine table_eq_of_marks ?_ fun seat v _ => ?_
    · show w₁.boards c = w.boards c
      rw [n.boards, hb.boards]
    · by_cases hvu : v = u
      · subst hvu
        simp [World.mark, hs, UserSession.mark, hinfo₀, hstatus₀]
      · rw [World.mark, World.mark, husers v hvu]
  · by_cases hvu : v = u
    · subst hvu
      rw [hs, Option.some.injEq] at hv
      subst hv
      exact ⟨_, setUser_users_self _ _ _, hlocate₀, hboard₀, hnext₀⟩
    · exact ⟨sv, by rw [husers v hvu, hv], rfl, rfl, rfl⟩
  · show w₁.sent = w.sent
    rw [hsent₁, hb.sent]

/-- User `v` of board `b` is told whether it may play again, with what is
known of board `c`. -/
def ToldOf (w w' : World) (b c : BoardPtr) (v : SessionId) : Prop :=
  ∃ sv reply, w.users v = some sv ∧
    reply.firstComeUserLocate = (w.boards c).firstComeUserLocate ∧
    (ToldAgain b c v sv reply w w' ∨ ToldOn c v sv reply w w')

/-- The message of a session on board `b` was done for the user that it
names, and for nobody else. -/
structure Authored (env : Env) (b : BoardPtr) (type : MessageType)
    (msg : Bytes) (w w' : World) : Prop where
  /-- the user on the named chair of the sender's board is the author -/
  author : ∀ seat, w.authorSeat env b type msg = some seat →
    w'.table b = w.authored env b type msg seat
  /-- without such a user, no status, score or seat changes -/
  nobody : w.authorSeat env b type msg = none →
    (w'.table b).players = (w.table b).players
  /-- no board but the sender's changes -/
  others : ∀ c, c ≠ b → w'.table c = w.table c
  /-- everybody but the author keeps seat, board and next state -/
  place : ∀ v sv, w.users v = some sv →
    (∀ seat, w.authorSeat env b type msg = some seat →
      (w.boards b).seat seat ≠ some v) →
    ∃ sv', w'.users v = some sv' ∧ sv'.locate = sv.locate ∧
      sv'.currChessBoard = sv.currChessBoard ∧
      sv'.nextState = sv.nextState
  /-- a request for another game is answered with what is known of the board
  that it names -/
  told : type = .requestPlay → ∀ seat,
    w.authorSeat env b type msg = some seat →
    ∃ v c, (w.boards b).seat seat = some v ∧
      w.namedBoard env msg = some c ∧ ToldOf w w' b c v
  /-- without an author it is not answered -/
  untold : type = .requestPlay → w.authorSeat env b type msg = none →
    w'.sent = w.sent

/-- The user of every other chair stays. -/
theorem authored_sitter {env : Env} {w : World} {b : BoardPtr}
    {type : MessageType} {msg : Bytes} {seat seat' : Seat}
    (hne : seat' ≠ seat) :
    (w.authored env b type msg seat).sitter seat' =
      (w.table b).sitter seat' := by
  unfold World.authored
  cases type with
  | moveChess => dsimp only; split <;> simp
  | giveUp =>
      dsimp only
      split
      · rw [Table.sitter_leave, if_neg hne]
      · simp
  | gameReadyReq => dsimp only; split <;> simp
  | requestPlay => simp
  | _ => rfl

theorem table_sitter {w : World} {b : BoardPtr} {seat : Seat}
    {u : SessionId} {s : UserSession} (hs : w.users u = some s)
    (hseat : (w.boards b).seat seat = some u) :
    (w.table b).sitter seat = some u := by
  simp [Table.sitter, World.table, hseat, hs]

theorem seat_of_sitter {w : World} {b : BoardPtr} {seat : Seat}
    {u : SessionId} (h : (w.table b).sitter seat = some u) :
    (w.boards b).seat seat = some u := by
  simp only [Table.sitter, World.table, Option.bind_eq_bind,
    Option.map_eq_some_iff, Option.bind_eq_some_iff] at h
  obtain ⟨p, ⟨v, hv, s, _, hp⟩, hu⟩ := h
  cases hp
  rw [hv]
  exact congrArg some hu

/-- Who leaves the board by a message is the user on the chair it names. -/
theorem authorSeat_of_leave {env : Env} {w : World} {b : BoardPtr}
    {type : MessageType} {msg : Bytes} {seat : Seat} {v : SessionId}
    (hact : w.boardAct env b type msg = some (.leave seat))
    (hv : (w.boards b).seat seat = some v) :
    w.authorSeat env b type msg = some seat := by
  obtain ⟨rfl, giveup, hmsg, _, hlocate⟩ := World.boardAct_leave hact
  simp [World.authorSeat, authorLocate, hmsg, hlocate, hv]

/-- A MOVE that names an empty chair kills the server. -/
theorem authorSeat_of_move {env : Env} {w w₁ w' : World} {u : SessionId}
    {b : BoardPtr} {msgType : UInt32} {msg : Bytes} {ret : Bool}
    (hinv : w₁.layout.Inv) (hb : Buffers u w w₁)
    (htype : MessageType.ofCode msgType = some .moveChess)
    (h : translateMsg env b msgType msg w₁ = some (ret, w'))
    (hnobody : w.authorSeat env b .moveChess msg = none) :
    env.proto.moveChess msg = none := by
  cases hmsg : env.proto.moveChess msg with
  | none => rfl
  | some m =>
      simp only [translateMsg, htype] at h
      obtain ⟨_, _, seat, hlocate, hseat⟩ :=
        moveChessHandle_plays hinv.seating.distinct hmsg h
      rw [hb.boards] at hseat
      obtain ⟨v, hv⟩ := Option.ne_none_iff_exists'.mp hseat
      simp [World.authorSeat, authorLocate, hmsg, hlocate, hv] at hnobody

/-- A session that stays on its chair keeps its place. -/
theorem place_of_sitter {w w' : World} {b : BoardPtr} {u : SessionId}
    {s : UserSession} (hinv : w.layout.Inv) (hinv' : w'.layout.Inv)
    (hs : w.users u = some s) (hboard : s.currChessBoard = some b)
    (hsitter : ∀ seat, (w.boards b).seat seat = some u →
      (w'.table b).sitter seat = some u) :
    ∃ s', w'.users u = some s' ∧ s'.locate = s.locate ∧
      s'.currChessBoard = s.currChessBoard ∧ s'.nextState = s.nextState := by
  obtain ⟨seat, hlocate, hseat, _⟩ := chair_eq hinv.seating hs hboard
  obtain ⟨p, hp, hboard', hlocate'⟩ :=
    hinv'.seating.seated (b := b) (seat_of_sitter (hsitter seat hseat))
  obtain ⟨s', hs', rfl⟩ := place_session hp
  have hsettled := hinv.settled u s.place (by simp [World.layout, hs]) (by simp)
  have hsettled' := hinv'.settled u s'.place hp (by simp)
  rw [Place.Settled, if_pos (by simp [UserSession.place, hboard])] at hsettled
  rw [Place.Settled, if_pos (by simp [hboard'])] at hsettled'
  exact ⟨s', hs', hlocate'.trans hlocate.symm, hboard'.trans hboard.symm,
    hsettled'.2.trans hsettled.2.symm⟩

/-! ## What a request for another game sends -/

/-- What is shown of a board depends on the users on it only. -/
theorem wrapChessBoardInfo_core {w w' : World} (c : BoardPtr)
    (hboards : w'.boards = w.boards)
    (husers : ∀ v, (w'.users v).map UserSession.core =
      (w.users v).map UserSession.core) :
    wrapChessBoardInfo c w' = wrapChessBoardInfo c w := by
  have hwrap : ∀ v, w'.wrapUser v = w.wrapUser v := by
    intro v
    cases v with
    | none => rfl
    | some v =>
        have hv := husers v
        cases hs : w.users v with
        | none =>
            rw [hs, Option.map_none, Option.map_eq_none_iff] at hv
            simp only [World.wrapUser, hs, hv]
        | some s =>
            rw [hs, Option.map_some, Option.map_eq_some_iff] at hv
            obtain ⟨s', hs', hcore⟩ := hv
            obtain ⟨_, _, _, _, _, _, hinfo, hstatus, _⟩ := core_eq hcore
            simp only [World.wrapUser, hs, hs', Option.map_some, hinfo, hstatus]
  simp only [wrapChessBoardInfo, hboards, hwrap]

/-- Being READY again does not depend on what has been received. -/
theorem Buffers.readied {u v : SessionId} {s₀ s s' : UserSession}
    {w w' : World} (h : Buffers u w w') (hu : w.users u = some s₀)
    (hs : w.users v = some s) (hs' : w'.users v = some s') (x : SessionId) :
    ((w'.readied v s').users x).map UserSession.core =
      ((w.readied v s).users x).map UserSession.core := by
  have hcore := h.core hu x
  by_cases hx : x = v
  · subst hx
    rw [hs, hs', Option.map_some, Option.map_some, Option.some.injEq] at hcore
    simp only [World.readied, setUser_users_self, Option.map_some,
      Option.some.injEq]
    exact congrArg (fun t : UserSession => { t with status := .ready }) hcore
  · simpa [World.readied, World.setUser, hx] using hcore

theorem readied_table {u v : SessionId} {s₀ s s' : UserSession}
    {w w' : World} (h : Buffers u w w') (hu : w.users u = some s₀)
    (hs : w.users v = some s) (hs' : w'.users v = some s') (c : BoardPtr) :
    (w'.readied v s').table c = (w.readied v s).table c := by
  refine table_eq_of_marks (congrFun h.boards c) fun _ x _ => ?_
  have hmark := congrArg (Option.map UserSession.mark)
    (h.readied hu hs hs' x)
  rw [Option.map_map, Option.map_map] at hmark
  exact hmark

/-- What is sent does not depend on what has been received either. -/
theorem Buffers.toldOf {u v : SessionId} {b c : BoardPtr}
    {s₀ s s' : UserSession} {reply : RequestPlayReply} {w w₀ w₁ w' : World}
    (h : Buffers u w w₀) (hu : w.users u = some s₀)
    (hs : w.users v = some s) (hs' : w₀.users v = some s')
    (hfirst : reply.firstComeUserLocate =
      (w₀.boards c).firstComeUserLocate) (hsent : w'.sent = w₁.sent)
    (htold : ToldAgain b c v s' reply w₀ w₁ ∨ ToldOn c v s' reply w₀ w₁) :
    ToldOf w w' b c v := by
  have hcore : s'.core = s.core := by
    have hv := h.core hu v
    rwa [hs, hs', Option.map_some, Option.map_some, Option.some.injEq] at hv
  obtain ⟨_, _, hlocate, _, _, _, _, hstatus, _⟩ := core_eq hcore
  have hbegan : (w₀.table c).began = (w.table c).began := by rw [h.table hu]
  have hsends : ∀ {news}, Sends w₀ w₁ news → Sends w w' news := by
    intro news hnews
    unfold Sends at hnews ⊢
    rw [hsent, hnews, h.sent]
  refine ⟨s, reply, hs, by rw [hfirst, h.boards], ?_⟩
  rcases htold with again | on
  · obtain ⟨info, hinfo, hwrap⟩ := again.snapshot
    obtain ⟨news, hnews, hready, hlast⟩ := again.sends
    have haudience : againNews w₀ b s'.locate v reply =
        againNews w b s.locate v reply := by
      unfold againNews World.audience
      rw [h.boards, hlocate]
    refine Or.inl ⟨again.status, ?_, ⟨info, hinfo, ?_⟩, news, hnews,
      fun hne => ?_, ?_⟩
    · rw [← hbegan, ← hstatus]
      exact again.granted
    · have hsame : wrapChessBoardInfo c (w₀.readied v s') =
          wrapChessBoardInfo c (w.readied v s) :=
        wrapChessBoardInfo_core c h.boards (h.readied hu hs hs')
      rw [← hsame, hwrap]
    · rw [← readied_table h hu hs hs' c]
      exact hready hne
    · rw [← haudience]
      exact hsends hlast
  · refine Or.inr ⟨on.status, ?_, on.snapshot, hsends on.sends⟩
    rw [← hbegan, ← hstatus]
    exact on.refused

/-- Who is asked about when a request for another game has an author. -/
theorem authorSeat_requestPlay {env : Env} {w : World} {b : BoardPtr}
    {msg : Bytes} {seat : Seat}
    (h : w.authorSeat env b .requestPlay msg = some seat) :
    ∃ m hall v, env.proto.requestPlay msg = some m ∧
      getGameHall m.gameHallId.toUInt32 = some hall ∧
      m.locate.toUInt32 = seat.location ∧
      (w.boards b).seat seat = some v := by
  simp only [World.authorSeat, authorLocate, Option.bind_eq_bind,
    Option.bind_eq_some_iff] at h
  obtain ⟨_, ⟨m, hmsg, hall, hhall, hname⟩, seat', hseat, v, hv, h⟩ := h
  cases h
  cases hname
  exact ⟨m, hall, v, hmsg, hhall, seatAt_eq_some_iff.mp hseat, hv⟩

/-- The replies to a request for another game. -/
theorem gameAgain_told {env : Env} {u : SessionId} {s : UserSession}
    {b : BoardPtr} {msgType : UInt32} {msg : Bytes} {seat : Seat}
    {w w₀ w₁ w' : World} (hinv₀ : w₀.layout.Inv) (hb : Buffers u w w₀)
    (hs : w.users u = some s)
    (htype : MessageType.ofCode msgType = some .requestPlay)
    (htranslate : translateMsg env b msgType msg w₀ = some (true, w₁))
    (hsent : w'.sent = w₁.sent)
    (hname : w.authorSeat env b .requestPlay msg = some seat) :
    ∃ v c, (w.boards b).seat seat = some v ∧
      w.namedBoard env msg = some c ∧ ToldOf w w' b c v := by
  obtain ⟨m, hall, v, hmsg, hhall, hlocate, hv⟩ :=
    authorSeat_requestPlay hname
  simp only [translateMsg, htype] at htranslate
  have hv₀ : (w₀.boards b).getUserByLocation m.locate.toUInt32 = some v := by
    rw [hlocate, getUserByLocation_location, hb.boards, hv]
  have hfound := getChessBoardByID_fst_congr hb.halls hall
    m.chessBoardId.toUInt32
  cases hboard : (w₀.getChessBoardByID hall m.chessBoardId.toUInt32).1 with
  | none =>
      have n := getChessBoardByID_notified hall m.chessBoardId.toUInt32 w₀
      simp [gameAgainHandle, hmsg, hhall, hboard, n.boards, hv₀] at htranslate
  | some c =>
      obtain ⟨p, hp, honline, hstate⟩ := hinv₀.connected.seated
        (show (w₀.boards b).seat seat = some v by rw [hb.boards, hv])
      obtain ⟨sv₀, hsv₀, rfl⟩ := place_session hp
      have hg : Guest w₀ v sv₀ := ⟨hsv₀, honline, hstate, hinv₀.connected⟩
      obtain ⟨reply, w₂, hw₂, hfirst, hcase⟩ := gameAgainHandle_answers env hg
        (seat_alone hinv₀ hsv₀ (hb.boards ▸ hv)).1 hmsg hhall hboard hv₀
      rw [htranslate, Option.some.injEq, Prod.mk.injEq] at hw₂
      obtain ⟨_, rfl⟩ := hw₂
      obtain ⟨sv, hsv⟩ : ∃ sv, w.users v = some sv := by
        by_cases hvu : v = u
        · exact ⟨s, hvu ▸ hs⟩
        · exact ⟨sv₀, by rw [← hb.users v hvu, hsv₀]⟩
      refine ⟨v, c, hv, ?_, hb.toldOf hs hsv hsv₀ hfirst hsent ?_⟩
      · simp only [World.namedBoard, hmsg, hhall, Option.bind_eq_bind,
          Option.bind_some]
        rw [← hfound, hboard]
      · rcases hcase with again | on
        · exact Or.inl again.toToldAgain
        · exact Or.inr on.toToldOn

/-- A request for another game that names no user is not answered. -/
theorem gameAgain_untold {env : Env} {u : SessionId} {b : BoardPtr}
    {msgType : UInt32} {msg : Bytes} {w w₀ w₁ w' : World}
    (hb : Buffers u w w₀)
    (htype : MessageType.ofCode msgType = some .requestPlay)
    (htranslate : translateMsg env b msgType msg w₀ = some (true, w₁))
    (hsent : w'.sent = w₁.sent)
    (hname : w.authorSeat env b .requestPlay msg = none) :
    w'.sent = w.sent := by
  rw [hsent, ← hb.sent]
  simp only [translateMsg, htype] at htranslate
  unfold gameAgainHandle at htranslate
  cases hmsg : env.proto.requestPlay msg with
  | none =>
      rw [hmsg] at htranslate
      cases htranslate
      rfl
  | some m =>
      rw [hmsg] at htranslate
      dsimp only at htranslate
      cases hhall : getGameHall m.gameHallId.toUInt32 with
      | none =>
          rw [hhall] at htranslate
          cases htranslate
          rfl
      | some hall =>
          rw [hhall] at htranslate
          have n := getChessBoardByID_notified hall m.chessBoardId.toUInt32 w₀
          have hkeep := (getChessBoardByID_keeps w₀ hall
            m.chessBoardId.toUInt32).1
          have hnobody : (w₀.boards b).getUserByLocation
              m.locate.toUInt32 = none := by
            cases hv : (w₀.boards b).getUserByLocation m.locate.toUInt32 with
            | none => rfl
            | some v =>
                obtain ⟨seat, hlocate, hseat⟩ := getUserByLocation_eq_some hv
                rw [hb.boards] at hseat
                simp [World.authorSeat, authorLocate, hmsg, hhall, hlocate,
                  hseat] at hname
          dsimp only at htranslate
          rw [n.boards, hnobody] at htranslate
          cases htranslate
          exact hkeep

/-! ## The author is the user on the named chair -/

/-- A message of a session in the game state that names an author is done on
the session's own board, for whoever sits on the chair that it names; without
a board it does nothing. -/
theorem named_seat_is_author {env : Env} {w w' : World} {u : SessionId}
    {s : UserSession} {data msg : Bytes} {msgType : UInt32}
    {type : MessageType} (h : (server env).Reachable w)
    (hs : w.users u = some s) (hplay : s.stateMachine = some .gamePlay)
    (hrecv : w.received u data = .message msgType msg)
    (htype : MessageType.ofCode msgType = some type)
    (hauthored : type.authored = true)
    (hstep : World.step env (.read u data) w = some w') :
    (∃ b, s.currChessBoard = some b ∧ Authored env b type msg w w') ∨
      (s.currChessBoard = none ∧ Ignored w w') := by
  have hinv := reachable_inv h
  obtain ⟨hgame, hkept⟩ := MessageType.authored_inGame hauthored
  cases hboard : s.currChessBoard with
  | none =>
      exact Or.inr ⟨rfl, boardless_step hinv hs hplay hboard hrecv htype hgame
        hkept hstep⟩
  | some b =>
  refine Or.inl ⟨b, rfl, ?_⟩
  obtain ⟨w₀, w₁, w₂, hb, hinv₀, htranslate, hh, hb₂, hsent⟩ :=
    in_game_step hinv hs hplay hboard hrecv htype hgame hkept hstep
  have hreg := hinv.registry.onBoard (u := u) (p := s.place)
    (by simp [World.layout, hs]) hboard
  have hreg₂ : w₂.layout.registry s.place.clifd = some u := by
    rw [hh.registry, hb.registry, hreg]
  obtain ⟨s₂, hs₂, _⟩ := registered_session hh.inv.registry hreg₂
  have hinv' := hb₂.inv hh.inv hreg₂
  have htable : ∀ c, w'.table c =
      w.tableAfter ((w.boardAct env b type msg).map fun a => (b, a)) c := by
    intro c
    rw [hb₂.table hs₂, hh.table]
    exact tableAfter_congr (hb.table hs) _ c
  have hauthor : ∀ seat, w.authorSeat env b type msg = some seat →
      w'.table b = w.authored env b type msg seat := by
    intro seat hseat
    rw [htable, tableAfter_authored hseat]
  have hnobody : w.authorSeat env b type msg = none →
      (w'.table b).players = (w.table b).players := by
    intro hnone
    rw [htable]
    refine tableAfter_nobody hnone ?_ (reachable_began h b) hauthored
    rintro rfl
    exact authorSeat_of_move hinv₀ hb htype htranslate hnone
  refine ⟨hauthor, hnobody, fun c hc => ?_, fun v sv hv hnot => ?_, ?_, ?_⟩
  · rw [htable]
    cases w.boardAct env b type msg <;> simp [World.tableAfter, hc]
  · by_cases hvu : v = u
    · -- the sender keeps its chair if somebody else is the author
      subst hvu
      rw [hs] at hv
      cases hv
      refine place_of_sitter hinv hinv' hs hboard fun seat hseat => ?_
      have hsitter := table_sitter hs hseat
      cases hname : w.authorSeat env b type msg with
      | none => rwa [Table.sitter, hnobody hname, ← Table.sitter]
      | some named =>
          have hne : seat ≠ named := by
            rintro rfl
            exact hnot seat hname hseat
          rwa [hauthor named hname, authored_sitter hne]
    · have hplace : w'.layout.place v = w.layout.place v := by
        rw [hb₂.place hvu]
        rcases hh.place v hvu with hsame | ⟨c, seat, hact, hseat⟩
        · rw [hsame, hb.place hvu]
        · simp only [Option.map_eq_some_iff, Prod.mk.injEq] at hact
          obtain ⟨a, hact, rfl, rfl⟩ := hact
          rw [hb.boards] at hseat
          exact absurd hseat (hnot seat (authorSeat_of_leave hact hseat))
      rw [show w.layout.place v = some sv.place by simp [World.layout, hv]]
        at hplace
      obtain ⟨sv', hsv', hsame⟩ := place_session hplace
      simp only [UserSession.place, Place.mk.injEq] at hsame
      obtain ⟨_, _, _, _, hlocate, hboard', _, hnext⟩ := hsame
      exact ⟨sv', hsv', hlocate, hboard', hnext⟩
  · rintro rfl seat hname
    exact gameAgain_told hinv₀ hb hs htype htranslate hsent hname
  · rintro rfl hname
    exact gameAgain_untold hb htype htranslate hsent hname

/-- Two clients sit on board 1, and the one on the left gives up for the right
chair. -/
theorem named_seat_is_author_right :
    ∃ w w' : World, (server Client.env).Reachable w ∧
      World.step Client.env (.read 0 (Client.giveUp .right)) w = some w' ∧
      (w.boards ⟨1, 1⟩).seat .right = some 1 ∧
      w'.table ⟨1, 1⟩ = (w.table ⟨1, 1⟩).surrender .right := by
  let msg := encode [(1, .varint Seat.right.location.toNat)]
  obtain ⟨w, hreach, htest⟩ := Client.reachable_after (fun _ _ => True)
    (Client.enter 0 "a" 1 .left ++ Client.enter 1 "b" 1 .right)
    (fun w =>
      ((w.users 0).any fun s => s.stateMachine == some .gamePlay &&
        s.currChessBoard == some ⟨1, 1⟩) &&
      w.received 0 (Client.giveUp .right) ==
        .message MessageType.giveUp.code msg &&
      (w.boards ⟨1, 1⟩).seat .right == some 1 &&
      (World.step Client.env (.read 0 (Client.giveUp .right)) w).isSome)
    (by decide +kernel)
  simp only [Bool.and_eq_true, Option.any_eq_true, beq_iff_eq,
    Option.isSome_iff_exists] at htest
  obtain ⟨⟨⟨⟨s, hs, hplay, hboard⟩, hrecv⟩, hseat⟩, w', hstep⟩ := htest
  rcases named_seat_is_author hreach hs hplay hrecv
    (show MessageType.ofCode _ = some .giveUp from rfl) rfl hstep with
    ⟨b, hb, hdone⟩ | ⟨hnone, _⟩
  case inr =>
    rw [hboard] at hnone
    cases hnone
  rw [hboard] at hb
  cases hb
  refine ⟨w, w', hreach, hstep, hseat, ?_⟩
  have hmsg : Client.env.proto.giveUp msg =
      some ⟨Seat.right.location, none⟩ := by decide
  rw [hdone.author .right (by
    simp [World.authorSeat, authorLocate, hmsg, hseat])]
  simp [World.authored, hmsg, GiveUp.exits]

/-- Two clients sit on board 1, and the one on the left makes the other one
leave. -/
theorem author_is_not_sender :
    ¬ ∀ (w w' : World) (u v : SessionId) (s sv : UserSession) (data : Bytes)
      (msgType : UInt32) (type : MessageType) (msg : Bytes),
      (server Client.env).Reachable w → w.users u = some s →
      s.stateMachine = some .gamePlay →
      w.received u data = .message msgType msg →
      MessageType.ofCode msgType = some type → type.authored = true →
      World.step Client.env (.read u data) w = some w' →
      v ≠ u → w.users v = some sv →
      ∃ sv', w'.users v = some sv' ∧
        sv'.currChessBoard = sv.currChessBoard ∧
        sv'.nextState = sv.nextState := by
  intro hclaim
  let msg := encode
    [(1, .varint Seat.right.location.toNat), (2, .bytes (lit "exit"))]
  obtain ⟨w, hreach, htest⟩ := Client.reachable_after (fun _ _ => True)
    (Client.enter 0 "a" 1 .left ++ Client.enter 1 "b" 1 .right)
    (fun w =>
      ((w.users 0).any fun s => s.stateMachine == some .gamePlay) &&
      w.received 0 (Client.exit .right) ==
        .message MessageType.giveUp.code msg &&
      ((w.users 1).any fun s => s.currChessBoard == some ⟨1, 1⟩) &&
      (World.step Client.env (.read 0 (Client.exit .right)) w).any fun w' =>
        (w'.users 1).any fun s => s.currChessBoard == none)
    (by decide +kernel)
  simp only [Bool.and_eq_true, Option.any_eq_true, beq_iff_eq] at htest
  obtain ⟨⟨⟨⟨s, hs, hplay⟩, hrecv⟩, sv, hv, hboard⟩, w', hstep, sv', hv',
    hboard'⟩ := htest
  obtain ⟨sv'', hv'', hsame, _⟩ := hclaim w w' 0 1 s sv _ _ .giveUp _ hreach hs
    hplay hrecv rfl rfl hstep (by decide) hv
  rw [hv'] at hv''
  cases hv''
  rw [hboard', hboard] at hsame
  cases hsame

end ChessServer
