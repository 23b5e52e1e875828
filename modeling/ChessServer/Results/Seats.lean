import ChessServer.Model.Client
import ChessServer.Proofs.Completes
import ChessServer.Proofs.Step

/-!
# Seats and the sessions on them

What the invariant of the layout says about a state between two events: a
chair never holds a session that was recycled or deleted
(`seats_hold_live_sessions`), and a session in the game state is on a chair,
unless another player's message took it off (`in_game_session_is_seated`).
-/

namespace ChessServer

/-! ## No dangling seat -/

/-- The session serves a connection: it is registered under its descriptor,
has a thread and a buffer, and does not wait in the pool. -/
def World.Live (w : World) (u : SessionId) : Prop :=
  ∃ s, w.users u = some s ∧ 0 ≤ s.clifd ∧ s.thread.isSome ∧
    s.bufev.isSome ∧ w.fdSessionMap[s.clifd]? = some u ∧ u ∉ w.sessionList

/-- A session that is on a board is live. -/
theorem Layout.Inv.live {w : World} (hinv : w.layout.Inv) {u : SessionId}
    {s : UserSession} {b : BoardPtr} (hs : w.users u = some s)
    (hboard : s.currChessBoard = some b) : w.Live u := by
  have hp : w.layout.place u = some s.place := by simp [World.layout, hs]
  have hreg := hinv.registry.onBoard hp hboard
  obtain ⟨q, hq, _, honline⟩ := hinv.registry.registered hreg
  rw [hp] at hq
  cases hq
  exact ⟨s, hs, honline.clifd, honline.thread, honline.bufev, hreg,
    hinv.registry.not_mem_pool hreg⟩

/-- In every state between two events a chair that is taken holds a live
session that knows its board and its chair and is in the game state, nobody
is on two chairs, and every broadcast to a board reaches its end. -/
theorem seats_hold_live_sessions {env : Env} {w : World}
    (h : (server env).Reachable w) :
    (∀ b seat u, (w.boards b).seat seat = some u →
      w.Live u ∧
      (∃ s, w.users u = some s ∧ s.locate = seat.location ∧
        s.currChessBoard = some b ∧ s.stateMachine = some .gamePlay) ∧
      ∀ c seat', (w.boards c).seat seat' = some u → c = b ∧ seat' = seat) ∧
    ∀ b type body filter,
      (broadCastMsg env b type body filter w).isSome := by
  have hinv := reachable_inv h
  refine ⟨fun b seat u hseat => ?_, fun b type body filter => ?_⟩
  · obtain ⟨p, hp, hboard, hlocate⟩ := hinv.seating.seated (b := b) hseat
    obtain ⟨s, hs, rfl⟩ := place_session hp
    have hsettled := hinv.settled u _ hp (by simp)
    rw [Place.Settled, if_pos (by simp [hboard])] at hsettled
    refine ⟨hinv.live hs hboard, ⟨s, hs, hlocate, hboard, hsettled.1⟩, ?_⟩
    exact fun c seat' hseat' => hinv.seating.unique (b := c) (c := b) hseat' hseat
  · obtain ⟨w', h'⟩ :=
      broadCastMsg_completes env b type body filter hinv.connected
    exact Option.isSome_of_eq_some h'

/-- One client on the left chair of board 1. -/
theorem seats_hold_live_sessions_left :
    ∃ w, (server Client.env).Reachable w ∧
      (w.boards ⟨1, 1⟩).seat .left = some 0 ∧ w.Live 0 := by
  obtain ⟨w, hreach, hseat⟩ := Client.reachable_after (fun _ _ => True)
    (Client.enter 0 "a" 1 .left)
    (fun w => (w.boards ⟨1, 1⟩).seat .left == some 0)
    (by decide +kernel)
  have hseat' : (w.boards ⟨1, 1⟩).seat .left = some 0 := by simpa using hseat
  exact ⟨w, hreach, hseat',
    ((seats_hold_live_sessions hreach).1 ⟨1, 1⟩ .left 0 hseat').1⟩

/-! ## A session in the game state is on a chair -/

/-- The event is a GIVE_UP message with `exit`, sent by a session in the game
state, that names the chair of another session. -/
def World.evicts (env : Env) (w : World) : Event → Bool
  | .read u data =>
      match w.received u data with
      | .message msgType msg =>
          MessageType.ofCode msgType == some .giveUp &&
            (do
              let giveup ← env.proto.giveUp msg
              let s ← w.users u
              let b ← s.currChessBoard
              let seat ← seatAt giveup.srcUserLocate
              let v ← (w.boards b).seat seat
              some (s.stateMachine == some .gamePlay && giveup.exits &&
                v != u)) == some true
      | _ => false
  | _ => false

/-- Who is taken off a board by another session was evicted. -/
theorem World.removes.evicts {env : Env} {w : World} {e : Event}
    {v : SessionId} (h : w.removes env e v) : w.evicts env e = true := by
  obtain ⟨u, data, msgType, msg, b, seat, he, hv, hrecv, hact, hseat⟩ := h
  simp only [World.messageAct, Option.bind_eq_bind,
    Option.bind_eq_some_iff] at hact
  obtain ⟨s, hs, hact⟩ := hact
  split at hact
  · split at hact
    · simp only [World.joinAct, Option.bind_eq_bind,
        Option.bind_eq_some_iff] at hact
      obtain ⟨_, _, _, _, _, _, _, _, _, _, hact⟩ := hact
      split at hact <;> cases hact
    · cases hact
  · rename_i hplay
    simp only [World.chair, hs, Option.bind_eq_bind, Option.bind_some,
      Option.bind_eq_some_iff] at hact
    obtain ⟨⟨b', seat'⟩, ⟨_, hboard, _, _, hchair⟩, hact⟩ := hact
    cases hchair
    split at hact
    · cases hact
    · simp only [Option.bind_eq_some_iff] at hact
      obtain ⟨type, htype, act, hact, heq⟩ := hact
      cases heq
      obtain ⟨rfl, giveup, hmsg, hexits, hlocate⟩ := World.boardAct_leave hact
      subst he
      simp [World.evicts, hrecv, htype, hmsg, hs, hboard, hlocate, hseat,
        hplay, hexits, hv]
  · cases hact

/-- What `StateGamePlay` relies on: its session is on a board. -/
def Layout.InGameOnBoard (l : Layout) : Prop :=
  ∀ u p, l.place u = some p → p.stateMachine = some .gamePlay →
    p.currChessBoard.isSome

/-- As long as nobody is evicted, the state object and the board stay in
step. -/
theorem reachable_inGameOnBoard {env : Env} {w : World}
    (h : (server env).ReachableWith (fun e w => w.evicts env e = false) w) :
    w.layout.InGameOnBoard := by
  refine h.invariant_of (J := fun w => w.layout.Inv)
    (I := fun w => w.layout.InGameOnBoard) reachable_inv ?_ ?_
  · intro u p hp
    cases hp
  · intro e w w' hinv hon henabled hkeep hstep u p hp hplay
    have st := step_spec hinv henabled hstep
    rcases st.place u p hp hplay with hboard | ⟨q, hq, hstate, hboard⟩ | hrem
    · exact hboard
    · rw [← hboard]
      exact hon u q hq (hstate.trans hplay)
    · rw [hrem.evicts] at hkeep
      cases hkeep

/-- In every run in which no GIVE_UP with `exit` names the chair of another
session, a session in the game state is on a board, sits there at its
`locate`, and can ask for its board. -/
theorem in_game_session_is_seated {env : Env} {w : World}
    (h : (server env).ReachableWith (fun e w => w.evicts env e = false) w)
    {u : SessionId} {s : UserSession} (hs : w.users u = some s)
    (hplay : s.stateMachine = some .gamePlay) :
    (∃ b seat, s.currChessBoard = some b ∧ s.locate = seat.location ∧
      (w.boards b).seat seat = some u) ∧
    ∀ msg, (chessBoardReq env u msg w).isSome := by
  have hinv := reachable_inv h
  have hp : w.layout.place u = some s.place := by simp [World.layout, hs]
  have hboard := reachable_inGameOnBoard h u _ hp hplay
  obtain ⟨b, hboard⟩ := Option.isSome_iff_exists.mp hboard
  obtain ⟨seat, hlocate, hseat⟩ := hinv.seating.onBoard hp hboard
  refine ⟨⟨b, seat, hboard, hlocate, hseat⟩, fun msg => ?_⟩
  unfold chessBoardReq
  split
  · rfl
  · obtain ⟨q, hq, honline, _⟩ := hinv.connected.seated hseat
    have hcurr : s.currChessBoard = some b := hboard
    obtain ⟨info, hinfo⟩ := wrapChessBoardInfo_completes b
      hinv.connected
    obtain ⟨ret, w', hreply⟩ := messageReply_completes env
      .chessBoard (.chessBoardInfo info) hq honline
    simp [hs, hcurr, hinfo, hreply]

/-- One client on the left chair of board 1. -/
theorem in_game_session_is_seated_left :
    ∃ w s, (server Client.env).ReachableWith
        (fun e w => w.evicts Client.env e = false) w ∧
      w.users 0 = some s ∧ s.currChessBoard.isSome := by
  obtain ⟨w, hreach, htest⟩ := Client.reachable_after
    (fun e w => w.evicts Client.env e = false) (Client.enter 0 "a" 1 .left)
    (fun w => (w.users 0).any (·.stateMachine == some .gamePlay))
    (by decide +kernel)
  obtain ⟨s, hs, hplay⟩ := (Option.any_eq_true _ _).mp htest
  obtain ⟨⟨b, _, hboard, _⟩, _⟩ :=
    in_game_session_is_seated hreach hs (by simpa using hplay)
  exact ⟨w, s, hreach, hs, by simp [hboard]⟩

/-- Two clients sit on board 1 and the one on the left sends a GIVE_UP with
`exit` for the right chair: the other one is left in the game state without
a board. -/
theorem in_game_session_not_seated :
    ¬ ∀ w, (server Client.env).Reachable w → ∀ u s, w.users u = some s →
      s.stateMachine = some .gamePlay →
      s.currChessBoard ≠ none ∧
        ∀ msg, (chessBoardReq Client.env u msg w).isSome := by
  intro hclaim
  obtain ⟨w, hreach, htest⟩ := Client.reachable_after (fun _ _ => True)
    (Client.enter 0 "a" 1 .left ++ Client.enter 1 "b" 1 .right ++
      [.read 0 (Client.exit .right)]) (fun w => (w.users 1).any fun s =>
      s.stateMachine == some .gamePlay && s.currChessBoard == none)
    (by decide +kernel)
  obtain ⟨s, hs, hsession⟩ := (Option.any_eq_true _ _).mp htest
  simp only [Bool.and_eq_true, beq_iff_eq] at hsession
  exact (hclaim w hreach 1 s hs hsession.1).1 hsession.2

end ChessServer
