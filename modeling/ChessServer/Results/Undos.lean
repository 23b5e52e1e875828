import ChessServer.Model.Client
import ChessServer.Model.Undos
import ChessServer.Results.Crashes

/-!
# What an accepted undo response undoes

In every run an undo that was agreed to takes the last capture of the game
back, once, from and for those who were part of it, exactly when what the
board remembers is such a capture (`undo_cancels_once_iff`).
-/

namespace ChessServer

open Table (Course CancelsOnce UndoFits)

variable {env : Env} {b : BoardPtr} {w w' : World} {e : Event}

/-! ## One board in a run -/

/-- The tables of a board. -/
def tablesAt (states : Nat → World) (b : BoardPtr) (j : Nat) : Table :=
  (states j).table b

/-- The acts at a board. -/
def actsAt (env : Env) (states : Nat → World) (events : Nat → Event)
    (b : BoardPtr) (j : Nat) : Option Act :=
  (states j).actAt env b (events j)

/-! ## Who is needed -/

/-- The message that undoes. -/
theorem act_undo (h : w.act env e = some (b, .undo)) :
    ∃ u data msgType msg type s undo, e = .read u data ∧
      w.received u data = .message msgType msg ∧ w.users u = some s ∧
      s.stateMachine = some .gamePlay ∧ s.currChessBoard = some b ∧
      MessageType.ofCode msgType = some type ∧
      (type = .undoReq ∨ type = .undoReps) ∧
      env.proto.undo msg = some undo ∧ undo.accepted = true := by
  have hclose : ∀ u, w.closeAct u ≠ some (b, .undo) := by
    intro u h
    simp [World.closeAct, Option.map_eq_some_iff] at h
  cases e with
  | accept fd => cases h
  | event u events =>
      unfold World.act at h
      dsimp only at h
      split at h
      · exact absurd h (hclose u)
      · cases h
  | timer u => exact absurd h (hclose u)
  | read u data =>
      unfold World.act at h
      dsimp only at h
      split at h
      · cases h
      · cases h
      · exact absurd h (hclose u)
      · rename_i msgType msg hrecv
        simp only [World.messageAct, Option.bind_eq_bind,
          Option.bind_eq_some_iff] at h
        obtain ⟨s, hs, h⟩ := h
        split at h
        · split at h
          · obtain ⟨_, _, ha, _⟩ := joinAct_free h
            cases ha
          · cases h
        · rename_i hplay
          simp only [Option.bind_eq_some_iff] at h
          obtain ⟨⟨c, seat⟩, hchair, h⟩ := h
          split at h
          · cases h
          · simp only [Option.bind_eq_some_iff] at h
            obtain ⟨type, hcode, a, hact, h⟩ := h
            cases h
            simp only [World.chair, hs, Option.bind_eq_bind, Option.bind_some,
              Option.bind_eq_some_iff] at hchair
            obtain ⟨_, hboard, _, _, hchair⟩ := hchair
            cases hchair
            rcases World.boardAct_cases hact with ⟨_, _, _, ha⟩ |
              ⟨_, _, _, ha⟩ | ⟨_, _, _, _, _, _, ha⟩ |
              ⟨undo, htype, hmsg, haccepted, _⟩ | ⟨_, _, _, ha⟩ |
              ⟨_, _, _, _, _, _, _, _, _, ha⟩
            case inr.inr.inr.inl =>
              exact ⟨u, data, msgType, msg, type, s, undo, rfl, hrecv, hs,
                hplay, hboard, hcode, htype, hmsg, haccepted⟩
            case inr.inr.inl => split at ha <;> cases ha
            all_goals cases ha
        · cases h

/-- The users of the capture that the board remembers are there. -/
def Table.Found (t : Table) : Prop :=
  t.recentWinnerLocate ≠ locationMax → ∃ source target p q,
    t.memory = (Seat.location source, Seat.location target) ∧
    t.players source = some p ∧ t.players target = some q

/-- Nobody is missing on a seat exactly when the table shows a player. -/
theorem vacant_iff_players (hinv : w.layout.Inv) {locate : Location} :
    (w.boards b).vacant locate = false ↔ ∃ seat p,
      locate = Seat.location seat ∧ (w.table b).players seat = some p := by
  constructor
  · intro h
    obtain ⟨v, hv⟩ := ChessBoard.taken h
    obtain ⟨seat, hlocate, hseat⟩ := getUserByLocation_eq_some hv
    obtain ⟨q, hq, _⟩ := hinv.seating.seated
      (show w.layout.seats b seat = some v from hseat)
    obtain ⟨s, hs, _⟩ := place_session hq
    exact ⟨seat, _, hlocate, table_players hseat hs⟩
  · rintro ⟨seat, p, rfl, hp⟩
    simp only [World.table, Option.bind_eq_bind, Option.bind_eq_some_iff] at hp
    obtain ⟨v, hv, _⟩ := hp
    rw [ChessBoard.vacant, getUserByLocation_location, hv]
    rfl

theorem recent_vacant_iff (hinv : w.layout.Inv) :
    (w.boards b).recent.any (w.boards b).vacant = false ↔
      (w.table b).Found := by
  unfold ChessBoard.recent Table.Found
  by_cases hmax : (w.boards b).recentWinnerLocate = locationMax
  · simp only [hmax, ne_eq, not_true, if_false, List.any_nil, true_iff]
    exact fun hne => absurd hmax hne
  · rw [if_pos hmax]
    simp only [List.any_cons, List.any_nil, Bool.or_false,
      Bool.or_eq_false_iff, vacant_iff_players hinv]
    constructor
    · rintro ⟨⟨source, p, hwinner, hp⟩, ⟨target, q, hloser, hq⟩⟩ _
      exact ⟨source, target, p, q, Prod.ext hwinner hloser, hp, hq⟩
    · intro h
      obtain ⟨source, target, p, q, hmemory, hp, hq⟩ := h hmax
      exact ⟨⟨source, p, congrArg Prod.fst hmemory, hp⟩,
        ⟨target, q, congrArg Prod.snd hmemory, hq⟩⟩

/-- An undo does not kill the process exactly when both of them are there. -/
theorem undo_survives_iff (hreach : (server env).Reachable w)
    (henabled : e.Enabled w) (hundo : w.act env e = some (b, .undo)) :
    World.step env e w ≠ none ↔ (w.table b).Found := by
  have hinv := reachable_inv hreach
  obtain ⟨u, data, msgType, msg, type, s, undo, rfl, hrecv, hs, hplay, hboard,
    hcode, htype, hmsg, haccepted⟩ := act_undo hundo
  have hstate : s.state = .gamePlay := by
    rw [UserSession.state, hplay, Option.getD_some]
  have hfatal : w.fatal env (.read u data) =
      (w.boards b).recent.any (w.boards b).vacant := by
    simp only [World.fatal, hrecv, World.fatalMessage, hs, hcode,
      World.fatalIn, hstate, World.fatalPlay, hboard]
    rcases htype with rfl | rfl
    · simp [World.fatalOnBoard, hmsg, haccepted]
    · simp [World.fatalOnBoard, hmsg, haccepted]
  rw [← recent_vacant_iff hinv, ← hfatal, ne_eq, read_iff hinv
    (reachable_accounted hreach).published (reachable_peeked hreach) henabled,
    Bool.not_eq_true]

/-! ## Every run -/

/-- What happens at a board in a run is a course of its table. -/
theorem History.course {states : Nat → World} {events : Nat → Event} {n : Nat}
    (h : (server env).History states events n) (b : BoardPtr) :
    Course (tablesAt states b) (actsAt env states events b) n where
  start := by
    unfold tablesAt
    rw [h.start]
    rfl
  next j hj := by
    exact step_table h hj b
  taken j hj hundo := by
    obtain ⟨henabled, hstep⟩ := h.next j hj
    have hlive : World.step env (events j) (states j) ≠ none :=
      Option.ne_none_iff_exists'.mpr ⟨_, hstep⟩
    exact (undo_survives_iff (h.reachable (Nat.le_of_lt hj)) henabled
      (act_of_actAt hundo)).mp hlive

/-- Nobody away from a board is concerned. -/
structure Elsewhere (b : BoardPtr) (w w' : World) : Prop where
  tables : ∀ c, c ≠ b → w'.table c = w.table c
  scores : ∀ (fd k : Int) (u : SessionId) (s s' : UserSession),
    w.fdSessionMap[fd]? = some u → w'.fdSessionMap[k]? = some u →
    w.users u = some s → w'.users u = some s' →
    (∀ seat, (w.boards b).seat seat ≠ some u) →
    s'.userInfo.score = s.userInfo.score

theorem undo_elsewhere (hinv : w.layout.Inv) (henabled : e.Enabled w)
    (hundo : w.act env e = some (b, .undo))
    (h : World.step env e w = some w') : Elsewhere b w w' := by
  have hspec := step_spec hinv henabled h
  refine ⟨fun c hc => ?_, fun fd k u s s' hreg hreg' hs hs' haway => ?_⟩
  · rw [hspec.table c, hundo, World.tableAfter, if_neg hc]
  · have hscore := hspec.scores u fd k s s' hreg hreg' hs hs' fun data he => by
      obtain ⟨v, _, _, _, _, t, _, hread, _, ht, _, hboard, _⟩ :=
        act_undo hundo
      rw [he] at hread
      cases hread
      rw [hs, Option.some.injEq] at ht
      subst ht
      obtain ⟨seat, _, hseat, _⟩ := chair_eq hinv.seating hs hboard
      exact absurd hseat (haway seat)
    rw [World.scoreCalls, hundo, actCalls_elsewhere fun seat hchair =>
      haway seat (seat_of_chair hinv.seating hchair)] at hscore
    exact UInt32.toBitVec_inj.mp hscore

/-- After any run, an accepted undo response is handled and changes nothing, or
takes the last capture of the game back, for the first time, from and for those
who were part of it, exactly when this is what the board remembers. -/
theorem undo_cancels_once_iff {states : Nat → World} {events : Nat → Event}
    {n : Nat} (h : (server env).History states events n)
    (henabled : e.Enabled (states n))
    (hundo : (states n).act env e = some (b, .undo)) :
    (∃ w', World.step env e (states n) = some w' ∧
      CancelsOnce (tablesAt states b) (actsAt env states events b) n
        (w'.table b) ∧ Elsewhere b (states n) w') ↔
    UndoFits (tablesAt states b) (actsAt env states events b) n := by
  have hcourse := History.course h b
  have hreach := h.reachable (Nat.le_refl n)
  have hinv := reachable_inv hreach
  have hsurvives := undo_survives_iff hreach henabled hundo
  have htable : ∀ {w'}, World.step env e (states n) = some w' →
      w'.table b = (tablesAt states b n).undo := by
    intro w' hstep
    rw [(step_spec hinv henabled hstep).table b, hundo, World.tableAfter,
      if_pos rfl]
    rfl
  constructor
  · rintro ⟨w', hstep, hcancels, _⟩
    rw [htable hstep] at hcancels
    have hlive := Option.ne_none_iff_exists'.mpr ⟨_, hstep⟩
    exact (hcourse.cancelsOnce_iff (hsurvives.mp hlive)).mp hcancels
  · intro hfits
    have hfound := hcourse.taken_of_fits hfits
    obtain ⟨w', hstep⟩ := Option.ne_none_iff_exists'.mp (hsurvives.mpr hfound)
    refine ⟨w', hstep, ?_, undo_elsewhere hinv henabled hundo hstep⟩
    rw [htable hstep]
    exact (hcourse.cancelsOnce_iff hfound).mpr hfits

/-! ## A capture and two undos -/

/-- A test for the act of an undo. -/
def Act.undoes : Act → Bool
  | .undo => true
  | _ => false

/-- The move of an act. -/
def Act.moves : Act → Option MoveChess
  | .move m => some m
  | _ => none

theorem actAt_of_undoes (h : (w.actAt env b e).any Act.undoes = true) :
    w.actAt env b e = some .undo := by
  obtain ⟨a, hact, ha⟩ := (Option.any_eq_true _ _).mp h
  rw [hact]
  cases a <;> cases ha
  rfl

theorem actAt_of_moves {m : MoveChess}
    (h : (w.actAt env b e).bind Act.moves = some m) :
    w.actAt env b e = some (.move m) := by
  obtain ⟨a, hact, ha⟩ := Option.bind_eq_some_iff.mp h
  rw [hact]
  cases a <;> cases ha
  rfl

/-- The left player captures the right one, and a new client connects before
the undo is agreed to. -/
theorem undo_cancels_once_iff_capture : ∃ states events w',
    (server Client.env).History states events 17 ∧
    World.step Client.env (.read 2 (Client.acceptUndo .bottom .left))
      (states 17) = some w' ∧
    CancelsOnce (tablesAt states ⟨1, 1⟩)
      (actsAt Client.env states events ⟨1, 1⟩) 17 (w'.table ⟨1, 1⟩) := by
  obtain ⟨states, events, hist, _, hbegan, hevents, hbefore, hafter⟩ :=
    Client.history_after (fun _ _ => True)
      (fun _ w => (w.table ⟨1, 1⟩).began = true) Client.startGame
      [.read 0 (Client.capture .left .right), .accept 99]
      (fun w => ((w.actAt Client.env ⟨1, 1⟩
          (.read 0 (Client.capture .left .right))).bind Act.moves).any
          (fun m => m.isWinner && m.srcLocate == Seat.left.location &&
            m.targetLocate == Seat.right.location) &&
        ((w.table ⟨1, 1⟩).players .left).any (·.user == 0) &&
        ((w.table ⟨1, 1⟩).players .right).any (·.user == 1))
      (fun w => decide (Event.Enabled w
          (.read 2 (Client.acceptUndo .bottom .left))) &&
        (w.actAt Client.env ⟨1, 1⟩
          (.read 2 (Client.acceptUndo .bottom .left))).any Act.undoes &&
        (w.table ⟨1, 1⟩).began &&
        ((w.table ⟨1, 1⟩).players .left).any (·.user == 0) &&
        ((w.table ⟨1, 1⟩).players .right).any (·.user == 1))
      (by decide +kernel)
  simp only [Bool.and_eq_true, Option.any_eq_true, beq_iff_eq,
    decide_eq_true_eq] at hbefore hafter
  obtain ⟨⟨⟨m, hmoves, ⟨hwin, hsrc⟩, htarget⟩, p, hp, hpu⟩, q, hq, hqu⟩ :=
    hbefore
  obtain ⟨⟨⟨⟨henabled, a, hact, ha⟩, hlast⟩, p', hp', hpu'⟩, q', hq', hqu'⟩ :=
    hafter
  have hundo := act_of_actAt
    (actAt_of_undoes ((Option.any_eq_true _ _).mpr ⟨a, hact, ha⟩))
  have hcap : actsAt Client.env states events ⟨1, 1⟩ 15 = some (.move m) := by
    unfold actsAt
    rw [show events 15 = _ from hevents 0 _ rfl]
    exact actAt_of_moves hmoves
  have hnone : actsAt Client.env states events ⟨1, 1⟩ 16 = none := by
    unfold actsAt
    rw [show events 16 = _ from hevents 1 _ rfl]
    rfl
  have hquiet : ∀ l a, 15 < l → l < 17 →
      actsAt Client.env states events ⟨1, 1⟩ l ≠ some a := by
    intro l a hl hl'
    rw [show l = 16 by omega, hnone]
    exact nofun
  have hcapture : Table.LastCapture (tablesAt states ⟨1, 1⟩)
      (actsAt Client.env states events ⟨1, 1⟩) 15 17 .left .right :=
    { lt := by decide
      capture := ⟨m, hcap, hwin, hsrc, htarget⟩
      last := fun l m hl hl' => hquiet l _ hl hl'
      began := fun l hl hl' => by
        rcases Nat.lt_or_eq_of_le hl' with hlt | rfl
        · exact hbegan l hl hlt
        · exact hlast
      same := fun l hl hl' => by
        rw [show l = 16 by omega, hnone]
        rfl }
  have hfits : UndoFits (tablesAt states ⟨1, 1⟩)
      (actsAt Client.env states events ⟨1, 1⟩) 17 :=
    Or.inr (Or.inr ⟨15, .left, .right, hcapture, by decide,
      fun l hl hl' => hquiet l _ hl hl', ⟨p, p', hp, hp', hpu'.trans hpu.symm⟩,
      ⟨q, q', hq, hq', hqu'.trans hqu.symm⟩⟩)
  obtain ⟨w', hstep, hcancels, _⟩ :=
    (undo_cancels_once_iff hist henabled hundo).mpr hfits
  exact ⟨states, events, w', hist, hstep, hcancels⟩

/-- The undo of one capture is agreed to twice. -/
theorem undo_cancels_twice :
    ¬ ∀ (env : Env) (states : Nat → World) (events : Nat → Event) (n : Nat)
      (b : BoardPtr) (e : Event), (server env).History states events n →
      e.Enabled (states n) → (states n).act env e = some (b, .undo) →
      ∃ w', World.step env e (states n) = some w' ∧
        CancelsOnce (tablesAt states b) (actsAt env states events b) n
          (w'.table b) := by
  intro hall
  obtain ⟨states, events, hist, _, _, hevents, hfirst, hsecond⟩ :=
    Client.history_after (fun _ _ => True) (fun _ _ => True)
      (Client.startGame ++ [.read 0 (Client.capture .left .right)])
      [.read 2 (Client.acceptUndo .bottom .left)]
      (fun w => (w.actAt Client.env ⟨1, 1⟩
        (.read 2 (Client.acceptUndo .bottom .left))).any Act.undoes)
      (fun w => decide (Event.Enabled w
          (.read 2 (Client.acceptUndo .bottom .left))) &&
        (w.actAt Client.env ⟨1, 1⟩
          (.read 2 (Client.acceptUndo .bottom .left))).any Act.undoes &&
        decide ((w.table ⟨1, 1⟩).memory =
          (Seat.left.location, Seat.right.location)))
      (by decide +kernel)
  simp only [Bool.and_eq_true, decide_eq_true_eq] at hsecond
  obtain ⟨⟨henabled, hact⟩, hmemory⟩ := hsecond
  have hundo : (states 17).act Client.env
      (.read 2 (Client.acceptUndo .bottom .left)) = some (⟨1, 1⟩, .undo) :=
    act_of_actAt (actAt_of_undoes hact)
  have hbefore : actsAt Client.env states events ⟨1, 1⟩ 16 = some .undo := by
    unfold actsAt
    rw [show events 16 = _ from hevents 0 _ rfl]
    exact actAt_of_undoes hfirst
  obtain ⟨w', hstep, hcancels⟩ := hall Client.env states events 17 ⟨1, 1⟩ _
    hist henabled hundo
  have hreach := hist.reachable (Nat.le_refl 17)
  have hfound := (undo_survives_iff hreach henabled hundo).mp
    (Option.ne_none_iff_exists'.mpr ⟨w', hstep⟩)
  rw [(step_spec (reachable_inv hreach) henabled hstep).table ⟨1, 1⟩, hundo,
    World.tableAfter, if_pos rfl] at hcancels
  rcases ((History.course hist ⟨1, 1⟩).cancelsOnce_iff hfound).mp hcancels with
    hmax | ⟨seat, hself, _⟩ | ⟨k, _, _, hcap, _, hnever, _⟩
  · have hwinner := congrArg Prod.fst hmemory
    exact absurd (hwinner.symm.trans hmax) (by decide)
  · have hsame := hmemory.symm.trans hself
    rw [Prod.mk.injEq] at hsame
    exact absurd (hsame.1.trans hsame.2.symm) (by decide)
  · rcases Nat.lt_or_eq_of_le (Nat.le_of_lt_succ hcap.lt) with hlt | rfl
    · exact hnever 16 hlt (by decide) hbefore
    · obtain ⟨m, hm, _⟩ := hcap.capture
      cases hbefore.symm.trans hm

end ChessServer
