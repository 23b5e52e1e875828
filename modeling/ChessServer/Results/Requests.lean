import ChessServer.Model.Client
import ChessServer.Proofs.Requests

/-!
# Requests to play

Which requests are answered, in the hall and at a board: those that name a
hall and a board that exist and, at a board, the chair of whoever asks
(`play_requests_answered`).
-/

namespace ChessServer

/-- A request for a chair on `board` is handled, and it is answered once:
granted, and the user has the chair, or refused and nothing has changed. -/
def AnswersPlay (u : SessionId) (board : Option BoardPtr) (locate : Location)
    (w : World) (result : Option (Bool × World)) : Prop :=
  ∃ ret w', result = some (ret, w') ∧ Answered u board locate w w'

/-- The board that a request names. -/
def RequestPlay.board (m : RequestPlay) : BoardPtr :=
  ⟨m.gameHallId.toUInt32, m.chessBoardId.toUInt32⟩

/-- The ids of a hall and of a board in it. -/
def RequestPlay.Addresses (m : RequestPlay) : Prop :=
  (1 ≤ m.gameHallId.toUInt32 ∧ m.gameHallId.toUInt32 ≤ gameHallMaxNum) ∧
    1 ≤ m.chessBoardId.toUInt32 ∧ m.chessBoardId.toUInt32 ≤ chessBoardMaxNum

instance (m : RequestPlay) : Decidable m.Addresses :=
  inferInstanceAs (Decidable ((_ ∧ _) ∧ _ ∧ _))

/-- Without a message there is no answer. -/
theorem not_answered {u : SessionId} {board : Option BoardPtr}
    {locate : Location} {w w' : World} {news : List Sent}
    (hsends : Sends w w' news) (hnone : repliesTo u news = []) :
    ¬ Answered u board locate w w' := by
  rintro ⟨news', x, hsends', hone, _⟩
  unfold Sends at hsends hsends'
  rw [hsends, List.append_cancel_right_eq] at hsends'
  rw [← hsends', hnone] at hone
  cases hone

/-- A hall is found if the id is one, and a board in it likewise. -/
theorem addresses_iff {w : World} (hw : w.Published) (m : RequestPlay) :
    m.Addresses ↔ ∃ hall, getGameHall m.gameHallId.toUInt32 = some hall ∧
      (w.getChessBoardByID hall m.chessBoardId.toUInt32).1 = some m.board := by
  rw [getGameHall_eq]
  constructor
  · rintro ⟨hhall, hid⟩
    exact ⟨_, if_pos hhall, getChessBoardByID_some hw hid.1 hid.2⟩
  · rintro ⟨hall, hhall, hboard⟩
    constructor
    · by_contra hno
      rw [if_neg hno] at hhall
      cases hhall
    · by_contra hno
      rw [getChessBoardByID_none hw hno] at hboard
      cases hboard

/-- The board that is found is the one that the request names. -/
theorem named_board {w : World} (hw : w.Published) {m : RequestPlay}
    {hall : UInt32} {c : BoardPtr}
    (hhall : getGameHall m.gameHallId.toUInt32 = some hall)
    (hboard : (w.getChessBoardByID hall m.chessBoardId.toUInt32).1 = some c) :
    c = m.board := by
  by_cases hid : 1 ≤ m.chessBoardId.toUInt32 ∧
      m.chessBoardId.toUInt32 ≤ chessBoardMaxNum
  · rw [getChessBoardByID_some hw hid.1 hid.2, Option.some.injEq] at hboard
    rw [← hboard, (getGameHall_self hhall).1]
    rfl
  · rw [getChessBoardByID_none hw hid] at hboard
    cases hboard

theorem answersPlay_hall {env : Env} {w : World} {u : SessionId}
    {s : UserSession} {msg : Bytes} {m : RequestPlay} (hinv : w.layout.Inv)
    (hw : w.Published) (hmsg : env.proto.requestPlay msg = some m)
    (hs : w.users u = some s) (hstate : s.stateMachine = some .gameReady) :
    AnswersPlay u (some m.board) m.locate.toUInt32 w
      (gameRequestHandle env u msg w) ↔ m.Addresses := by
  rw [addresses_iff hw]
  constructor
  · rintro ⟨ret, w', hw', hanswered⟩
    cases hhall : getGameHall m.gameHallId.toUInt32 with
    | none =>
        simp only [gameRequestHandle, hmsg, hhall, Option.some.injEq,
          Prod.mk.injEq] at hw'
        rw [← hw'.2] at hanswered
        exact absurd hanswered (not_answered (show Sends w w [] from rfl) rfl)
    | some hall =>
        cases hboard :
            (w.getChessBoardByID hall m.chessBoardId.toUInt32).1 with
        | some c =>
            refine ⟨hall, rfl, ?_⟩
            rw [hboard, named_board hw hhall hboard]
        | none =>
            simp [gameRequestHandle, hmsg, hhall, hboard] at hw'
  · rintro ⟨hall, hhall, hboard⟩
    obtain ⟨w', hw', hanswered⟩ :=
      gameRequestHandle_answers env hinv hs hstate hmsg hhall hboard
    exact ⟨true, w', hw', hanswered⟩

/-- What the others at a board hear when a user is READY again is no reply
that grants anything. -/
theorem againNews_others {w : World} {b : BoardPtr} {locate : Location}
    {u v : SessionId} {reply : RequestPlayReply} {x : Sent} (hne : v ≠ u)
    (h : x ∈ repliesTo u (againNews w b locate v reply)) :
    x.grants = false := by
  obtain ⟨hmem, huser⟩ := List.mem_filter.mp h
  rw [Bool.and_eq_true, beq_iff_eq] at huser
  rcases List.mem_append.mp hmem with hmem | hmem
  · simp only [List.mem_reverse, List.mem_map] at hmem
    obtain ⟨_, _, rfl⟩ := hmem
    rfl
  · rw [List.mem_singleton.mp hmem] at huser
    exact absurd huser.1 hne

/-- Who names the chair of another user is not answered for it. -/
theorem not_answered_other {env : Env} {w w' : World} {u v : SessionId}
    {board : Option BoardPtr} {locate : Location} {b c : BoardPtr}
    {msg : Bytes} {m : RequestPlay} {hall : UInt32} {ret : Bool}
    (hinv : w.layout.Inv) (hmsg : env.proto.requestPlay msg = some m)
    (hhall : getGameHall m.gameHallId.toUInt32 = some hall)
    (hboard : (w.getChessBoardByID hall m.chessBoardId.toUInt32).1 = some c)
    (hv : (w.boards b).getUserByLocation m.locate.toUInt32 = some v)
    (hne : v ≠ u) (h : gameAgainHandle env b msg w = some (ret, w')) :
    ¬ Answered u board locate w w' := by
  obtain ⟨seat, _, hseat⟩ := getUserByLocation_eq_some hv
  obtain ⟨p, hp, honline, hstate⟩ := hinv.connected.seated
    (show w.layout.seats b seat = some v from hseat)
  obtain ⟨s, hs, rfl⟩ := place_session hp
  have hg : Guest w v s := ⟨hs, honline, hstate, hinv.connected⟩
  obtain ⟨reply, w'', hw'', _, hcase⟩ := gameAgainHandle_answers env hg
    (seat_alone hinv hs hseat).1 hmsg hhall hboard hv
  rw [h, Option.some.injEq, Prod.mk.injEq] at hw''
  obtain ⟨_, rfl⟩ := hw''
  rcases hcase with hagain | hon
  · -- what `u` hears is the news that another user is READY again
    obtain ⟨news, hnews, _, hsends⟩ := hagain.sends
    rintro ⟨news', x, hsends', hone, hkept⟩
    unfold Sends at hsends hsends'
    rw [hsends, List.append_cancel_right_eq] at hsends'
    rw [← hsends', repliesTo_append, repliesTo_eq_nil fun x hx _ =>
      Sent.isHallNews_ne (hnews x hx), List.nil_append] at hone
    have hheard : x ∈ repliesTo u (againNews w b s.locate v reply) := by
      rw [hone]
      exact List.mem_singleton_self x
    have hrefused := againNews_others hne hheard
    rw [if_neg (by simp [hrefused])] at hkept
    have hsame := congrArg (Option.map Prod.fst) (hkept.sessions v)
    rw [Option.map_map, Option.map_map] at hsame
    have hstatus : (w'.users v).map (·.status) = (w.users v).map (·.status) :=
      hsame
    rw [hagain.users, World.readied, setUser_users_self, hs, Option.map_some,
      Option.map_some, hagain.granted.2] at hstatus
    cases hstatus
  · refine not_answered hon.sends (repliesTo_eq_nil fun x hx huser => ?_)
    rw [List.mem_singleton.mp hx] at huser
    exact absurd huser hne

/-- Who names its own chair is answered. -/
theorem answered_own {env : Env} {w : World} {u : SessionId}
    {s : UserSession} {b c : BoardPtr} {hall : UInt32} {msg : Bytes}
    {m : RequestPlay} (hinv : w.layout.Inv)
    (hmsg : env.proto.requestPlay msg = some m)
    (hhall : getGameHall m.gameHallId.toUInt32 = some hall)
    (hboard : (w.getChessBoardByID hall m.chessBoardId.toUInt32).1 = some c)
    (hs : w.users u = some s) (hstate : s.stateMachine = some .gamePlay)
    (hcurr : s.currChessBoard = some b)
    (hown : m.locate.toUInt32 = s.locate) :
    ∃ w', gameAgainHandle env b msg w = some (true, w') ∧
      Answered u (some b) m.locate.toUInt32 w w' := by
  obtain ⟨seat, hlocate, hseat, _⟩ := chair_eq hinv.seating hs hcurr
  have hv : (w.boards b).getUserByLocation m.locate.toUInt32 = some u := by
    rw [hown, hlocate, getUserByLocation_location, hseat]
  have hsettled := hinv.settled u s.place (by simp [World.layout, hs])
    (by simp)
  rw [Place.Settled, if_pos (by simp [UserSession.place, hcurr])] at hsettled
  obtain ⟨reply, w', hw', _, hcase⟩ := gameAgainHandle_answers env
    (guest_of_state hinv hs hstate) hcurr hmsg hhall hboard hv
  refine ⟨w', hw', ?_⟩
  rcases hcase with hagain | hon
  · obtain ⟨news, hnews, _, hsends⟩ := hagain.sends
    have halone : ∀ seat', (w.boards b).seat seat' = some u →
        seat' = seat := by
      intro seat' hseat'
      exact Seat.location_injective
        ((seat_alone hinv hs hseat').2.symm.trans hlocate)
    refine ⟨_, ⟨u, .requestPlayReply, .requestPlayReply reply⟩, hsends, ?_, ?_⟩
    · rw [repliesTo_append, againNews, repliesTo_append, hlocate,
        repliesTo_broadcast halone, repliesTo_own,
        repliesTo_eq_nil fun x hx _ => Sent.isHallNews_ne (hnews x hx)]
      rfl
    · have hgrants : Sent.grants ⟨u, .requestPlayReply,
          .requestPlayReply reply⟩ = true := by
        simp [Sent.grants, hagain.status]
      rw [if_pos hgrants]
      refine ⟨⟨{ s with status := .ready }, b, ?_, rfl, hcurr, hown.symm, rfl,
        hsettled.2, ?_⟩, fun v hv => ?_⟩
      · rw [hagain.users, World.readied, setUser_users_self]
      · rw [hagain.boards, hv]
      · rw [hagain.users]
        simp [World.readied, World.setUser, hv]
  · have hgrants : ¬ Sent.grants ⟨u, .requestPlayReply,
        .requestPlayReply reply⟩ = true := by
      simp [Sent.grants, hon.status]
    exact ⟨_, _, hon.sends, repliesTo_own u _, by
      rw [if_neg hgrants]
      exact hon.kept⟩

/-- At a board a request is handed to it. -/
theorem stateGamePlaySwitch_requestPlay {env : Env} {w : World}
    {u : SessionId} {s : UserSession} (msg : Bytes) (hs : w.users u = some s) :
    stateGamePlaySwitch env u MessageType.requestPlay.code msg w =
      s.currChessBoard.elim
        (translateMsgNull env MessageType.requestPlay.code msg w)
        fun b => gameAgainHandle env b msg w := by
  have hcode : MessageType.ofCode MessageType.requestPlay.code =
      some .requestPlay := rfl
  rw [stateGamePlaySwitch_inGame hcode rfl, hs]
  show s.currChessBoard.elim _ _ = _
  cases s.currChessBoard with
  | none => rfl
  | some b => rfl

/-- Without a board nobody is answered. -/
theorem not_answered_null {env : Env} {w : World} {u : SessionId}
    {board : Option BoardPtr} {locate : Location} {msg : Bytes} :
    ¬ AnswersPlay u board locate w
      (translateMsgNull env MessageType.requestPlay.code msg w) := by
  rintro ⟨ret, w', hw', hanswered⟩
  exact not_answered (show Sends w w' [] from translateMsgNull_sent hw') rfl
    hanswered

theorem answersPlay_board {env : Env} {w : World} {u : SessionId}
    {s : UserSession} {b : BoardPtr} {msg : Bytes} {m : RequestPlay}
    (hinv : w.layout.Inv) (hw : w.Published)
    (hmsg : env.proto.requestPlay msg = some m) (hs : w.users u = some s)
    (hstate : s.stateMachine = some .gamePlay)
    (hcurr : s.currChessBoard = some b) :
    AnswersPlay u (some b) m.locate.toUInt32 w
        (gameAgainHandle env b msg w) ↔
      m.Addresses ∧ m.locate.toUInt32 = s.locate := by
  rw [addresses_iff hw]
  constructor
  · rintro ⟨ret, w', hw', hanswered⟩
    cases hhall : getGameHall m.gameHallId.toUInt32 with
    | none =>
        simp only [gameAgainHandle, hmsg, hhall, Option.some.injEq,
          Prod.mk.injEq] at hw'
        rw [← hw'.2] at hanswered
        exact absurd hanswered (not_answered (show Sends w w [] from rfl) rfl)
    | some hall =>
        have n := getChessBoardByID_notified hall m.chessBoardId.toUInt32 w
        have hsent :=
          (getChessBoardByID_keeps w hall m.chessBoardId.toUInt32).1
        cases hv : (w.boards b).getUserByLocation m.locate.toUInt32 with
        | none =>
            simp only [gameAgainHandle, hmsg, hhall, n.boards, hv,
              Option.some.injEq, Prod.mk.injEq] at hw'
            rw [← hw'.2] at hanswered
            exact absurd hanswered
              (not_answered (show Sends w _ [] from hsent) rfl)
        | some v =>
            cases hboard :
                (w.getChessBoardByID hall m.chessBoardId.toUInt32).1 with
            | none =>
                simp [gameAgainHandle, hmsg, hhall, hboard, n.boards, hv]
                  at hw'
            | some c =>
                refine ⟨⟨hall, rfl, ?_⟩, ?_⟩
                · rw [hboard, named_board hw hhall hboard]
                · have hself : v = u := by
                    by_contra hne
                    exact not_answered_other hinv hmsg hhall hboard hv hne hw'
                      hanswered
                  obtain ⟨seat', hlocate', hseat'⟩ :=
                    getUserByLocation_eq_some hv
                  rw [hlocate', (seat_alone hinv hs (hself ▸ hseat')).2]
  · rintro ⟨⟨hall, hhall, hboard⟩, hown⟩
    obtain ⟨w', hw', hanswered⟩ :=
      answered_own hinv hmsg hhall hboard hs hstate hcurr hown
    exact ⟨true, w', hw', hanswered⟩

/-- A request in the hall is answered exactly when it names a hall and a
board of it; in the game state the requester has to sit on a board and name
its own chair as well. -/
theorem play_requests_answered {env : Env} {w : World}
    (h : (server env).Reachable w) {u : SessionId} {s : UserSession}
    {msg : Bytes} {m : RequestPlay} (hs : w.users u = some s)
    (hmsg : env.proto.requestPlay msg = some m) :
    (s.stateMachine = some .gameReady →
      (AnswersPlay u (some m.board) m.locate.toUInt32 w
          (gameRequestHandle env u msg w) ↔ m.Addresses)) ∧
    (s.stateMachine = some .gamePlay →
      (AnswersPlay u s.currChessBoard m.locate.toUInt32 w
          (stateGamePlaySwitch env u MessageType.requestPlay.code msg w) ↔
        m.Addresses ∧ s.currChessBoard.isSome ∧
          m.locate.toUInt32 = s.locate)) := by
  have hinv := reachable_inv h
  have hw := (reachable_accounted h).published
  refine ⟨answersPlay_hall hinv hw hmsg hs, fun hstate => ?_⟩
  rw [stateGamePlaySwitch_requestPlay msg hs]
  cases hcurr : s.currChessBoard with
  | none => exact iff_of_false not_answered_null (by simp)
  | some b =>
      have hboard := answersPlay_board hinv hw hmsg hs hstate hcurr
      rw [Option.elim_some, hboard]
      simp

/-- A client in the hall asks for a chair, and one at a board for another
game. -/
theorem play_requests_answered_left :
    (∃ w m, (server Client.env).Reachable w ∧
      AnswersPlay 0 (some ⟨1, 1⟩) m w (gameRequestHandle Client.env 0
        (Client.body (Client.requestPlay 1 .left)) w)) ∧
    ∃ w m, (server Client.env).Reachable w ∧
      AnswersPlay 0 (some ⟨1, 1⟩) m w (stateGamePlaySwitch Client.env 0
        MessageType.requestPlay.code
        (Client.body (Client.requestPlay 1 .left)) w) := by
  obtain ⟨m, hm, hm'⟩ := (Option.any_eq_true _ _).mp (show
    (Client.env.proto.requestPlay (Client.body
      (Client.requestPlay 1 .left))).any (fun m => decide m.Addresses &&
        m.locate.toUInt32 == locationLeft && m.board == ⟨1, 1⟩) = true by
    decide +kernel)
  simp only [Bool.and_eq_true, beq_iff_eq, decide_eq_true_eq] at hm'
  constructor
  · obtain ⟨w, hreach, htest⟩ := Client.reachable_after (fun _ _ => True)
      ((Client.enter 0 "a" 1 .left).take 3) (fun w => (w.users 0).any fun s =>
        s.stateMachine == some .gameReady) (by decide +kernel)
    obtain ⟨s, hs, hstate⟩ := (Option.any_eq_true _ _).mp htest
    rw [beq_iff_eq] at hstate
    refine ⟨w, m.locate.toUInt32, hreach, ?_⟩
    rw [← hm'.2]
    exact ((play_requests_answered hreach hs hm).1 hstate).mpr hm'.1.1
  · obtain ⟨w, hreach, htest⟩ := Client.reachable_after (fun _ _ => True)
      (Client.enter 0 "a" 1 .left) (fun w => (w.users 0).any fun s =>
        s.stateMachine == some .gamePlay &&
        s.currChessBoard == some ⟨1, 1⟩ && s.locate == locationLeft)
      (by decide +kernel)
    obtain ⟨s, hs, hstate⟩ := (Option.any_eq_true _ _).mp htest
    simp only [Bool.and_eq_true, beq_iff_eq] at hstate
    refine ⟨w, m.locate.toUInt32, hreach, ?_⟩
    rw [← hstate.1.2]
    exact ((play_requests_answered hreach hs hm).2 hstate.1.1).mpr
      ⟨hm'.1.1, by rw [hstate.1.2]; rfl, hm'.1.2.trans hstate.2.symm⟩

/-- A request for board 0 dereferences the null pointer that stands for it. -/
theorem play_request_crashes :
    ¬ ∀ (env : Env) (w : World), (server env).Reachable w →
      ∀ (u : SessionId) (s : UserSession) (msg : Bytes) (m : RequestPlay),
        w.users u = some s → env.proto.requestPlay msg = some m →
        (s.stateMachine = some .gameReady →
          AnswersPlay u (some m.board) m.locate.toUInt32 w
            (gameRequestHandle env u msg w)) ∧
        (s.stateMachine = some .gamePlay →
          AnswersPlay u s.currChessBoard m.locate.toUInt32 w
            (stateGamePlaySwitch env u MessageType.requestPlay.code msg
              w)) := by
  intro hclaim
  obtain ⟨w, hreach, htest⟩ := Client.reachable_after (fun _ _ => True)
    ((Client.enter 0 "a" 1 .left).take 3) (fun w => ((w.users 0).any fun s =>
        s.stateMachine == some .gameReady) && (gameRequestHandle Client.env 0
          (Client.body (Client.requestPlay 0 .left)) w).isNone)
    (by decide +kernel)
  rw [Bool.and_eq_true] at htest
  obtain ⟨s, hs, hstate⟩ := (Option.any_eq_true _ _).mp htest.1
  rw [beq_iff_eq] at hstate
  obtain ⟨m, hm⟩ := Option.isSome_iff_exists.mp (show
    (Client.env.proto.requestPlay (Client.body
      (Client.requestPlay 0 .left))).isSome = true by decide +kernel)
  obtain ⟨ret, w', hw', _⟩ :=
    (hclaim Client.env w hreach 0 s _ m hs hm).1 hstate
  rw [hw'] at htest
  cases htest.2

end ChessServer
