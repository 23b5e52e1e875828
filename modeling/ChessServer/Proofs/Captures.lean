import ChessServer.Model.Captures
import ChessServer.Proofs.Leaving

/-!
# When a capture and its undo complete

`MoveChessHandle` needs a user on the seat that the message names as source;
`UndoHandle`, when an undo was agreed to, needs users on both seats of the
capture it takes back.  Nothing else that they dereference can be missing
(`moveChessHandle_completes`, `undoHandle_completes`).
-/

namespace ChessServer

/-! ## Seats that are named -/

/-- Who is found at a location has a session with a thread. -/
theorem Layout.Connected.session {w : World} {b : BoardPtr}
    {locate : Location} {u : SessionId} (hc : w.layout.Connected)
    (hu : (w.boards b).getUserByLocation locate = some u) :
    ∃ s, w.users u = some s ∧ s.thread.isSome := by
  obtain ⟨seat, _, hseat⟩ := getUserByLocation_eq_some hu
  obtain ⟨p, hp, honline, _⟩ :=
    hc.seated (show w.layout.seats b seat = some u from hseat)
  obtain ⟨s, hs, rfl⟩ := place_session hp
  exact ⟨s, hs, honline.thread⟩

/-- A play leaves everybody at their locations. -/
theorem Plays.user {b : BoardPtr} {w w' : World} {t : Table}
    (h : Plays b w w' t) (locate : Location) :
    (w'.boards b).getUserByLocation locate =
      (w.boards b).getUserByLocation locate := by
  unfold ChessBoard.getUserByLocation
  cases hseat : seatAt locate with
  | none => rfl
  | some seat =>
      have hsame := congrFun (h.seats b) seat
      cases seat <;> exact hsame

/-! ## MoveChessHandle -/

/-- A capture completes when the mover is there. -/
theorem moveCapture_completes (env : Env) {b : BoardPtr} {m : MoveChess}
    {w : World} {u : SessionId} (hc : w.layout.Connected)
    (hdistinct : w.layout.Distinct)
    (hu : (w.boards b).getUserByLocation m.srcLocate = some u) :
    ∃ w', moveCapture env b m w = some w' := by
  unfold moveCapture
  cases m.isWinner with
  | false => exact ⟨_, rfl⟩
  | true =>
      have p₀ := setRecent_plays w b m.srcLocate m.targetLocate
      have hu₀ := (p₀.user m.srcLocate).trans hu
      have hc₀ := p₀.layout.symm ▸ hc
      obtain ⟨s, hs, hthread⟩ := hc₀.session hu₀
      obtain ⟨w₁, h₁, _⟩ := increaseScore_completes env 10 hs hthread
      obtain ⟨seat, _, hseat⟩ := getUserByLocation_eq_some hu₀
      have p₁ := increaseScore_plays (p₀.distinct hdistinct) hseat h₁
      simp only [if_true, hu₀, h₁, Option.bind_eq_bind, Option.bind_some]
      cases htarget : (w₁.boards b).getUserByLocation m.targetLocate with
      | none => exact ⟨w₁, rfl⟩
      | some v =>
          have hc₁ := p₁.layout.symm ▸ hc₀
          obtain ⟨s', hs', hthread'⟩ := hc₁.session htarget
          obtain ⟨w₂, h₂, _⟩ := @reduceScore_completes env w₁ v s' 10 hs'
            hthread'
          obtain ⟨seat', _, hseat'⟩ := getUserByLocation_eq_some htarget
          have p₂ := reduceScore_plays
            (p₁.distinct (p₀.distinct hdistinct)) hseat' h₂
          have hv : (w₂.boards b).getUserByLocation m.targetLocate = some v :=
            (p₂.user m.targetLocate).trans htarget
          obtain ⟨s'', hs'', _⟩ := (p₂.layout.symm ▸ hc₁).session hv
          exact ⟨_, by simp only [h₂, Option.bind_some, modifyUser_eq hs'']; rfl⟩

/-- The token of a reply can always be chosen. -/
theorem moveToken_completes {b : BoardPtr} {u : SessionId}
    {s : UserSession} {w : World} (locate : Location)
    (hc : w.layout.Connected) (hs : w.users u = some s) :
    ∃ token w', moveToken b u locate w = some (token, w') := by
  have htoken : ∀ first second,
      ∃ token, tokenOf b first second w = some token := by
    intro first second
    exact ⟨_, by
      simp only [tokenOf, seatStatus_completes hc first, Option.bind_eq_bind,
        Option.bind_some]
      rfl⟩
  have hnext : ∃ token, nextToken b locate w = some token := by
    unfold nextToken
    cases seatAt locate with
    | none => exact ⟨_, rfl⟩
    | some seat =>
        cases seat with
        | left =>
            obtain ⟨token, h⟩ := htoken .bottom .right
            exact ⟨some token, by simp [h]⟩
        | right =>
            obtain ⟨token, h⟩ := htoken .left .bottom
            exact ⟨some token, by simp [h]⟩
        | bottom =>
            obtain ⟨token, h⟩ := htoken .right .left
            exact ⟨some token, by simp [h]⟩
  simp only [moveToken, getActiveUsersNum_completes hc, Option.bind_eq_bind,
    Option.bind_some]
  split
  · obtain ⟨token, h⟩ := hnext
    exact ⟨token, w, by simp [h]⟩
  · exact ⟨_, _, by simp only [modifyUser_eq hs, Option.bind_some]; rfl⟩

/-- A move completes when the mover is there. -/
theorem moveChessHandle_completes (env : Env) {b : BoardPtr} {msg : Bytes}
    {m : MoveChess} {w : World} {u : SessionId} (hinv : w.layout.Inv)
    (hmsg : env.proto.moveChess msg = some m)
    (hu : (w.boards b).getUserByLocation m.srcLocate = some u) :
    ∃ w', moveChessHandle env b msg w = some (true, w') := by
  have hc := hinv.connected
  obtain ⟨w₁, h₁⟩ := moveCapture_completes env hc hinv.seating.distinct hu
  have p₁ := moveCapture_plays hinv.seating.distinct h₁
  have hc₁ := p₁.layout.symm ▸ hc
  have hu₁ := (p₁.user m.srcLocate).trans hu
  obtain ⟨s, hs, _⟩ := hc₁.session hu₁
  obtain ⟨token, w₂, h₂⟩ := moveToken_completes (b := b) s.locate hc₁ hs
  obtain ⟨seat, _, hseat⟩ := getUserByLocation_eq_some hu₁
  have p₂ := moveToken_plays (p₁.distinct hinv.seating.distinct) hseat h₂
  have hc₂ := p₂.layout.symm ▸ hc₁
  obtain ⟨w₃, h₃⟩ := broadCastMsg_completes env b .announceMove
    (.moveAction ⟨s.locate, m, token⟩) locationMax hc₂
  have hc₃ := (broadCastMsg_notified h₃).connected hc₂
  obtain ⟨info, hinfo⟩ := wrapChessBoardInfo_completes b hc₃
  obtain ⟨w₄, h₄⟩ := broadCastMsg_completes env b .chessBoard
    (.chessBoardInfo info) locationMax hc₃
  simp only [moveChessHandle, hmsg, h₁, hu, hs, h₂, h₃, hinfo, h₄,
    Option.bind_eq_bind, Option.bind_some]
  split
  · exact ⟨w₄, rfl⟩
  · exact ⟨w₃, rfl⟩

/-! ## UndoHandle -/

/-- The seats whose users `UndoHandle` asks for, when an undo is agreed to. -/
def ChessBoard.recent (board : ChessBoard) : List Location :=
  if board.recentWinnerLocate ≠ locationMax then
    [board.recentWinnerLocate, board.recentLoserLocate]
  else []

/-- Taking a capture back needs both players of it. -/
theorem undoCapture_completes (env : Env) {b : BoardPtr} {w : World}
    (hc : w.layout.Connected) (hdistinct : w.layout.Distinct)
    (htaken : ∀ locate ∈ (w.boards b).recent,
      ∃ u, (w.boards b).getUserByLocation locate = some u) :
    ∃ w', undoCapture env b w = some w' := by
  unfold undoCapture
  by_cases hrecent : (w.boards b).recentWinnerLocate ≠ locationMax
  · unfold ChessBoard.recent at htaken
    rw [if_pos hrecent] at htaken
    obtain ⟨u, hu⟩ := htaken _ (List.mem_cons_self ..)
    obtain ⟨v, hv⟩ := htaken _ (List.mem_cons_of_mem _ (List.mem_cons_self ..))
    obtain ⟨s, hs, hthread⟩ := hc.session hu
    obtain ⟨w₁, h₁, _⟩ := @reduceScore_completes env w u s 10 hs hthread
    obtain ⟨seat, _, hseat⟩ := getUserByLocation_eq_some hu
    have p₁ := reduceScore_plays hdistinct hseat h₁
    have hv₁ := (p₁.user (w.boards b).recentLoserLocate).trans hv
    have hc₁ := p₁.layout.symm ▸ hc
    obtain ⟨s', hs', hthread'⟩ := hc₁.session hv₁
    obtain ⟨w₂, h₂, _⟩ := increaseScore_completes env 10 hs' hthread'
    obtain ⟨seat', _, hseat'⟩ := getUserByLocation_eq_some hv₁
    have p₂ := increaseScore_plays (p₁.distinct hdistinct) hseat' h₂
    have hv₂ := (p₂.user (w.boards b).recentLoserLocate).trans hv₁
    obtain ⟨s'', hs'', _⟩ := (p₂.layout.symm ▸ hc₁).session hv₂
    rw [if_pos hrecent]
    exact ⟨_, by
      simp only [hu, h₁, hv, h₂, modifyUser_eq hs'', Option.bind_eq_bind,
        Option.bind_some]
      rfl⟩
  · rw [if_neg hrecent]
    exact ⟨w, rfl⟩

/-- Without a user on one of the two seats the process dies. -/
theorem undoCapture_needs {env : Env} {b : BoardPtr} {w w' : World}
    (h : undoCapture env b w = some w') :
    ∀ locate ∈ (w.boards b).recent,
      ∃ u, (w.boards b).getUserByLocation locate = some u := by
  intro locate hmem
  unfold ChessBoard.recent at hmem
  unfold undoCapture at h
  split at hmem
  · rename_i hrecent
    rw [if_pos hrecent] at h
    simp only [Option.bind_eq_bind, Option.bind_eq_some_iff] at h
    obtain ⟨winner, hwinner, _, _, loser, hloser, _⟩ := h
    rcases List.mem_cons.mp hmem with rfl | hmem
    · exact ⟨winner, hwinner⟩
    · rw [List.mem_singleton.mp hmem]
      exact ⟨loser, hloser⟩
  · cases hmem

/-- An undo completes when both players of the capture are there. -/
theorem undoHandle_completes (env : Env) {b : BoardPtr} {msg : Bytes}
    {undo : Undo} {w : World} (type : MessageType) (hinv : w.layout.Inv)
    (hmsg : env.proto.undo msg = some undo)
    (htaken : undo.accepted = true → ∀ locate ∈ (w.boards b).recent,
      ∃ u, (w.boards b).getUserByLocation locate = some u) :
    ∃ w', undoHandle env b msg type w = some (true, w') := by
  have hc := hinv.connected
  simp only [undoHandle, hmsg, Option.bind_eq_bind]
  split
  · cases htarget : (w.boards b).getUserByLocation undo.tarUserLocate with
    | none => exact ⟨w, rfl⟩
    | some v =>
        obtain ⟨seat, _, hseat⟩ := getUserByLocation_eq_some htarget
        obtain ⟨p, hp, honline, _⟩ :=
          hc.seated (show w.layout.seats b seat = some v from hseat)
        obtain ⟨ret, w₁, h₁⟩ := messageReply_completes env type
          (.forward msg) hp honline
        exact ⟨w₁, by simp only [h₁, Option.bind_some]⟩
  · split
    · obtain ⟨w₁, h₁⟩ := broadCastMsg_completes env b type (.forward msg)
        undo.tarUserLocate hc
      have n₁ := broadCastMsg_notified h₁
      simp only [h₁, Option.bind_some]
      by_cases haccepted : undo.accepted = true
      · rw [if_pos haccepted]
        obtain ⟨w₂, h₂⟩ := undoCapture_completes env (b := b)
          (n₁.connected hc) (n₁.layout ▸ hinv.seating.distinct) (by
            rw [n₁.boards]
            exact htaken haccepted)
        exact ⟨w₂, by simp only [h₂, Option.bind_some]⟩
      · rw [if_neg haccepted]
        exact ⟨w₁, rfl⟩
    · exact ⟨w, rfl⟩

/-- And only then. -/
theorem undoHandle_needs {env : Env} {b : BoardPtr} {msg : Bytes}
    {undo : Undo} {type : MessageType} {ret : Bool} {w w' : World}
    (hmsg : env.proto.undo msg = some undo) (haccepted : undo.accepted = true)
    (h : undoHandle env b msg type w = some (ret, w')) :
    ∀ locate ∈ (w.boards b).recent,
      ∃ u, (w.boards b).getUserByLocation locate = some u := by
  have hresp : undo.repOrRespon = 1 := by
    unfold Undo.accepted at haccepted
    rw [Bool.and_eq_true, beq_iff_eq] at haccepted
    exact haccepted.1
  simp only [undoHandle, hmsg, Option.bind_eq_bind] at h
  rw [if_neg (by simp [hresp]), if_pos hresp] at h
  simp only [haccepted, if_true, Option.bind_eq_some_iff] at h
  obtain ⟨w₁, hsend, w₂, hundo, _⟩ := h
  have hneeds := undoCapture_needs hundo
  rwa [(broadCastMsg_notified hsend).boards] at hneeds

end ChessServer
