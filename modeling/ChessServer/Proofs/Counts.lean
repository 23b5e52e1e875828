import ChessServer.Proofs.StepChanges

/-!
# Counts, snapshots and published boards

A board keeps the number of its users beside the three chairs.  Every
elementary change keeps the two in step, so every snapshot that is sent
shows as many users as it counts, and the boards on which somebody sits are
the ones that their hall has published (`reachable_accounted`).
-/

namespace ChessServer

/-! ## One board -/

/-- `LeaveOutRoom` either vacates the chair or does nothing to the chairs. -/
theorem leaveOutRoom_cases (board : ChessBoard) (locate : Location) :
    ((board.leaveOutRoom locate).2.seat = board.seat ∧
      (board.leaveOutRoom locate).2.currUserNum = board.currUserNum) ∨
    ∃ seat, seatAt locate = some seat ∧ board.seat seat ≠ none ∧
      0 < board.currUserNum ∧
      (board.leaveOutRoom locate).2.seat =
        Function.update board.seat seat none ∧
      (board.leaveOutRoom locate).2.currUserNum = board.currUserNum - 1 := by
  -- the owner's mark is assigned last and is no chair
  have hmark : ∀ (r : Bool) (b : ChessBoard),
      (if locate = b.firstComeUserLocate then
        (r, { b with firstComeUserLocate := locationMax }) else (r, b)).2.seat =
        b.seat ∧
      (if locate = b.firstComeUserLocate then
        (r, { b with firstComeUserLocate := locationMax })
        else (r, b)).2.currUserNum = b.currUserNum := by
    intro r b
    split
    · exact ⟨firstCome_seat b locationMax, rfl⟩
    · exact ⟨rfl, rfl⟩
  unfold ChessBoard.leaveOutRoom
  by_cases hpos : board.currUserNum > 0
  · rw [if_pos hpos]
    cases hseat : seatAt locate with
    | none => exact Or.inl (hmark false board)
    | some seat =>
        dsimp only
        by_cases hnone : board.seat seat = none
        · rw [if_pos hnone]
          exact Or.inl (hmark false board)
        · rw [if_neg hnone]
          obtain ⟨hs, hn⟩ := hmark true { board.setSeat seat none with
            currUserNum := board.currUserNum - 1 }
          refine Or.inr ⟨seat, rfl, hnone, hpos, hs.trans ?_, hn⟩
          rw [← setSeat_seat]
          funext x
          cases x <;> rfl
  · rw [if_neg hpos]
    exact Or.inl (hmark false board)

/-- Vacating a chair seats nobody. -/
theorem leaveOutRoom_seat {board : ChessBoard} {locate : Location}
    {seat : Seat} {u : SessionId}
    (hseat : (board.leaveOutRoom locate).2.seat seat = some u) :
    board.seat seat = some u := by
  rcases leaveOutRoom_cases board locate with
    ⟨hsame, _⟩ | ⟨free, _, _, _, hfree, _⟩
  · rwa [hsame] at hseat
  · rw [hfree] at hseat
    by_cases hseat' : seat = free
    · rw [hseat', Function.update_self] at hseat
      cases hseat
    · rwa [Function.update_of_ne hseat'] at hseat

/-- Getting up is counted. -/
theorem leaveOutRoom_counted {board : ChessBoard} (h : board.Counted)
    (locate : Location) : (board.leaveOutRoom locate).2.Counted := by
  unfold ChessBoard.Counted at h ⊢
  rcases leaveOutRoom_cases board locate with
    ⟨hseat, hnum⟩ | ⟨seat, _, htaken, hpos, hseat, hnum⟩
  · rw [hseat, hnum, h]
  · rw [hseat, hnum]
    have hupdate := occupied_update board.seat seat none
    have hsome : (board.seat seat).isSome = true := by
      rw [Option.isSome_iff_ne_none]
      exact htaken
    have hpos' : 0 < board.currUserNum.toNat := by
      simpa using UInt32.lt_iff_toNat_lt.mp hpos
    have hone : (1 : UInt32) ≤ board.currUserNum := by
      rw [UInt32.le_iff_toNat_le]
      exact hpos'
    rw [UInt32.toNat_sub_of_le _ _ hone]
    simp only [hsome, Bool.toNat_true, Option.isSome_none, Bool.toNat_false,
      UInt32.reduceToNat] at hupdate ⊢
    omega

/-- So is sitting down on a free chair. -/
theorem seated_counted {board : ChessBoard} (h : board.Counted)
    {seat : Seat} (hfree : board.seat seat = none) (user : SessionId) :
    (board.seated user seat).Counted := by
  have hseat : (board.seated user seat).seat =
      Function.update board.seat seat (some user) := by
    rw [← setSeat_seat]
    funext x
    cases seat <;> cases x <;> rfl
  have hnum : (board.seated user seat).currUserNum =
      board.currUserNum + 1 := rfl
  have hupdate := occupied_update board.seat seat (some user)
  have hle := occupied_le (Function.update board.seat seat (some user))
  unfold ChessBoard.Counted at h ⊢
  rw [hseat, hnum, UInt32.toNat_add]
  simp only [hfree, Option.isSome_none, Bool.toNat_false, Option.isSome_some,
    Bool.toNat_true, UInt32.reduceToNat] at hupdate ⊢
  omega

/-- And asking for one, granted or not. -/
theorem addUser_counted {board : ChessBoard} (h : board.Counted)
    (user : SessionId) (locate : Location) :
    (board.addUser user locate).2.Counted := by
  unfold ChessBoard.addUser
  split
  · exact h
  · split
    · split
      · rename_i hfree
        exact seated_counted h hfree user
      · exact h
    · exact h

/-- A right count is never above three, and it is three exactly when every
chair is taken. -/
theorem ChessBoard.Counted.hasFullUsers {board : ChessBoard}
    (h : board.Counted) :
    board.currUserNum ≤ 3 ∧
      (board.hasFullUsers = true ↔ ∀ seat, board.seat seat ≠ none) := by
  unfold ChessBoard.Counted at h
  have hle := occupied_le board.seat
  constructor
  · rw [UInt32.le_iff_toNat_le, h]
    exact hle
  · have hfull : board.hasFullUsers = true ↔ occupied board.seat = 3 := by
      rw [← h]
      unfold ChessBoard.hasFullUsers
      rw [beq_iff_eq, ← UInt32.toNat_inj]
      rfl
    rw [hfull]
    unfold occupied
    constructor
    · intro hthree seat hnone
      cases seat <;> simp only [hnone, Option.isSome_none] at hthree <;>
        have := Bool.toNat_le (board.seat .left).isSome <;>
        have := Bool.toNat_le (board.seat .right).isSome <;>
        have := Bool.toNat_le (board.seat .bottom).isSome <;>
        simp only [Bool.toNat_false] at hthree <;> omega
    · intro htaken
      have hsome : ∀ seat, (board.seat seat).isSome = true := fun seat =>
        Option.isSome_iff_ne_none.mpr (htaken seat)
      simp [hsome]

/-! ## All boards -/

/-- What the halls know of their boards. -/
structure World.Published (w : World) : Prop where
  max : ∀ hall, (w.halls hall).chessBoardMaxNum = chessBoardMaxNum
  known : ∀ {hall id b}, (w.halls hall).chessBoardInfo[id]? = some b →
    b = ⟨hall, id⟩ ∧ id ≠ 0 ∧ id ≤ chessBoardMaxNum
  seated : ∀ {b seat u}, (w.boards b).seat seat = some u →
    (w.halls b.hall).chessBoardInfo[b.id]? = some b

/-- Every board is counted, every snapshot sent so far was right, and nobody
sits on a board that its hall does not know. -/
structure World.Accounted (w : World) : Prop where
  counted : w.Counted
  sent : ∀ m ∈ w.sent, m.body.Sound
  published : w.Published

/-- The books depend on the boards, the halls and what was sent. -/
theorem World.Accounted.congr {w w' : World} (hw : w.Accounted)
    (hboards : w'.boards = w.boards) (hhalls : w'.halls = w.halls)
    (hsent : w'.sent = w.sent) : w'.Accounted where
  counted := by
    unfold World.Counted
    rw [hboards]
    exact hw.counted
  sent := by
    rw [hsent]
    exact hw.sent
  published := by
    refine ⟨?_, ?_, ?_⟩
    · rw [hhalls]
      exact hw.published.max
    · rw [hhalls]
      exact hw.published.known
    · rw [hboards, hhalls]
      exact hw.published.seated

/-- A hall that gets a new board knows it, and its other boards as before. -/
theorem createChessBoard_published {w : World} {hall id : UInt32}
    (hw : w.Published) (hid : id ≠ 0)
    (hmax : id ≤ (w.halls hall).chessBoardMaxNum) :
    (w.createChessBoard hall id).2.Published := by
  unfold World.createChessBoard
  dsimp only
  split
  · exact hw
  · have hkeep : ∀ (h i : UInt32) (b : BoardPtr),
        (w.halls h).chessBoardInfo[i]? = some b →
        (Function.update w.halls hall { w.halls hall with
          chessBoardInfo := (w.halls hall).chessBoardInfo.insertIfNew id
            ⟨hall, id⟩ } h).chessBoardInfo[i]? = some b := by
      intro h i b hb
      by_cases hh : h = hall
      · subst hh
        rw [Function.update_self, Std.TreeMap.getElem?_insertIfNew]
        split
        · rename_i hnew
          have hmem : i ∈ (w.halls h).chessBoardInfo := by
            rw [Std.TreeMap.mem_iff_isSome_getElem?, hb]
            rfl
          have heq : id = i := Std.LawfulEqCmp.eq_of_compare hnew.1
          exact absurd (heq ▸ hmem) hnew.2
        · exact hb
      · rw [Function.update_of_ne hh]
        exact hb
    refine ⟨fun h => ?_, ?_, ?_⟩
    · dsimp only
      by_cases hh : h = hall
      · subst hh
        rw [Function.update_self]
        exact hw.max h
      · rw [Function.update_of_ne hh]
        exact hw.max h
    · intro h i b hb
      dsimp only at hb
      by_cases hh : h = hall
      · subst hh
        rw [Function.update_self, Std.TreeMap.getElem?_insertIfNew] at hb
        split at hb
        · rename_i hnew
          cases hb
          obtain rfl : id = i := Std.LawfulEqCmp.eq_of_compare hnew.1
          exact ⟨rfl, hid, hw.max h ▸ hmax⟩
        · exact hw.known hb
      · rw [Function.update_of_ne hh] at hb
        exact hw.known hb
    · intro b seat u hseat
      exact hkeep b.hall b.id b (hw.seated hseat)

/-- Replacing one board by one that is counted and seats only those who were
seated there, or somebody on a known board. -/
theorem World.Accounted.modifyBoard {w : World} (hw : w.Accounted)
    {b : BoardPtr} {f : ChessBoard → ChessBoard}
    (hcounted : (f (w.boards b)).Counted)
    (hseated : ∀ {seat u}, (f (w.boards b)).seat seat = some u →
      (w.halls b.hall).chessBoardInfo[b.id]? = some b) :
    (w.modifyBoard b f).Accounted where
  counted := by
    intro c
    by_cases hc : c = b
    · subst hc
      simpa [World.modifyBoard] using hcounted
    · simpa [World.modifyBoard, hc] using hw.counted c
  sent := hw.sent
  published := by
    refine ⟨hw.published.max, hw.published.known, ?_⟩
    intro c seat u hseat
    by_cases hc : c = b
    · subst hc
      simp only [World.modifyBoard, Function.update_self] at hseat
      exact hseated hseat
    · simp only [World.modifyBoard, Function.update_of_ne hc] at hseat
      exact hw.published.seated hseat

/-- Every elementary change keeps the books. -/
theorem Change.accounted {u : SessionId} {w w' : World} (hw : w.Accounted)
    (h : Change u w w') : w'.Accounted := by
  cases h with
  | send m hsound =>
      refine ⟨hw.counted, fun m' hm' => ?_, ⟨hw.published.max,
        hw.published.known, hw.published.seated⟩⟩
      rcases List.mem_cons.mp hm' with rfl | hm'
      · exact hsound hw.counted
      · exact hw.sent m' hm'
  | buffer v size =>
      have hsame : (w.getBuffer v size).boards = w.boards ∧
          (w.getBuffer v size).halls = w.halls ∧
          (w.getBuffer v size).sent = w.sent := by
        unfold World.getBuffer
        split
        · exact ⟨rfl, rfl, rfl⟩
        · split <;> exact ⟨rfl, rfl, rfl⟩
      exact hw.congr hsame.1 hsame.2.1 hsame.2.2
  | publish hhall hid hmax =>
      have hpub := createChessBoard_published hw.published hid hmax
      refine ⟨?_, ?_, hpub⟩
      · rw [(createChessBoard_notified _ _ w).counted]
        exact hw.counted
      · unfold World.createChessBoard
        dsimp only
        split <;> exact hw.sent
  | @note b board hseat hnum =>
      refine hw.modifyBoard ?_ fun h => ?_
      · unfold ChessBoard.Counted
        rw [hseat, hnum]
        exact hw.counted b
      · rw [hseat] at h
        exact hw.published.seated h
  | @vacate b seat v s hs hseat hlocate hstatus =>
      refine hw.modifyBoard (leaveOutRoom_counted (hw.counted b) _)
        fun h => ?_
      exact hw.published.seated hseat
  | @take b seat s hs hlocate hstate hfree hroom hknown =>
      refine hw.modifyBoard (seated_counted (hw.counted b) hfree u)
        fun h => ?_
      obtain ⟨hall, id, hb⟩ := hknown
      obtain ⟨rfl, _⟩ := hw.published.known hb
      exact hb
  | _ => exact hw.congr rfl rfl rfl

/-- Nothing is booked at the start. -/
theorem init_accounted : World.init.Accounted where
  counted := fun _ => rfl
  sent := fun _ hm => by cases hm
  published := by
    refine ⟨fun _ => rfl, ?_, ?_⟩
    · intro hall id b hb
      simp [World.init] at hb
    · intro b seat u hseat
      cases seat <;> cases hseat

/-- The books are right in every state the server reaches. -/
theorem reachable_accounted {env : Env} {ok : Event → World → Prop}
    {w : World} (h : (server env).ReachableWith ok w) : w.Accounted := by
  refine h.invariant_of (J := fun w => w.layout.Inv) reachable_inv
    init_accounted ?_
  intro e a b hinv hacc henabled _ hstep
  obtain ⟨u, hchanges⟩ := step_changes hinv henabled hstep
  exact hchanges.invariant Change.accounted hacc

end ChessServer
