import ChessServer.Proofs.Session

/-!
# Taking and giving up a chair

`GameRequestHandle` is the only way onto a board and `GiveUpHandle` with
`exit` the only way off it besides the end of the connection.  Both change
places, so their effect is stated on the layout as well as on the table
(`join_joins`).
-/

namespace ChessServer

theorem modifyUser_eq {w : World} {u : SessionId} {s : UserSession}
    (hs : w.users u = some s) (f : UserSession → UserSession) :
    w.modifyUser u f = some (w.setUser u (f s)) := by
  simp [World.modifyUser, hs]

@[simp] theorem setUser_users_self (w : World) (u : SessionId)
    (s : UserSession) : (w.setUser u s).users u = some s := by
  simp [World.setUser]

@[simp] theorem setUser_setUser (w : World) (u : SessionId)
    (s s' : UserSession) : (w.setUser u s).setUser u s' = w.setUser u s' := by
  simp [World.setUser]

@[simp] theorem modifyBoard_modifyBoard (w : World) (b : BoardPtr)
    (f g : ChessBoard → ChessBoard) :
    (w.modifyBoard b f).modifyBoard b g =
      w.modifyBoard b fun board => g (f board) := by
  simp [World.modifyBoard]

/-- A change of a board is a change of its chairs. -/
theorem layout_modifyBoard (w : World) (b : BoardPtr)
    (f : ChessBoard → ChessBoard) :
    (w.modifyBoard b f).layout =
      { w.layout with
        seats := Function.update w.layout.seats b (f (w.boards b)).seat
        num := Function.update w.layout.num b
          (f (w.boards b)).currUserNum } := by
  have hseats : (fun c => ((w.modifyBoard b f).boards c).seat) =
      Function.update (fun c => (w.boards c).seat) b
        (f (w.boards b)).seat := by
    funext c
    by_cases hc : c = b
    · subst hc
      simp [World.modifyBoard]
    · simp [World.modifyBoard, hc]
  have hnum : (fun c => ((w.modifyBoard b f).boards c).currUserNum) =
      Function.update (fun c => (w.boards c).currUserNum) b
        (f (w.boards b)).currUserNum := by
    funext c
    by_cases hc : c = b
    · subst hc
      simp [World.modifyBoard]
    · simp [World.modifyBoard, hc]
  simp only [World.layout, hseats, hnum]
  rfl

/-! ## Taking a chair -/

/-- Session `u` took a chair of board `b`, and nothing else of the game
changed. -/
structure Joins (u : SessionId) (b : BoardPtr) (seat : Seat) (w w' : World) :
    Prop where
  layout : w'.layout = w.layout.sit u b seat
  others : ∀ c, c ≠ b → w'.boards c = w.boards c
  mark : ∀ v, v ≠ u → w'.mark v = w.mark v
  table : ∀ s, w.users u = some s →
    w'.table b = (w.table b).join seat u s.userInfo.score

/-- `AddUser` grants a free chair of a board that is not full. -/
theorem addUser_cases {board board' : ChessBoard} {u : SessionId}
    {locate : Location} {ok : Bool}
    (h : board.addUser u locate = (ok, board')) :
    (ok = true ∧ board.hasFullUsers = false ∧ ∃ seat : Seat,
      locate = seat.location ∧ board.seat seat = none ∧
        board' = { board.setSeat seat (some u) with
          currUserNum := board.currUserNum + 1 }) ∨
    (ok = false ∧ (board.hasFullUsers = true ∨ ∀ seat,
      seatAt locate = some seat → board.seat seat ≠ none)) := by
  unfold ChessBoard.addUser at h
  split at h
  · rename_i hfull
    cases h
    exact Or.inr ⟨rfl, Or.inl hfull⟩
  · rename_i hfull
    split at h
    · rename_i seat hseat
      split at h
      · rename_i hfree
        cases h
        exact Or.inl ⟨rfl, by simpa using hfull, seat,
          seatAt_eq_some_iff.mp hseat, hfree, rfl⟩
      · rename_i htaken
        cases h
        refine Or.inr ⟨rfl, Or.inr fun seat' hseat' => ?_⟩
        rw [hseat] at hseat'
        cases hseat'
        exact htaken
    · rename_i hnone
      cases h
      refine Or.inr ⟨rfl, Or.inr fun seat hseat => ?_⟩
      rw [hnone] at hseat
      cases hseat

/-- The board after its user number `num + 1` sat down. -/
def ChessBoard.seated (board : ChessBoard) (u : SessionId) (seat : Seat) :
    ChessBoard :=
  { board.setSeat seat (some u) with currUserNum := board.currUserNum + 1 }

/-- The chair is granted unless a game is going on or the chair is not to
be had. -/
theorem joinBoard_cases {c : BoardPtr} {u : SessionId} {s : UserSession}
    {locate : Location} {ok : Bool} {w w' : World}
    (hs : w.users u = some s)
    (h : joinBoard c u locate w = some (ok, w')) :
    (ok = true ∧ (w.table c).began = false ∧
      (w.boards c).hasFullUsers = false ∧ ∃ seat : Seat,
        locate = seat.location ∧ (w.boards c).seat seat = none ∧
          w' = (w.setUser u { s with locate := locate }).modifyBoard c
            (·.seated u seat)) ∨
    (ok = false ∧ w' = w.setUser u { s with locate := locate } ∧
      ((w.table c).began = true ∨ (w.boards c).hasFullUsers = true ∨
        ∀ seat, seatAt locate = some seat →
          (w.boards c).seat seat ≠ none)) := by
  simp only [joinBoard, modifyUser_eq hs, Option.bind_eq_bind,
    Option.bind_some, Option.bind_eq_some_iff] at h
  obtain ⟨began, hbegan, h⟩ := h
  have hbegan' : began = (w.table c).began := by
    rw [gameBegan_eq hbegan]
    congr 1
    refine table_eq_of_marks rfl fun _ v _ => ?_
    by_cases hv : v = u
    · subst hv
      simp [World.mark, hs, UserSession.mark]
    · simp [World.mark, World.setUser, hv]
  split at h
  · rename_i hyes
    cases h
    exact Or.inr ⟨rfl, rfl, Or.inl (hbegan'.symm.trans hyes)⟩
  · rename_i hno
    have hno' : (w.table c).began = false := by
      rw [← hbegan']
      simpa using hno
    rcases hadd : (w.boards c).addUser u locate with ⟨added, board⟩
    have hadd' : ((w.setUser u { s with locate := locate }).boards c).addUser u
        locate = (added, board) := hadd
    rw [hadd'] at h
    dsimp only at h
    rcases addUser_cases hadd with ⟨rfl, hfull, seat, hseat, hfree, rfl⟩ |
      ⟨rfl, hwhy⟩
    · rw [if_pos rfl] at h
      cases h
      refine Or.inl ⟨rfl, hno', hfull, seat, hseat, hfree, ?_⟩
      simp only [World.modifyBoard, ChessBoard.seated]
      rfl
    · rw [if_neg (by decide)] at h
      cases h
      exact Or.inr ⟨rfl, rfl, Or.inr hwhy⟩

/-- The first on the board is its owner. -/
def ChessBoard.owned (board : ChessBoard) (locate : Location) : ChessBoard :=
  if board.currUserNum = 1 then { board with firstComeUserLocate := locate }
  else board

/-- A request that is granted, as one change of the world. -/
theorem joinAccepted_eq {c : BoardPtr} {u : SessionId} {s : UserSession}
    {locate : Location} {reply : RequestPlayReply} {w w' : World}
    (hs : w.users u = some s)
    (h : joinAccepted c u locate w = some (reply, w')) :
    w' = (w.modifyBoard c (·.owned locate)).setUser u { s with
      status := .ready
      currChessBoard := some c
      nextState := some .gamePlay } := by
  simp only [joinAccepted, modifyUser_eq hs, setNextState,
    Option.bind_eq_bind, Option.bind_some, Option.bind_eq_some_iff,
    modifyUser_eq (setUser_users_self _ _ _), setUser_setUser] at h
  obtain ⟨info, _, w₁, hnext, h⟩ := h
  cases h
  have hboards : ((w.setUser u { s with
      status := .ready
      currChessBoard := some c }).boards c).currUserNum =
      (w.boards c).currUserNum := rfl
  rw [hboards] at hnext
  unfold ChessBoard.owned
  by_cases hone : (w.boards c).currUserNum = 1
  · rw [if_pos hone] at hnext
    have hu : ((w.setUser u { s with
        status := .ready
        currChessBoard := some c }).modifyBoard c fun board =>
          { board with firstComeUserLocate := locate }).users u = some { s with
        status := .ready
        currChessBoard := some c } := setUser_users_self _ _ _
    rw [modifyUser_eq hu] at hnext
    cases hnext
    simp [World.modifyBoard, World.setUser, hone]
  · rw [if_neg hone, modifyUser_eq (setUser_users_self _ _ _)] at hnext
    cases hnext
    simp [World.modifyBoard, World.setUser, hone]

/-- How many chairs of a table are taken is how many of its board are. -/
theorem occupied_table {w : World} (hseating : w.layout.Seating)
    (b : BoardPtr) :
    occupied (w.table b).players = ((w.boards b).currUserNum).toNat := by
  have hsome : ∀ seat, ((w.table b).players seat).isSome =
      (w.layout.seats b seat).isSome := by
    intro seat
    cases hseat : (w.boards b).seat seat with
    | none => simp [World.table, World.layout, hseat]
    | some u =>
        obtain ⟨p, hp, _⟩ := hseating.seated hseat
        simp only [World.layout, Option.map_eq_some_iff] at hp
        obtain ⟨s, hs, _⟩ := hp
        simp [World.table, World.layout, hseat, hs]
  have hcount := hseating.count b
  simp only [occupied, hsome] at hcount ⊢
  exact hcount.symm

/-- The players after `u` came to a free chair. -/
theorem players_sit {w : World} {c : BoardPtr} {u : SessionId}
    (hnot : ∀ seat, (w.boards c).seat seat ≠ some u) (seat : Seat)
    (s : UserSession) :
    (fun seat' => (Function.update (w.boards c).seat seat (some u) seat').bind
      fun v => ((w.setUser u s).users v).bind fun s' =>
        some (⟨v, s'.status, s'.userInfo.score⟩ : Player)) =
      Function.update (w.table c).players seat
        (some ⟨u, s.status, s.userInfo.score⟩) := by
  funext seat'
  by_cases hs' : seat' = seat
  · subst hs'
    simp
  · simp only [Function.update_of_ne hs', World.table]
    cases hv : (w.boards c).seat seat' with
    | none => rfl
    | some v =>
        have hvu : v ≠ u := by
          rintro rfl
          exact hnot seat' hv
        simp [World.setUser, hvu]

/-- Sitting down on a free chair, as the layout and the table see it. -/
theorem join_joins {u : SessionId} {c : BoardPtr} {seat : Seat}
    {s : UserSession} {w : World} (hseating : w.layout.Seating)
    (hs : w.users u = some s) (hstand : s.currChessBoard = none)
    (hfree : (w.boards c).seat seat = none) :
    Joins u c seat w ((w.modifyBoard c fun board =>
      (board.seated u seat).owned seat.location).setUser u { s with
        locate := seat.location
        status := .ready
        currChessBoard := some c
        nextState := some .gamePlay }) := by
  have hseat : ((w.boards c).seated u seat |>.owned seat.location).seat =
      Function.update (w.boards c).seat seat (some u) := by
    rw [← setSeat_seat]
    unfold ChessBoard.owned ChessBoard.seated
    split <;> funext x <;> cases x <;> rfl
  have hnum : ((w.boards c).seated u seat |>.owned seat.location).currUserNum =
      (w.boards c).currUserNum + 1 := by
    unfold ChessBoard.owned ChessBoard.seated
    split <;> rfl
  have hplace : w.layout.place u = some s.place := by
    simp [World.layout, hs]
  have hnot := hseating.not_seated hplace hstand
  exact
    { layout := by
        rw [layout_setUser (s := s) (by simpa [World.modifyBoard] using hs),
          layout_modifyBoard, hseat, hnum]
        simp only [Layout.sit, Layout.modify, Layout.setSeat, hplace]
        rfl
      others := fun b hb => by simp [World.setUser, World.modifyBoard, hb]
      mark := fun v hv => by
        simp [World.mark, World.setUser, World.modifyBoard, hv]
      table := by
        intro s' hs'
        rw [hs] at hs'
        cases hs'
        have hcount : occupied (Function.update (w.table c).players seat
            (some ⟨u, .ready, s.userInfo.score⟩)) = 1 ↔
            (w.boards c).currUserNum + 1 = 1 := by
          have hupdate := occupied_update (w.table c).players seat
            (some ⟨u, .ready, s.userInfo.score⟩)
          have hnone : (w.table c).players seat = none := by
            simp [World.table, hfree]
          rw [hnone, occupied_table hseating c] at hupdate
          simp only [Option.isSome_none, Bool.toNat_false, Option.isSome_some,
            Bool.toNat_true, Nat.add_zero] at hupdate
          rw [hupdate, ← UInt32.toNat_inj]
          have hle := occupied_le (w.layout.seats c)
          rw [← hseating.count c] at hle
          have hle' : ((w.boards c).currUserNum).toNat ≤ 3 := hle
          simp only [UInt32.toNat_add, UInt32.reduceToNat]
          omega
        unfold Table.join
        by_cases hone : (w.boards c).currUserNum + 1 = 1
        · rw [if_pos (hcount.mpr hone)]
          refine Table.ext ?_ ?_ ?_ ?_ ?_ ?_
          · rw [← players_sit (hnot c) seat { s with
              locate := seat.location
              status := .ready
              currChessBoard := some c
              nextState := some .gamePlay }]
            simp only [World.table, World.setUser, World.modifyBoard,
              Function.update_self, hseat]
            rfl
          all_goals
            cases seat <;> simp [World.table, World.setUser,
              World.modifyBoard, ChessBoard.owned, ChessBoard.seated, hone,
              ChessBoard.setSeat]
        · rw [if_neg (fun h => hone (hcount.mp h))]
          refine Table.ext ?_ ?_ ?_ ?_ ?_ ?_
          · rw [← players_sit (hnot c) seat { s with
              locate := seat.location
              status := .ready
              currChessBoard := some c
              nextState := some .gamePlay }]
            simp only [World.table, World.setUser, World.modifyBoard,
              Function.update_self, hseat]
            rfl
          all_goals
            cases seat <;> simp [World.table, World.setUser,
              World.modifyBoard, ChessBoard.owned, ChessBoard.seated, hone,
              ChessBoard.setSeat] }

end ChessServer
