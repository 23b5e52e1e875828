import ChessServer.Model.Occupancy
import ChessServer.Model.Table
import ChessServer.Proofs.Notify

/-!
# What an in-game handler changes

`Plays b w w' t`: from `w` to `w'` only board `b` was played on, its table
is now `t`, and nobody's place changed.  The lemmas here are about the
pieces the handlers are made of; each turns one assignment or one loop of
the source into one operation on the table (`modifyUser_plays`,
`modifyBoard_plays`).
-/

namespace ChessServer

/-- Only the table of board `b` changed, and it became `t`. -/
structure Plays (b : BoardPtr) (w w' : World) (t : Table) : Prop where
  layout : w'.layout = w.layout
  outside : ∀ v, (∀ seat, (w.boards b).seat seat ≠ some v) →
    w'.users v = w.users v
  others : ∀ c, c ≠ b → w'.boards c = w.boards c
  table : w'.table b = t

/-- A play leaves everybody on their chairs. -/
theorem Plays.seats {b : BoardPtr} {w w' : World} {t : Table}
    (h : Plays b w w' t) (c : BoardPtr) :
    (w'.boards c).seat = (w.boards c).seat :=
  congrFun (congrArg Layout.seats h.layout) c

theorem Plays.distinct {b : BoardPtr} {w w' : World} {t : Table}
    (h : Plays b w w' t) (hdistinct : w.layout.Distinct) :
    w'.layout.Distinct := h.layout ▸ hdistinct

/-- Two plays at one table are one. -/
theorem Plays.trans {b : BoardPtr} {w₁ w₂ w₃ : World} {t₂ t₃ : Table}
    (h₁ : Plays b w₁ w₂ t₂) (h₂ : Plays b w₂ w₃ t₃) : Plays b w₁ w₃ t₃ where
  layout := h₂.layout.trans h₁.layout
  outside := by
    intro v hv
    rw [h₂.outside v (by rwa [h₁.seats b]), h₁.outside v hv]
  others := fun c hc => (h₂.others c hc).trans (h₁.others c hc)
  table := h₂.table

theorem Plays.refl (b : BoardPtr) (w : World) : Plays b w w (w.table b) :=
  ⟨rfl, fun _ _ => rfl, fun _ _ => rfl, rfl⟩

/-- The result of a play may be described in another way. -/
theorem Plays.congr {b : BoardPtr} {w w' : World} {t t' : Table}
    (h : Plays b w w' t) (ht : t = t') : Plays b w w' t' := ht ▸ h

/-! ## Notifications -/

theorem Notified.layout {w w' : World} (h : Notified w w') :
    w'.layout = w.layout := by
  simp only [World.layout, h.users, h.boards, h.fdSessionMap, h.sessionList,
    h.nextUser]

theorem Notified.table {w w' : World} (h : Notified w w') (b : BoardPtr) :
    w'.table b = w.table b := by
  simp only [World.table, h.users, h.boards]

/-- Sending is a play that changes nothing. -/
theorem Notified.plays {w w' : World} (h : Notified w w') (b : BoardPtr) :
    Plays b w w' (w.table b) :=
  ⟨h.layout, fun v _ => congrFun h.users v, fun c _ => congrFun h.boards c,
    h.table b⟩

/-- A notification after a play. -/
theorem Plays.notified {b : BoardPtr} {w₁ w₂ w₃ : World} {t : Table}
    (h₁ : Plays b w₁ w₂ t) (h₂ : Notified w₂ w₃) : Plays b w₁ w₃ t :=
  h₁.trans ((h₂.plays b).congr h₁.table)

/-! ## Looking at the board -/

/-- A seat is found at its location, -/
theorem getUserByLocation_location (board : ChessBoard) (seat : Seat) :
    board.getUserByLocation seat.location = board.seat seat := by
  cases seat <;> rfl

/-- and nobody elsewhere. -/
theorem getUserByLocation_eq_some {board : ChessBoard} {locate : Location}
    {u : SessionId} (h : board.getUserByLocation locate = some u) :
    ∃ seat : Seat, locate = seat.location ∧ board.seat seat = some u := by
  cases hseat : seatAt locate with
  | none =>
      unfold ChessBoard.getUserByLocation at h
      rw [hseat] at h
      cases h
  | some seat =>
      obtain rfl := seatAt_eq_some_iff.mp hseat
      exact ⟨seat, rfl, by rwa [getUserByLocation_location] at h⟩

/-- The status read off a chair is the one on the table. -/
theorem seatStatus_eq {w : World} {b : BoardPtr} (seat : Seat)
    {test : UserGameStatus → Bool} {r : Bool}
    (h : w.seatStatus ((w.boards b).seat seat) test = some r) :
    r = (w.table b).passes test seat := by
  unfold World.seatStatus at h
  unfold Table.passes Table.status World.table
  cases hu : (w.boards b).seat seat with
  | none =>
      rw [hu] at h
      cases h
      simp [hu]
  | some u =>
      rw [hu] at h
      simp only [Option.map_eq_some_iff] at h
      obtain ⟨s, hs, rfl⟩ := h
      simp [hu, hs]

/-- The users counted are those on the table. -/
theorem countSeats_eq {w : World} {b : BoardPtr}
    {test : UserGameStatus → Bool} {n : Nat}
    (h : w.countSeats b test = some n) : n = (w.table b).count test := by
  simp only [World.countSeats, Option.bind_eq_bind,
    Option.bind_eq_some_iff] at h
  obtain ⟨left, hleft, right, hright, bottom, hbottom, h⟩ := h
  cases h
  rw [Table.count, ← seatStatus_eq .left hleft,
    ← seatStatus_eq .right hright,
    ← seatStatus_eq .bottom hbottom]

theorem getActiveUsersNum_eq {w : World} {b : BoardPtr} {n : Nat}
    (h : getActiveUsersNum b w = some n) : n = (w.table b).active :=
  countSeats_eq h

/-- The only active user is PLAYING at some seat. -/
theorem getOnlyActiveUser_eq_some {w : World} {b : BoardPtr} {u : SessionId}
    (h : getOnlyActiveUser b w = some (some u)) :
    ∃ seat, (w.boards b).seat seat = some u ∧
      (w.table b).isPlaying seat = true := by
  simp only [getOnlyActiveUser, Option.bind_eq_bind,
    Option.bind_eq_some_iff] at h
  obtain ⟨left, hleft, right, hright, bottom, hbottom, h⟩ := h
  have hl := seatStatus_eq .left hleft
  have hr := seatStatus_eq .right hright
  have hb := seatStatus_eq .bottom hbottom
  cases bottom with
  | true =>
      have := (Option.some.inj h)
      split at this
      · exact ⟨.bottom, this, hb.symm⟩
      · cases this
  | false =>
      cases right with
      | true =>
          have := (Option.some.inj h)
          split at this
          · exact ⟨.right, this, hr.symm⟩
          · cases this
      | false =>
          cases left with
          | true => exact ⟨.left, by simpa [ChessBoard.seat] using h, hl.symm⟩
          | false => simp at h

/-! ## Changing a seated user -/

/-- The table after a seated session was overwritten in place. -/
theorem setUser_plays {w : World} {b : BoardPtr} {seat : Seat}
    {u : SessionId} {s s' : UserSession} {f : Player → Player}
    (hdistinct : w.layout.Distinct) (hseat : (w.boards b).seat seat = some u)
    (hs : w.users u = some s) (hplace : s'.place = s.place)
    (hf : f ⟨u, s.status, s.userInfo.score⟩ =
      ⟨u, s'.status, s'.userInfo.score⟩) :
    Plays b w (w.setUser u s') ((w.table b).modify seat f) where
  layout := by
    have hupdate : (fun v => ((w.setUser u s').users v).map UserSession.place) =
        fun v => (w.users v).map UserSession.place := by
      funext v
      by_cases hv : v = u
      · subst hv
        simp [World.setUser, hs, hplace]
      · simp [World.setUser, hv]
    simp only [World.layout, hupdate]
    rfl
  outside := by
    intro v hv
    have hvu : v ≠ u := by
      rintro rfl
      exact hv seat hseat
    simp [World.setUser, hvu]
  others := fun _ _ => rfl
  table := by
    refine Table.ext ?_ rfl rfl rfl rfl rfl
    funext seat'
    by_cases hs' : seat' = seat
    · subst hs'
      simp [World.table, Table.modify, World.setUser, hseat, hs, hf]
    · have hne : (w.boards b).seat seat' ≠ some u := fun h =>
        hs' (hdistinct (b := b) h hseat)
      simp only [World.table, Table.modify, Function.update_of_ne hs']
      cases hv : (w.boards b).seat seat' with
      | none => simp [World.setUser, hv]
      | some v =>
          have hvu : v ≠ u := by
            rintro rfl
            exact hne hv
          simp [World.setUser, hv, hvu]

/-- A change of a session's status or score is a change of its chair. -/
theorem modifyUser_plays {w w' : World} {b : BoardPtr} {seat : Seat}
    {u : SessionId} {g : UserSession → UserSession} {f : Player → Player}
    (hdistinct : w.layout.Distinct) (hseat : (w.boards b).seat seat = some u)
    (h : w.modifyUser u g = some w') (hplace : ∀ s, (g s).place = s.place)
    (hf : ∀ s : UserSession, f ⟨u, s.status, s.userInfo.score⟩ =
      ⟨u, (g s).status, (g s).userInfo.score⟩) :
    Plays b w w' ((w.table b).modify seat f) := by
  simp only [World.modifyUser, Option.map_eq_some_iff] at h
  obtain ⟨s, hs, rfl⟩ := h
  exact setUser_plays hdistinct hseat hs (hplace s) (hf s)

/-- Assigning a status is a play. -/
theorem setStatus_plays {w w' : World} {b : BoardPtr} (seat : Seat)
    {u : SessionId} {status : UserGameStatus}
    (hdistinct : w.layout.Distinct) (hseat : (w.boards b).seat seat = some u)
    (h : (w.modifyUser u fun s => { s with status := status }) = some w') :
    Plays b w w' ((w.table b).modify seat (Table.setStatus status)) :=
  modifyUser_plays hdistinct hseat h (fun _ => rfl) fun _ => rfl

/-- Adding to a score is one. -/
theorem increaseScore_plays {env : Env} {w w' : World} {b : BoardPtr}
    {seat : Seat} {u : SessionId} {score : UInt32}
    (hdistinct : w.layout.Distinct) (hseat : (w.boards b).seat seat = some u)
    (h : increaseScore env u score w = some w') :
    Plays b w w' ((w.table b).modify seat (Table.gain score)) := by
  simp only [increaseScore, Option.bind_eq_bind, Option.bind_eq_some_iff] at h
  obtain ⟨s, hs, _, _, h⟩ := h
  cases h
  have hset : Plays b w (w.setUser u { s with userInfo :=
      { s.userInfo with score := s.userInfo.score + score } })
      ((w.table b).modify seat (Table.gain score)) :=
    setUser_plays hdistinct hseat hs rfl rfl
  exact ⟨hset.layout, hset.outside, hset.others, hset.table⟩

/-- And taking from it. -/
theorem reduceScore_plays {env : Env} {w w' : World} {b : BoardPtr}
    {seat : Seat} {u : SessionId} {score : UInt32}
    (hdistinct : w.layout.Distinct) (hseat : (w.boards b).seat seat = some u)
    (h : reduceScore env u score w = some w') :
    Plays b w w' ((w.table b).modify seat (Table.lose score)) := by
  simp only [reduceScore, Option.bind_eq_bind, Option.bind_eq_some_iff] at h
  obtain ⟨s, hs, _, _, h⟩ := h
  cases h
  have hset : Plays b w (w.setUser u { s with userInfo :=
      { s.userInfo with score := s.userInfo.score - score } })
      ((w.table b).modify seat (Table.lose score)) :=
    setUser_plays hdistinct hseat hs rfl rfl
  exact ⟨hset.layout, hset.outside, hset.others, hset.table⟩

/-! ## Changing everybody or the board -/

theorem Table.modify_of_none {t : Table} {seat : Seat}
    (h : t.players seat = none) (f : Player → Player) :
    t.modify seat f = t := by
  refine Table.ext ?_ rfl rfl rfl rfl rfl
  simp only [Table.modify, h, Option.map_none]
  exact Function.update_eq_self_iff.mpr h.symm

theorem setSeatStatus_plays {w w' : World} {b : BoardPtr} (seat : Seat)
    {status : UserGameStatus} (hdistinct : w.layout.Distinct)
    (h : w.setSeatStatus ((w.boards b).seat seat) status = some w') :
    Plays b w w' ((w.table b).modify seat (Table.setStatus status)) := by
  cases hu : (w.boards b).seat seat with
  | none =>
      rw [hu] at h
      cases h
      refine (Plays.refl b w).congr (Table.modify_of_none ?_ _).symm
      simp [World.table, hu]
  | some u =>
      rw [hu] at h
      exact setStatus_plays _ hdistinct hu h

/-- Changing the three chairs one after the other changes everybody. -/
theorem Table.modify_each (t : Table) (f : Player → Player) {a b c : Seat}
    (hall : ∀ seat, seat = a ∨ seat = b ∨ seat = c) (hab : a ≠ b)
    (hac : a ≠ c) (hbc : b ≠ c) :
    ((t.modify a f).modify b f).modify c f = t.modifyAll f := by
  refine Table.ext ?_ rfl rfl rfl rfl rfl
  funext seat
  rcases hall seat with rfl | rfl | rfl
  · simp [Table.modify, Table.modifyAll, hab, hac]
  · simp [Table.modify, Table.modifyAll, hab.symm, hbc]
  · simp [Table.modify, Table.modifyAll, hac.symm, hbc.symm]

theorem Seat.cases_all (seat : Seat) :
    seat = .left ∨ seat = .right ∨ seat = .bottom := by
  cases seat <;> simp

/-- Ending the game for all. -/
theorem endAllUsers_plays {w w' : World} {b : BoardPtr}
    (hdistinct : w.layout.Distinct) (h : endAllUsers b w = some w') :
    Plays b w w' (w.table b).endAll := by
  simp only [endAllUsers, Option.bind_eq_bind, Option.bind_eq_some_iff] at h
  obtain ⟨w₁, h₁, w₂, h₂, h₃⟩ := h
  have p₁ := setSeatStatus_plays .left hdistinct h₁
  have p₂ := setSeatStatus_plays .right (p₁.distinct hdistinct) h₂
  have p₃ := setSeatStatus_plays .bottom
    ((p₁.trans p₂).distinct hdistinct) h₃
  refine ((p₁.trans p₂).trans p₃).congr ?_
  rw [p₂.table, p₁.table]
  exact Table.modify_each _ _ Seat.cases_all (by decide) (by decide) (by decide)

/-- Assignments to a board that leave its chairs alone. -/
theorem modifyBoard_plays {w : World} {b : BoardPtr}
    {f : ChessBoard → ChessBoard} {t : Table}
    (hseat : (f (w.boards b)).seat = (w.boards b).seat)
    (hnum : (f (w.boards b)).currUserNum = (w.boards b).currUserNum)
    (ht : (w.modifyBoard b f).table b = t) :
    Plays b w (w.modifyBoard b f) t where
  layout := by
    have hboard : ∀ c, ((w.modifyBoard b f).boards c).seat =
        (w.boards c).seat ∧ ((w.modifyBoard b f).boards c).currUserNum =
        (w.boards c).currUserNum := by
      intro c
      by_cases hc : c = b
      · subst hc
        simp [World.modifyBoard, hseat, hnum]
      · simp [World.modifyBoard, hc]
    simp only [World.layout, (hboard _).1, (hboard _).2]
    rfl
  outside := fun _ _ => rfl
  others := fun c hc => by simp [World.modifyBoard, hc]
  table := ht

@[simp] theorem setRecent_seat (board : ChessBoard)
    (winner loser : Location) :
    (board.setRecent winner loser).seat = board.seat := by
  funext seat
  cases seat <;> rfl

@[simp] theorem setTime_seat (board : ChessBoard) (total single : UInt32) :
    (board.setTime total single).seat = board.seat := by
  funext seat
  cases seat <;> rfl

/-- Remembering a capture. -/
theorem setRecent_plays (w : World) (b : BoardPtr)
    (winner loser : Location) :
    Plays b w (w.modifyBoard b (·.setRecent winner loser))
      ((w.table b).setRecent winner loser) := by
  refine modifyBoard_plays (setRecent_seat _ _ _) rfl ?_
  refine Table.ext ?_ ?_ ?_ ?_ ?_ ?_
  · funext seat
    simp [World.table, World.modifyBoard, Table.setRecent]
  all_goals
    simp [World.table, World.modifyBoard, Table.setRecent, ChessBoard.setRecent]

/-- Choosing the clocks. -/
theorem setTime_plays (w : World) (b : BoardPtr) (total single : UInt32) :
    Plays b w (w.modifyBoard b (·.setTime total single))
      ((w.table b).setTime total single) := by
  refine modifyBoard_plays (setTime_seat _ _ _) rfl ?_
  refine Table.ext ?_ ?_ ?_ ?_ ?_ ?_
  · funext seat
    simp [World.table, World.modifyBoard, Table.setTime]
  all_goals
    simp [World.table, World.modifyBoard, Table.setTime, ChessBoard.setTime]

end ChessServer
