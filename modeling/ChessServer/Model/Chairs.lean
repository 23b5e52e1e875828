import ChessServer.Model.Table

/-!
# A table chair by chair

What the operations of `Table` do to one chair: who sits on it, and whether
its player passes a test of the status.  The number of players with a status
is a sum over the three chairs.
-/

namespace ChessServer

namespace Table

@[simp] theorem setStatus_status (status : UserGameStatus) (p : Player) :
    (setStatus status p).status = status := rfl

@[simp] theorem gain_status (score : UInt32) (p : Player) :
    (gain score p).status = p.status := rfl

@[simp] theorem lose_status (score : UInt32) (p : Player) :
    (lose score p).status = p.status := rfl

/-! ## Who sits there -/

/-- A change of a player that leaves the user. -/
def KeepsUser (f : Player → Player) : Prop := ∀ p, (f p).user = p.user

@[simp] theorem keepsUser_setStatus (status : UserGameStatus) :
    KeepsUser (setStatus status) := fun _ => rfl

@[simp] theorem keepsUser_gain (score : UInt32) : KeepsUser (gain score) :=
  fun _ => rfl

@[simp] theorem keepsUser_lose (score : UInt32) : KeepsUser (lose score) :=
  fun _ => rfl

@[simp] theorem keepsUser_comp {f : Player → Player} (hf : KeepsUser f)
    (status : UserGameStatus) : KeepsUser fun p => setStatus status (f p) :=
  fun p => hf p

/-- The user on a chair. -/
def sitter (t : Table) (seat : Seat) : Option SessionId :=
  (t.players seat).map (·.user)

@[simp] theorem sitter_modify {f : Player → Player}
    (hf : KeepsUser f) (t : Table) (seat seat' : Seat) :
    (t.modify seat f).sitter seat' = t.sitter seat' := by
  have hf' : ∀ p, (f p).user = p.user := hf
  unfold sitter
  by_cases h : seat' = seat
  · subst h
    simp [modify, Function.comp_def, hf']
  · simp [modify, h]

@[simp] theorem sitter_modifyAt {f : Player → Player}
    (hf : KeepsUser f) (t : Table) (locate : Location)
    (seat : Seat) : (t.modifyAt locate f).sitter seat = t.sitter seat := by
  unfold modifyAt
  split
  · exact sitter_modify hf t _ seat
  · rfl

@[simp] theorem sitter_modifyAll {f : Player → Player}
    (hf : KeepsUser f) (t : Table) (seat : Seat) :
    (t.modifyAll f).sitter seat = t.sitter seat := by
  have hf' : ∀ p, (f p).user = p.user := hf
  simp [sitter, modifyAll, Function.comp_def, hf']

@[simp] theorem sitter_setRecent (t : Table) (winner loser : Location)
    (seat : Seat) : (t.setRecent winner loser).sitter seat = t.sitter seat := rfl

theorem sitter_vacate (t : Table) (seat seat' : Seat) :
    (t.vacate seat).sitter seat' =
      if seat' = seat then none else t.sitter seat' := by
  unfold sitter
  by_cases h : seat' = seat
  · subst h
    simp [vacate]
  · simp [vacate, h]

@[simp] theorem sitter_crown (t : Table) (seat : Seat) :
    t.crown.sitter seat = t.sitter seat := by
  unfold crown
  split
  · refine sitter_modifyAll (fun p => ?_) t seat
    split <;> rfl
  · rfl

@[simp] theorem sitter_endAll (t : Table) (seat : Seat) :
    t.endAll.sitter seat = t.sitter seat := by
  simp [endAll]

theorem sitter_leave (t : Table) (seat seat' : Seat) :
    (t.leave seat).sitter seat' =
      if seat' = seat then none else t.sitter seat' := by
  unfold leave
  split <;> simp [sitter_vacate]

@[simp] theorem sitter_surrender (t : Table) (seat seat' : Seat) :
    (t.surrender seat).sitter seat' = t.sitter seat' := by
  unfold surrender
  split <;> simp

@[simp] theorem sitter_capture (t : Table) (m : MoveChess) (seat : Seat) :
    (t.capture m).sitter seat = t.sitter seat := by
  unfold capture
  split <;> simp

@[simp] theorem sitter_move (t : Table) (m : MoveChess) (seat : Seat) :
    (t.move m).sitter seat = t.sitter seat := by
  unfold move
  dsimp only
  split <;> simp

@[simp] theorem sitter_undo (t : Table) (seat : Seat) :
    t.undo.sitter seat = t.sitter seat := by
  unfold undo
  split <;> simp

@[simp] theorem players_chooseTime (t : Table) (m : GameReadyReq) :
    (t.chooseTime m).players = t.players := by
  unfold chooseTime
  split
  · split <;> rfl
  · rfl

@[simp] theorem sitter_chooseTime (t : Table) (m : GameReadyReq)
    (seat : Seat) : (t.chooseTime m).sitter seat = t.sitter seat := by
  simp [sitter]

@[simp] theorem sitter_ready (t : Table) (m : GameReadyReq) (seat : Seat) :
    (t.ready m).sitter seat = t.sitter seat := by
  unfold ready
  dsimp only
  split <;> simp

@[simp] theorem sitter_again (t : Table) (seat seat' : Seat) (began : Bool) :
    (t.again seat began).sitter seat' = t.sitter seat' := by
  unfold again
  split <;> simp

/-! ## Which tests a chair passes -/

theorem passes_eq (t : Table) (test : UserGameStatus → Bool) (seat : Seat) :
    t.passes test seat = (t.players seat).any fun p => test p.status := by
  unfold passes status
  cases t.players seat <;> rfl

theorem passes_modify (t : Table) (seat seat' : Seat) (f : Player → Player)
    (test : UserGameStatus → Bool) :
    (t.modify seat f).passes test seat' =
      if seat' = seat then (t.players seat).any fun p => test (f p).status
      else t.passes test seat' := by
  rw [passes_eq, passes_eq]
  by_cases h : seat' = seat
  · subst h
    rw [if_pos rfl]
    simp only [modify, Function.update_self]
    cases t.players seat' <;> rfl
  · rw [if_neg h]
    simp only [modify, Function.update_of_ne h]

theorem passes_modifyAll (t : Table) (seat : Seat) (f : Player → Player)
    (test : UserGameStatus → Bool) :
    (t.modifyAll f).passes test seat =
      (t.players seat).any fun p => test (f p).status := by
  rw [passes_eq]
  simp only [modifyAll]
  cases t.players seat <;> rfl

theorem passes_vacate (t : Table) (seat seat' : Seat)
    (test : UserGameStatus → Bool) :
    (t.vacate seat).passes test seat' =
      if seat' = seat then false else t.passes test seat' := by
  rw [passes_eq, passes_eq]
  by_cases h : seat' = seat
  · subst h
    simp [vacate]
  · simp [vacate, h]

/-! ## No more than before -/

theorem count_le {t t' : Table} {test : UserGameStatus → Bool}
    (h : ∀ seat, t'.passes test seat = true → t.passes test seat = true) :
    t'.count test ≤ t.count test := by
  have hseat : ∀ seat, (t'.passes test seat).toNat ≤
      (t.passes test seat).toNat := by
    intro seat
    have := h seat
    cases h' : t'.passes test seat with
    | false => exact Nat.zero_le _
    | true => rw [this h']
  unfold count
  have := hseat .left
  have := hseat .right
  have := hseat .bottom
  omega

theorem count_congr {t t' : Table} {test : UserGameStatus → Bool}
    (h : ∀ seat, t'.passes test seat = t.passes test seat) :
    t'.count test = t.count test := by
  simp only [count, h]

theorem count_le_three (t : Table) (test : UserGameStatus → Bool) :
    t.count test ≤ 3 := by
  unfold count
  have := Bool.toNat_le (t.passes test .left)
  have := Bool.toNat_le (t.passes test .right)
  have := Bool.toNat_le (t.passes test .bottom)
  omega

/-- A change of one player that gives nobody the status. -/
theorem count_modify_le {f : Player → Player} {test : UserGameStatus → Bool}
    (hf : ∀ p, test (f p).status = true → test p.status = true) (t : Table)
    (seat : Seat) : (t.modify seat f).count test ≤ t.count test := by
  refine count_le fun seat' h => ?_
  rw [passes_modify] at h
  split at h
  · rename_i heq
    subst heq
    rw [passes_eq]
    cases hp : t.players seat' with
    | none => simp [hp] at h
    | some p =>
        rw [hp] at h
        exact hf p h
  · exact h

theorem count_modifyAt_le {f : Player → Player}
    {test : UserGameStatus → Bool}
    (hf : ∀ p, test (f p).status = true → test p.status = true) (t : Table)
    (locate : Location) :
    (t.modifyAt locate f).count test ≤ t.count test := by
  unfold modifyAt
  split
  · exact count_modify_le hf t _
  · exact Nat.le_refl _

theorem count_modifyAll_le {f : Player → Player}
    {test : UserGameStatus → Bool}
    (hf : ∀ p, test (f p).status = true → test p.status = true) (t : Table) :
    (t.modifyAll f).count test ≤ t.count test := by
  refine count_le fun seat h => ?_
  rw [passes_modifyAll] at h
  rw [passes_eq]
  cases hp : t.players seat with
  | none => simp [hp] at h
  | some p =>
      rw [hp] at h
      exact hf p h

theorem count_vacate_le (t : Table) (seat : Seat)
    (test : UserGameStatus → Bool) :
    (t.vacate seat).count test ≤ t.count test := by
  refine count_le fun seat' h => ?_
  rw [passes_vacate] at h
  split at h
  · cases h
  · exact h

theorem count_crown_le {test : UserGameStatus → Bool}
    (hended : test .ended = false) (t : Table) :
    t.crown.count test ≤ t.count test := by
  unfold crown
  split
  · refine count_modifyAll_le (fun p h => ?_) t
    split at h
    · simp [hended] at h
    · exact h
  · exact Nat.le_refl _

theorem count_endAll_le {test : UserGameStatus → Bool}
    (hended : test .ended = false) (t : Table) :
    t.endAll.count test ≤ t.count test :=
  count_modifyAll_le (fun _ h => by simp [hended] at h) t

theorem count_leave_le {test : UserGameStatus → Bool}
    (hended : test .ended = false) (t : Table) (seat : Seat) :
    (t.leave seat).count test ≤ t.count test := by
  have hleft := (count_crown_le hended (t.vacate seat)).trans
    (count_vacate_le t seat test)
  unfold leave
  split
  · exact (count_endAll_le hended _).trans hleft
  · exact hleft

theorem count_surrender_le {test : UserGameStatus → Bool}
    (hended : test .ended = false) (t : Table) (seat : Seat) :
    (t.surrender seat).count test ≤ t.count test := by
  unfold surrender
  split
  · refine ((count_endAll_le hended _).trans (count_crown_le hended _)).trans ?_
    exact count_modify_le (fun _ h => by simp [hended] at h) t seat
  · refine (count_crown_le hended _).trans ?_
    exact count_modify_le (fun _ h => by simp [hended] at h) t seat

/-! ## How many players are PLAYING -/

theorem active_eq (t : Table) :
    t.active = (t.isPlaying .left).toNat + (t.isPlaying .right).toNat +
      (t.isPlaying .bottom).toNat := rfl

theorem active_endAll (t : Table) : t.endAll.active = 0 := by
  have hseat : ∀ seat, t.endAll.isPlaying seat = false := by
    intro seat
    rw [isPlaying, endAll, passes_modifyAll]
    cases t.players seat <;> rfl
  simp [active_eq, hseat]

/-- Crowning leaves no lone player. -/
theorem active_crown (t : Table) :
    t.crown.active = if t.active = 1 then 0 else t.active := by
  unfold crown
  by_cases h : t.active = 1
  · rw [if_pos h, if_pos h]
    have hseat : ∀ seat, (t.modifyAll fun p =>
        if p.status = .playing then setStatus .ended (gain 10 p)
        else p).isPlaying seat = false := by
      intro seat
      rw [isPlaying, passes_modifyAll]
      cases t.players seat with
      | none => rfl
      | some p =>
          by_cases hp : p.status = .playing
          · simp [hp]
          · simp [hp]
    simp [active_eq, hseat]
  · rw [if_neg h, if_neg h]

theorem active_crown_ne_one (t : Table) : t.crown.active ≠ 1 := by
  rw [active_crown]
  split
  · decide
  · assumption

/-- A player that stops PLAYING. -/
theorem active_modify {f : Player → Player}
    (hf : ∀ p, (f p).status ≠ .playing) (t : Table) (seat : Seat) :
    (t.modify seat f).active + (t.isPlaying seat).toNat = t.active := by
  have hseat : ∀ seat', (t.modify seat f).isPlaying seat' =
      if seat' = seat then false else t.isPlaying seat' := by
    intro seat'
    rw [isPlaying, passes_modify]
    split
    · cases t.players seat with
      | none => rfl
      | some p => simp [hf p]
    · rfl
  rw [active_eq, active_eq]
  cases seat <;> simp [hseat] <;> omega

/-- A change of one player that keeps the status. -/
theorem active_modify_keep {f : Player → Player}
    (hf : ∀ p, (f p).status = p.status) (t : Table) (seat : Seat) :
    (t.modify seat f).active = t.active := by
  refine count_congr fun seat' => ?_
  rw [passes_modify]
  split
  · rename_i heq
    subst heq
    rw [passes_eq]
    simp only [hf]
  · rfl

/-- A player that starts PLAYING. -/
theorem active_modify_play {f : Player → Player}
    (hf : ∀ p, (f p).status = .playing) (t : Table) (seat : Seat) :
    (t.modify seat f).active + (t.isPlaying seat).toNat =
      t.active + (t.players seat).isSome.toNat := by
  have hseat : ∀ seat', (t.modify seat f).isPlaying seat' =
      if seat' = seat then (t.players seat).isSome
      else t.isPlaying seat' := by
    intro seat'
    rw [isPlaying, passes_modify]
    split
    · cases t.players seat with
      | none => rfl
      | some p => simp [hf p]
    · rfl
  rw [active_eq, active_eq]
  cases seat <;> simp [hseat] <;> omega

/-- Nobody at a table leaves a lone player behind. -/
theorem active_leave_ne_one (t : Table) (seat : Seat) :
    (t.leave seat).active ≠ 1 := by
  unfold leave
  split
  · rw [active_endAll]
    decide
  · exact active_crown_ne_one _

theorem active_surrender_ne_one (t : Table) (seat : Seat) :
    (t.surrender seat).active ≠ 1 := by
  unfold surrender
  split
  · rw [active_endAll]
    decide
  · exact active_crown_ne_one _

end Table

end ChessServer
