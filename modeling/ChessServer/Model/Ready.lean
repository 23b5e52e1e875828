import ChessServer.Model.Captures

/-!
# Ready requests

A ready request marks the user of the seat it names BEGAN, sets the clocks if
that seat carries the owner's mark, and starts the game when all three are
BEGAN.  It asks neither what the user was doing before nor whether there is a
user, nor whether a game is going on.
-/

namespace ChessServer

theorem Seat.exists_iff {p : Seat → Prop} :
    (∃ seat, p seat) ↔ p .left ∨ p .right ∨ p .bottom := by
  constructor
  · rintro ⟨seat, h⟩
    cases seat with
    | left => exact Or.inl h
    | right => exact Or.inr (Or.inl h)
    | bottom => exact Or.inr (Or.inr h)
  · rintro (h | h | h)
    · exact ⟨_, h⟩
    · exact ⟨_, h⟩
    · exact ⟨_, h⟩

theorem Seat.forall_iff {p : Seat → Prop} :
    (∀ seat, p seat) ↔ p .left ∧ p .right ∧ p .bottom := by
  constructor
  · intro h
    exact ⟨h _, h _, h _⟩
  · rintro ⟨hl, hr, hb⟩ seat
    cases seat with
    | left => exact hl
    | right => exact hr
    | bottom => exact hb

instance (p : Seat → Prop) [DecidablePred p] : Decidable (∃ seat, p seat) :=
  decidable_of_iff _ Seat.exists_iff.symm

instance (p : Seat → Prop) [DecidablePred p] : Decidable (∀ seat, p seat) :=
  decidable_of_iff _ Seat.forall_iff.symm

namespace Table

/-! ## The clocks -/

/-- The time limits of a board. -/
def limits (t : Table) : UInt32 × UInt32 := (t.totalTime, t.singleStepTime)

@[simp] theorem limits_modifyAt (t : Table) (locate : Location)
    (f : Player → Player) : (t.modifyAt locate f).limits = t.limits := by
  unfold modifyAt
  cases seatAt locate <;> rfl

@[simp] theorem limits_crown (t : Table) : t.crown.limits = t.limits := by
  unfold crown
  split <;> rfl

@[simp] theorem limits_leave (t : Table) (seat : Seat) :
    (t.leave seat).limits = t.limits := by
  have hleft : (t.vacate seat).crown.limits = t.limits := limits_crown _
  unfold leave
  cases t.isPlaying seat <;> exact hleft

/-- Only a ready request sets the clocks. -/
theorem limits_apply {t : Table} {a : Act} (h : ∀ m, a ≠ .ready m) :
    (a.apply t).limits = t.limits := by
  have hcapture : ∀ m, (t.capture m).limits = t.limits := by
    intro m
    unfold capture
    split
    · rw [limits_modifyAt, limits_modifyAt]
      rfl
    · rfl
  cases a with
  | join seat user score =>
      show (t.join seat user score).limits = t.limits
      unfold join
      dsimp only
      split <;> rfl
  | leave seat => exact limits_leave t seat
  | reject seat => exact limits_leave (t.modify seat (setStatus .notStart)) seat
  | surrender seat =>
      show (t.surrender seat).limits = t.limits
      unfold surrender
      cases t.isPlaying seat with
      | true => exact limits_crown _
      | false => exact limits_crown _
  | move m =>
      show (t.move m).limits = t.limits
      unfold move
      dsimp only
      split
      · exact hcapture m
      · rw [limits_modifyAt]
        exact hcapture m
  | draw => rfl
  | undo =>
      show t.undo.limits = t.limits
      unfold undo
      split
      · rw [limits_modifyAt, limits_modifyAt]
      · rfl
  | ready m => exact absurd rfl (h m)
  | again seat began =>
      show (t.again seat began).limits = t.limits
      unfold again
      split <;> rfl

/-- The two time fields of a ready request, if it has both. -/
def clocks (m : GameReadyReq) : Option (UInt32 × UInt32) := do
  let total ← m.totalTime
  let single ← m.singleStepTime
  some (total, single)

/-- The time limits after a ready request. -/
theorem limits_ready (t : Table) (m : GameReadyReq) :
    (t.ready m).limits =
      if m.srcUserLocate = t.firstComeUserLocate then
        (clocks m).getD t.limits
      else t.limits := by
  have howner : ∀ (locate : Location) (f : Player → Player),
      (t.modifyAt locate f).firstComeUserLocate = t.firstComeUserLocate := by
    intro locate f
    unfold modifyAt
    cases seatAt locate <;> rfl
  have hready : (t.ready m).limits = ((t.modifyAt m.srcUserLocate
      (setStatus .began)).chooseTime m).limits := by
    unfold ready
    dsimp only
    split <;> rfl
  rw [hready, chooseTime, clocks, howner]
  cases m.totalTime with
  | none => simp
  | some total =>
      cases m.singleStepTime with
      | none => simp
      | some single =>
          dsimp only
          split
          · rfl
          · exact limits_modifyAt _ _ _

/-- A location names a seat that is taken. -/
def Names (t : Table) (locate : Location) : Prop :=
  ∃ seat, locate = Seat.location seat ∧ (t.players seat).isSome = true

instance (t : Table) (locate : Location) : Decidable (t.Names locate) :=
  inferInstanceAs (Decidable (∃ _, _ ∧ _))

/-- Only the owner sets the clocks, both at once, and not during a game. -/
structure OwnersClocks (t : Table) (m : GameReadyReq) (t' : Table) : Prop where
  owner : t'.limits ≠ t.limits → t.Names m.srcUserLocate ∧
    m.srcUserLocate = t.firstComeUserLocate ∧ clocks m = some t'.limits
  running : (∃ seat, t.isPlaying seat = true) → t'.limits = t.limits

/-- A request that changes the clocks of a running game, or of a board whose
owner's mark it repeats although nobody sits where that points. -/
def Meddles (t : Table) (m : GameReadyReq) : Prop :=
  m.srcUserLocate = t.firstComeUserLocate ∧
    (clocks m).getD t.limits ≠ t.limits ∧
    (¬ t.Names m.srcUserLocate ∨ ∃ seat, t.isPlaying seat = true)

instance (t : Table) (m : GameReadyReq) : Decidable (t.Meddles m) :=
  inferInstanceAs (Decidable (_ ∧ _ ∧ (¬ _ ∨ ∃ _, _)))

theorem ownersClocks_ready (t : Table) (m : GameReadyReq) :
    t.OwnersClocks m (t.ready m) ↔ ¬ t.Meddles m := by
  have hlimits := limits_ready t m
  constructor
  · rintro ⟨howner, hrunning⟩ ⟨hmark, hnew, hcase⟩
    rw [if_pos hmark] at hlimits
    rw [← hlimits] at hnew
    rcases hcase with hnobody | hplaying
    · exact hnobody (howner hnew).1
    · exact hnew (hrunning hplaying)
  · intro hfair
    by_cases hchange : (t.ready m).limits = t.limits
    · exact ⟨fun h => absurd hchange h, fun _ => hchange⟩
    · have hmark : m.srcUserLocate = t.firstComeUserLocate := by
        by_contra hother
        rw [if_neg hother] at hlimits
        exact hchange hlimits
      rw [if_pos hmark] at hlimits
      have hnew : (clocks m).getD t.limits ≠ t.limits := hlimits ▸ hchange
      refine ⟨fun _ => ⟨?_, hmark, ?_⟩, fun hplaying => ?_⟩
      · by_contra hnobody
        exact hfair ⟨hmark, hnew, Or.inl hnobody⟩
      · rw [hlimits]
        cases hclocks : clocks m with
        | none =>
            rw [hclocks] at hnew
            exact absurd rfl hnew
        | some limits => rfl
      · exact absurd ⟨hmark, hnew, Or.inr hplaying⟩ hfair

/-! ## The statuses -/

/-- The table once a ready request has marked its user. -/
def marked (t : Table) (m : GameReadyReq) : Table :=
  t.modifyAt m.srcUserLocate (setStatus .began)

theorem status_modifyAt (t : Table) (locate : Location)
    (status : UserGameStatus) (seat : Seat) :
    (t.modifyAt locate (setStatus status)).status seat =
      if locate = seat.location then (t.status seat).map fun _ => status
      else t.status seat := by
  unfold Table.status
  rw [players_modifyAt]
  split <;> cases t.players seat <;> rfl

/-- All three seats are taken by users with a status. -/
theorem count_eq_three {t : Table} {status : UserGameStatus} :
    t.count (· == status) = 3 ↔ ∀ seat, t.status seat = some status := by
  have hpasses : ∀ seat, t.passes (· == status) seat = true ↔
      t.status seat = some status := by
    intro seat
    unfold passes
    cases t.status seat with
    | none => simp
    | some s => simp
  have hone := fun seat => Bool.toNat_le (t.passes (· == status) seat)
  unfold count
  constructor
  · intro hthree seat
    rw [← hpasses]
    have hl := hone .left
    have hr := hone .right
    have hb := hone .bottom
    cases seat <;>
    · rw [← Bool.toNat_eq_one]
      omega
  · intro hall
    rw [(hpasses .left).mpr (hall .left), (hpasses .right).mpr (hall .right),
      (hpasses .bottom).mpr (hall .bottom)]
    rfl

/-- The statuses after a ready request. -/
theorem status_ready (t : Table) (m : GameReadyReq) (seat : Seat) :
    (t.ready m).status seat =
      if (t.marked m).count (· == .began) = 3 then some .playing
      else (t.marked m).status seat := by
  have hplayers : ((t.marked m).chooseTime m).players = (t.marked m).players :=
    players_chooseTime _ m
  have hcount : ((t.marked m).chooseTime m).count (· == .began) =
      (t.marked m).count (· == .began) := by
    refine count_congr fun seat => ?_
    rw [passes_eq, passes_eq, hplayers]
  unfold ready
  dsimp only
  rw [show t.modifyAt m.srcUserLocate (setStatus .began) = t.marked m from rfl,
    hcount]
  split
  · rename_i hthree
    have hbegan := count_eq_three.mp hthree seat
    unfold Table.status at hbegan ⊢
    simp only [modifyAll, hplayers]
    cases hp : (t.marked m).players seat with
    | none =>
        rw [hp] at hbegan
        cases hbegan
    | some p => rfl
  · unfold Table.status
    rw [hplayers]

/-- BEGAN comes after READY, a game that goes on or is over is left alone,
and a game starts for all three at once. -/
structure Lifecycle (t : Table) (m : GameReadyReq) (t' : Table) : Prop where
  began : ∀ seat, t'.status seat = some .began →
    t.status seat = some .ready ∨ t.status seat = some .began
  kept : ∀ seat status, status = .playing ∨ status = .ended →
    t.status seat = some status → t'.status seat = some status
  starts : ∀ seat, t'.status seat = some .playing →
    t.status seat ≠ some .playing →
    ∀ chair, (t.marked m).status chair = some .began

/-- The seat that a request names has nobody to mark, or somebody who may
begin, or somebody whose game is not over and whom both others wait for. -/
def Eligible (t : Table) (m : GameReadyReq) : Prop :=
  ∀ seat status, m.srcUserLocate = Seat.location seat →
    t.status seat = some status → status = .ready ∨ status = .began ∨
      (status ≠ .ended ∧ ∀ chair, chair ≠ seat →
        t.status chair = some .began)

instance (t : Table) (m : GameReadyReq) : Decidable (t.Eligible m) :=
  decidable_of_iff (∀ seat, m.srcUserLocate = Seat.location seat →
      (t.status seat).all (fun status => decide (status = .ready ∨
        status = .began ∨ (status ≠ .ended ∧ ∀ chair, chair ≠ seat →
          t.status chair = some .began))) = true) <| by
    simp only [Eligible, Option.all_eq_true, decide_eq_true_eq]
    exact ⟨fun h seat status hsrc hstatus => h seat hsrc status hstatus,
      fun h seat hsrc status hstatus => h seat status hsrc hstatus⟩

theorem lifecycle_ready (t : Table) (m : GameReadyReq) :
    t.Lifecycle m (t.ready m) ↔ t.Eligible m := by
  have hmarked : ∀ seat, (t.marked m).status seat =
      if m.srcUserLocate = seat.location then
        (t.status seat).map fun _ => .began
      else t.status seat := status_modifyAt t _ _
  constructor
  · rintro ⟨hbegan, hkept, _⟩ seat status hsrc hstatus
    have hself : (t.marked m).status seat = some .began := by
      rw [hmarked, if_pos hsrc, hstatus]
      rfl
    have hafter := status_ready t m seat
    by_cases hthree : (t.marked m).count (· == .began) = 3
    · -- the request starts a game, which its user may already be in
      rw [if_pos hthree] at hafter
      refine Or.inr (Or.inr ⟨?_, fun chair hne => ?_⟩)
      · rintro rfl
        have hended := hkept seat .ended (Or.inr rfl) hstatus
        rw [hafter] at hended
        cases hended
      · have hchair := count_eq_three.mp hthree chair
        rwa [hmarked, hsrc, if_neg fun h =>
          hne (Seat.location_injective h).symm] at hchair
    · rw [if_neg hthree, hself] at hafter
      rcases hbegan seat hafter with h | h
      · rw [hstatus] at h
        exact Or.inl (Option.some.inj h)
      · rw [hstatus] at h
        exact Or.inr (Or.inl (Option.some.inj h))
  · intro hfair
    have hafter := status_ready t m
    by_cases hthree : (t.marked m).count (· == .began) = 3
    · have hall := count_eq_three.mp hthree
      simp only [if_pos hthree] at hafter
      refine ⟨fun seat h => ?_, fun seat status hover hstatus => ?_,
        fun _ _ _ => hall⟩
      · rw [hafter] at h
        cases h
      · rcases hover with rfl | rfl
        · exact hafter seat
        · -- nobody whose game is over was BEGAN, or could be marked so
          have hchair := hall seat
          rw [hmarked] at hchair
          split at hchair
          · rename_i hsrc
            rcases hfair seat .ended hsrc hstatus with h | h | h
            · cases h
            · cases h
            · exact absurd rfl h.1
          · rw [hstatus] at hchair
            cases hchair
    · simp only [if_neg hthree, hmarked] at hafter
      -- no game starts, so only the named seat is marked
      have hwait : ∀ seat status, m.srcUserLocate = Seat.location seat →
          t.status seat = some status →
          status = .ready ∨ status = .began := by
        intro seat status hsrc hstatus
        rcases hfair seat status hsrc hstatus with h | h | ⟨_, hothers⟩
        · exact Or.inl h
        · exact Or.inr h
        · refine absurd (count_eq_three.mpr fun chair => ?_) hthree
          rw [hmarked]
          by_cases hchair : chair = seat
          · rw [if_pos (hchair ▸ hsrc), hchair, hstatus]
            rfl
          · rw [if_neg fun h => hchair
              (Seat.location_injective (hsrc.symm.trans h)).symm]
            exact hothers chair hchair
      refine ⟨fun seat h => ?_, fun seat status hover hstatus => ?_,
        fun seat h hnot => ?_⟩
      · rw [hafter] at h
        split at h
        · rename_i hsrc
          cases hstatus : t.status seat with
          | none =>
              rw [hstatus] at h
              cases h
          | some status =>
              rcases hwait seat status hsrc hstatus with rfl | rfl
              · exact Or.inl rfl
              · exact Or.inr rfl
        · exact Or.inr h
      · rw [hafter]
        split
        · rename_i hsrc
          rcases hwait seat status hsrc hstatus with rfl | rfl <;>
            rcases hover with h | h <;> cases h
        · exact hstatus
      · rw [hafter] at h
        split at h
        · cases hstatus : t.status seat <;> rw [hstatus] at h <;> cases h
        · exact absurd h hnot

/-! ## Other acts -/

/-- Everybody keeps the status, leaves, or gets READY or ENDED. -/
def Settles (t t' : Table) : Prop :=
  ∀ seat, t'.status seat = t.status seat ∨ t'.status seat = none ∨
    t'.status seat = some .ready ∨ t'.status seat = some .ended

theorem Settles.of_players {t t' : Table} (h : t'.players = t.players) :
    t.Settles t' := by
  intro seat
  unfold Table.status
  rw [h]
  exact Or.inl rfl

theorem Settles.trans {t₁ t₂ t₃ : Table} (h₁ : t₁.Settles t₂)
    (h₂ : t₂.Settles t₃) : t₁.Settles t₃ := by
  intro seat
  rcases h₂ seat with h | h
  · rw [h]
    exact h₁ seat
  · exact Or.inr h

theorem settles_modify {f : Player → Player}
    (hf : ∀ p, (f p).status = p.status ∨ (f p).status = .ready ∨
      (f p).status = .ended) (t : Table) (seat : Seat) :
    t.Settles (t.modify seat f) := by
  intro chair
  unfold Table.status
  by_cases hc : chair = seat
  · subst hc
    simp only [modify, Function.update_self]
    cases t.players chair with
    | none => simp
    | some p => simpa using hf p
  · simp [modify, Function.update_of_ne hc]

theorem settles_modifyAt {f : Player → Player}
    (hf : ∀ p, (f p).status = p.status ∨ (f p).status = .ready ∨
      (f p).status = .ended) (t : Table) (locate : Location) :
    t.Settles (t.modifyAt locate f) := by
  unfold modifyAt
  cases seatAt locate with
  | none => exact .of_players rfl
  | some seat => exact settles_modify hf t seat

theorem settles_modifyAll {f : Player → Player}
    (hf : ∀ p, (f p).status = p.status ∨ (f p).status = .ready ∨
      (f p).status = .ended) (t : Table) : t.Settles (t.modifyAll f) := by
  intro chair
  unfold Table.status
  simp only [modifyAll]
  cases t.players chair with
  | none => simp
  | some p => simpa using hf p

theorem settles_crown (t : Table) : t.Settles t.crown := by
  unfold crown
  split
  · refine settles_modifyAll (fun p => ?_) t
    split
    · exact Or.inr (Or.inr rfl)
    · exact Or.inl rfl
  · exact .of_players rfl

theorem settles_endAll (t : Table) : t.Settles t.endAll :=
  settles_modifyAll (fun _ => Or.inr (Or.inr rfl)) t

theorem settles_vacate (t : Table) (seat : Seat) :
    t.Settles (t.vacate seat) := by
  intro chair
  unfold Table.status
  by_cases hc : chair = seat
  · subst hc
    simp [vacate]
  · simp [vacate, Function.update_of_ne hc]

theorem settles_leave (t : Table) (seat : Seat) :
    t.Settles (t.leave seat) := by
  have hleft := (settles_vacate t seat).trans (settles_crown _)
  unfold leave
  cases t.isPlaying seat with
  | true => exact hleft.trans (settles_endAll _)
  | false => exact hleft

/-- Being marked on the way out makes no difference. -/
theorem settles_reject (t : Table) (seat : Seat) :
    t.Settles (t.reject seat) := by
  have hvacate : t.Settles ((t.modify seat (setStatus .notStart)).vacate
      seat) := by
    intro chair
    unfold Table.status
    by_cases hc : chair = seat
    · subst hc
      simp [vacate]
    · simp [vacate, modify, Function.update_of_ne hc]
  have hleft := hvacate.trans (settles_crown _)
  unfold reject leave
  cases (t.modify seat (setStatus .notStart)).isPlaying seat with
  | true => exact hleft.trans (settles_endAll _)
  | false => exact hleft

theorem settles_surrender (t : Table) (seat : Seat) :
    t.Settles (t.surrender seat) := by
  unfold surrender
  split
  · refine ((settles_modify (fun p => ?_) t seat).trans
      (settles_crown _)).trans (settles_endAll _)
    exact Or.inr (Or.inr rfl)
  · exact (settles_modify (fun _ => Or.inr (Or.inr rfl)) t seat).trans
      (settles_crown _)

theorem settles_move (t : Table) (m : MoveChess) : t.Settles (t.move m) := by
  have hcapture : t.Settles (t.capture m) := by
    unfold capture
    split
    · have hsource : t.Settles ((t.setRecent m.srcLocate
          m.targetLocate).modifyAt m.srcLocate (gain 10)) :=
        Settles.trans (.of_players rfl)
          (settles_modifyAt (fun p => Or.inl (gain_status 10 p)) _ _)
      exact hsource.trans
        (settles_modifyAt (fun _ => Or.inr (Or.inr rfl)) _ _)
    · exact .of_players rfl
  unfold move
  dsimp only
  split
  · exact hcapture
  · exact hcapture.trans (settles_modifyAt (fun _ => Or.inr (Or.inr rfl)) _ _)

theorem settles_join (t : Table) (seat : Seat) (user : SessionId)
    (score : UInt32) : t.Settles (t.join seat user score) := by
  have hsat : t.Settles { t with
      players := Function.update t.players seat
        (some ⟨user, .ready, score⟩) } := by
    intro chair
    unfold Table.status
    by_cases hc : chair = seat
    · subst hc
      simp
    · simp [Function.update_of_ne hc]
  unfold join
  dsimp only
  split
  · exact hsat.trans (.of_players rfl)
  · exact hsat

/-- An undo puts at most the loser of the last capture back into the game. -/
theorem status_undo (t : Table) (seat : Seat) :
    t.undo.status seat = t.status seat ∨
      (t.recentLoserLocate = seat.location ∧
        t.undo.status seat = some .playing) := by
  by_cases hrecent : t.recentWinnerLocate ≠ locationMax
  · unfold Table.status
    rw [players_undo hrecent]
    cases t.players seat with
    | none => exact Or.inl rfl
    | some p =>
        by_cases hloser : t.recentLoserLocate = seat.location
        · exact Or.inr ⟨hloser, by simp [restored, hloser]⟩
        · refine Or.inl ?_
          simp only [restored, hloser, if_false, Option.map_some]
          split <;> rfl
  · unfold undo
    rw [if_neg hrecent]
    exact Or.inl rfl

/-- What acts other than ready requests do to a status. -/
theorem status_apply {t : Table} {a : Act} (h : ∀ m, a ≠ .ready m)
    (seat : Seat) :
    (a.apply t).status seat = t.status seat ∨
      (a.apply t).status seat = none ∨
      (a.apply t).status seat = some .ready ∨
      (a.apply t).status seat = some .ended ∨
      (t.recentLoserLocate = seat.location ∧
        (a.apply t).status seat = some .playing) := by
  have hsettles : t.Settles (a.apply t) →
      (a.apply t).status seat = t.status seat ∨
      (a.apply t).status seat = none ∨
      (a.apply t).status seat = some .ready ∨
      (a.apply t).status seat = some .ended ∨
      (t.recentLoserLocate = seat.location ∧
        (a.apply t).status seat = some .playing) := by
    intro hall
    rcases hall seat with h | h | h | h
    · exact Or.inl h
    · exact Or.inr (Or.inl h)
    · exact Or.inr (Or.inr (Or.inl h))
    · exact Or.inr (Or.inr (Or.inr (Or.inl h)))
  cases a with
  | join chair user score => exact hsettles (settles_join t chair user score)
  | leave chair => exact hsettles (settles_leave t chair)
  | reject chair => exact hsettles (settles_reject t chair)
  | surrender chair => exact hsettles (settles_surrender t chair)
  | move m => exact hsettles (settles_move t m)
  | draw => exact hsettles (settles_endAll t)
  | undo =>
      rcases status_undo t seat with h | h
      · exact Or.inl h
      · exact Or.inr (Or.inr (Or.inr (Or.inr h)))
  | ready m => exact absurd rfl (h m)
  | again chair began =>
      refine hsettles ?_
      show t.Settles (t.again chair began)
      unfold again
      split
      · exact settles_modify (fun _ => Or.inr (Or.inl rfl)) t chair
      · exact .of_players rfl

end Table

/-! ## Which requests are in order -/

/-- A ready request that meddles with the clocks. -/
def Act.meddles (t : Table) : Act → Bool
  | .ready m => decide (t.Meddles m)
  | _ => false

/-- The ready request, if it is one, names somebody who may begin. -/
def Act.eligible (t : Table) : Act → Bool
  | .ready m => decide (t.Eligible m)
  | _ => true

end ChessServer
