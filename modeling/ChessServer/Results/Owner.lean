import ChessServer.Lib.Tenure
import ChessServer.Results.LonePlayer

/-!
# The owner of a board

`first_come_user_locate` is set by whoever joins an empty board and cleared
by whoever leaves that chair.  Over a run it names nobody but the user who
sat down first after the board was last empty, and who is still there
(`owner_is_first_comer`).
-/

namespace ChessServer

/-! ## One act -/

/-- What one act does to the chairs of a table and to the owner's mark. -/
inductive Table.Moved (t t' : Table) : Prop where
  | stay (hsitter : t'.sitter = t.sitter)
      (howner : t'.firstComeUserLocate = t.firstComeUserLocate)
  | join (seat : Seat) (user : SessionId) (hfree : t.sitter seat = none)
      (hsitter : t'.sitter = Function.update t.sitter seat (some user))
      (howner : t'.firstComeUserLocate =
        if occupied t'.sitter = 1 then seat.location
        else t.firstComeUserLocate)
  | leave (seat : Seat)
      (hsitter : t'.sitter = Function.update t.sitter seat none)
      (howner : t'.firstComeUserLocate =
        if seat.location = t.firstComeUserLocate then locationMax
        else t.firstComeUserLocate)

namespace Table

@[simp] theorem owner_modifyAt (t : Table) (locate : Location)
    (f : Player → Player) :
    (t.modifyAt locate f).firstComeUserLocate = t.firstComeUserLocate := by
  unfold modifyAt
  cases seatAt locate <;> rfl

@[simp] theorem owner_crown (t : Table) :
    t.crown.firstComeUserLocate = t.firstComeUserLocate := by
  unfold crown
  split <;> rfl

theorem owner_leave (t : Table) (seat : Seat) :
    (t.leave seat).firstComeUserLocate =
      if seat.location = t.firstComeUserLocate then locationMax
      else t.firstComeUserLocate := by
  have hleft : (t.vacate seat).crown.firstComeUserLocate =
      (t.vacate seat).firstComeUserLocate := owner_crown _
  unfold leave
  cases t.isPlaying seat <;> exact hleft

@[simp] theorem owner_surrender (t : Table) (seat : Seat) :
    (t.surrender seat).firstComeUserLocate = t.firstComeUserLocate := by
  unfold surrender
  cases t.isPlaying seat with
  | true => exact owner_crown _
  | false => exact owner_crown _

@[simp] theorem owner_move (t : Table) (m : MoveChess) :
    (t.move m).firstComeUserLocate = t.firstComeUserLocate := by
  have hcapture : (t.capture m).firstComeUserLocate =
      t.firstComeUserLocate := by
    unfold capture
    cases m.isWinner with
    | true =>
        rw [if_pos rfl, owner_modifyAt, owner_modifyAt]
        rfl
    | false => rfl
  unfold move
  dsimp only
  split
  · exact hcapture
  · rw [owner_modifyAt]
    exact hcapture

@[simp] theorem owner_undo (t : Table) :
    t.undo.firstComeUserLocate = t.firstComeUserLocate := by
  unfold undo
  split
  · rw [owner_modifyAt, owner_modifyAt]
  · rfl

@[simp] theorem owner_ready (t : Table) (m : GameReadyReq) :
    (t.ready m).firstComeUserLocate = t.firstComeUserLocate := by
  have htime : ∀ t : Table, (t.chooseTime m).firstComeUserLocate =
      t.firstComeUserLocate := by
    intro t
    unfold chooseTime
    split
    · split <;> rfl
    · rfl
  unfold ready
  dsimp only
  split
  · exact (htime _).trans (owner_modifyAt t _ _)
  · exact (htime _).trans (owner_modifyAt t _ _)

@[simp] theorem owner_again (t : Table) (seat : Seat) (began : Bool) :
    (t.again seat began).firstComeUserLocate = t.firstComeUserLocate := by
  unfold again
  split <;> rfl

theorem players_join (t : Table) (seat : Seat) (user : SessionId)
    (score : UInt32) :
    (t.join seat user score).players =
      Function.update t.players seat (some ⟨user, .ready, score⟩) := by
  unfold join
  dsimp only
  split <;> rfl

theorem sitter_join (t : Table) (seat : Seat) (user : SessionId)
    (score : UInt32) :
    (t.join seat user score).sitter =
      Function.update t.sitter seat (some user) := by
  show Option.map (·.user) ∘ (t.join seat user score).players = _
  rw [players_join, Function.comp_update]
  rfl

theorem occupied_sitter (t : Table) :
    occupied t.sitter = occupied t.players := by
  unfold occupied sitter
  simp only [Option.isSome_map]

theorem owner_join (t : Table) (seat : Seat) (user : SessionId)
    (score : UInt32) :
    (t.join seat user score).firstComeUserLocate =
      if occupied (t.join seat user score).sitter = 1 then seat.location
      else t.firstComeUserLocate := by
  rw [occupied_sitter, players_join]
  unfold join
  dsimp only
  split <;> rfl

end Table

/-- Joining and leaving move the chairs; every other act leaves them. -/
theorem Act.moved (t : Table) (a : Act)
    (hfree : ∀ seat user score, a = .join seat user score →
      t.players seat = none) : t.Moved (a.apply t) := by
  have hleave : ∀ t : Table, ∀ seat, t.Moved (t.leave seat) := by
    intro t seat
    refine .leave seat (funext fun seat' => ?_) (Table.owner_leave t seat)
    rw [Table.sitter_leave]
    by_cases h : seat' = seat
    · subst h
      rw [if_pos rfl, Function.update_self]
    · rw [if_neg h, Function.update_of_ne h]
  cases a with
  | join seat user score =>
      have hnone := hfree seat user score rfl
      exact .join seat user (by rw [Table.sitter, hnone]; rfl)
        (Table.sitter_join t seat user score) (Table.owner_join t seat user score)
  | leave seat => exact hleave t seat
  | reject seat =>
      have hsitter : (t.modify seat (Table.setStatus .notStart)).sitter =
          t.sitter :=
        funext fun _ => Table.sitter_modify (Table.keepsUser_setStatus _) t _ _
      cases hleave (t.modify seat (Table.setStatus .notStart)) seat with
      | stay hs ho => exact .stay (hs.trans hsitter) ho
      | join seat' user hnone hs ho =>
          rw [hsitter] at hnone hs
          exact .join seat' user hnone hs ho
      | leave seat' hs ho =>
          rw [hsitter] at hs
          exact .leave seat' hs ho
  | surrender seat =>
      exact .stay (funext fun _ => Table.sitter_surrender t seat _)
        (Table.owner_surrender t seat)
  | move m =>
      exact .stay (funext fun _ => Table.sitter_move t m _)
        (Table.owner_move t m)
  | draw => exact .stay (funext fun _ => Table.sitter_endAll t _) rfl
  | undo =>
      exact .stay (funext fun _ => Table.sitter_undo t _) (Table.owner_undo t)
  | ready m =>
      exact .stay (funext fun _ => Table.sitter_ready t m _)
        (Table.owner_ready t m)
  | again seat began =>
      exact .stay (funext fun _ => Table.sitter_again t seat _ began)
        (Table.owner_again t seat began)

/-! ## One step -/

/-- The table's users are the ones on the board's chairs. -/
theorem table_sitter_eq {w : World} (hinv : w.layout.Inv) (b : BoardPtr) :
    (w.table b).sitter = (w.boards b).seat := by
  funext seat
  cases hseat : (w.boards b).seat seat with
  | none => simp [Table.sitter, World.table, hseat]
  | some u =>
      obtain ⟨p, hp, _⟩ := hinv.seating.seated (b := b) hseat
      obtain ⟨s, hs, _⟩ := place_session hp
      simp [Table.sitter, World.table, hseat, hs]

/-- An event moves the chairs of a board by at most one act. -/
theorem step_moved {env : Env} {e : Event} {w w' : World}
    (hinv : w.layout.Inv) (henabled : e.Enabled w)
    (h : World.step env e w = some w') (b : BoardPtr) :
    (w.table b).Moved (w'.table b) := by
  have st := step_spec hinv henabled h
  rw [st.table b]
  cases hact : w.act env e with
  | none => exact .stay rfl rfl
  | some act =>
      obtain ⟨c, a⟩ := act
      unfold World.tableAfter
      by_cases hb : b = c
      · subst hb
        simp only [if_true]
        refine Act.moved (w.table b) a fun seat user score ha => ?_
        rw [ha] at hact
        exact act_join_free hact
      · simp only [hb, if_false]
        exact .stay rfl rfl

/-- A chair taken at a table with nobody else on it. -/
theorem sole_sitter {seats : Seat → Option SessionId} {seat : Seat}
    {user : SessionId} (hfree : seats seat = none)
    (hone : occupied (Function.update seats seat (some user)) = 1) :
    ∀ seat', seats seat' = none := by
  have hcount := occupied_update seats seat (some user)
  rw [hone, hfree] at hcount
  have hzero : occupied seats = 0 := by simpa using hcount.symm
  unfold occupied at hzero
  intro seat'
  have hnone : (seats seat').isSome.toNat = 0 := by
    cases seat' <;> omega
  cases hseat : seats seat' with
  | none => rfl
  | some v =>
      rw [hseat] at hnone
      cases hnone

/-! ## Every run -/

/-- Who sits where on a board, over a run. -/
def chairs (states : Nat → World) (b : BoardPtr) (i : Nat) :
    Seat → Option SessionId :=
  ((states i).boards b).seat

/-- The owner's mark names the first comer, if anybody. -/
def OwnerIsFirst (states : Nat → World) (b : BoardPtr) (n : Nat) : Prop :=
  ((states n).boards b).firstComeUserLocate = locationMax ∨
    ∃ seat u i,
      ((states n).boards b).firstComeUserLocate = seat.location ∧
      Tenure.FirstComer (chairs states b) seat u i n

theorem owner_step {states : Nat → World} {b : BoardPtr} {n : Nat}
    (hinv : (states n).layout.Inv) (hinv' : (states (n + 1)).layout.Inv)
    (hmoved : ((states n).table b).Moved ((states (n + 1)).table b))
    (h : OwnerIsFirst states b n) : OwnerIsFirst states b (n + 1) := by
  have hchairs : ((states n).table b).sitter = chairs states b n :=
    table_sitter_eq hinv b
  have hchairs' : ((states (n + 1)).table b).sitter =
      chairs states b (n + 1) := table_sitter_eq hinv' b
  have hstay : ∀ {owner : Location},
      ((states n).table b).firstComeUserLocate = owner →
      ((states (n + 1)).table b).firstComeUserLocate = owner →
      (∀ seat : Seat, owner = seat.location →
        chairs states b n seat ≠ none →
        chairs states b (n + 1) seat = chairs states b n seat) →
      OwnerIsFirst states b (n + 1) := by
    intro owner ho ho' hkeep
    rcases h with hmax | ⟨seat, u, i, hseat, hfirst⟩
    · exact Or.inl (ho'.trans (ho.symm.trans hmax))
    · have hloc : owner = seat.location := ho.symm.trans hseat
      refine Or.inr ⟨seat, u, i, ho'.trans hloc,
        hfirst.stay (hkeep seat hloc ?_)⟩
      rw [hfirst.seated]
      exact Option.some_ne_none u
  cases hmoved with
  | stay hsitter howner =>
      refine hstay rfl howner fun seat _ _ => ?_
      rw [← hchairs', ← hchairs, hsitter]
  | join seat user hfree hsitter howner =>
      rw [hchairs', hchairs] at hsitter
      rw [hchairs] at hfree
      by_cases hone : occupied (chairs states b (n + 1)) = 1
      · rw [hchairs', if_pos hone] at howner
        rw [hsitter] at hone
        exact Or.inr ⟨seat, user, n, howner,
          .sit (sole_sitter hfree hone) hsitter⟩
      · rw [hchairs', if_neg hone] at howner
        refine hstay rfl howner fun seat' _ htaken => ?_
        have hne : seat' ≠ seat := fun heq => htaken (heq ▸ hfree)
        rw [hsitter, Function.update_of_ne hne]
  | leave seat hsitter howner =>
      rw [hchairs', hchairs] at hsitter
      by_cases hmark : seat.location =
          ((states n).table b).firstComeUserLocate
      · rw [if_pos hmark] at howner
        exact Or.inl howner
      · rw [if_neg hmark] at howner
        refine hstay rfl howner fun seat' hseat' _ => ?_
        have hne : seat' ≠ seat := fun heq =>
          hmark (heq ▸ hseat'.symm)
        rw [hsitter, Function.update_of_ne hne]

theorem trace_owner {env : Env} {states : Nat → World} {n : Nat}
    (h : (server env).Trace states n) (b : BoardPtr) :
    OwnerIsFirst states b n := by
  induction n with
  | zero =>
      left
      rw [h.start]
      rfl
  | succ n ih =>
      have htake := h.take (Nat.le_succ n)
      obtain ⟨e, henabled, hstep⟩ := h.next n (Nat.lt_succ_self n)
      have hinv := reachable_inv htake.reachable
      exact owner_step hinv (reachable_inv h.reachable)
        (step_moved hinv henabled hstep b) (ih htake)

/-- Over every run, `first_come_user_locate` of a board is `LOCATION_MAX` or
names a chair whose user sat down after the board was last empty, as the
only one, has stayed since, and so was there before everybody else on the
board.  If the chair that the mark named at some earlier time was given up
since, and the mark names it again, the board was empty in between. -/
theorem owner_is_first_comer {env : Env} {states : Nat → World} {n : Nat}
    (h : (server env).Trace states n) (b : BoardPtr) :
    (((states n).boards b).firstComeUserLocate = locationMax ∨
      ∃ seat u i,
        ((states n).boards b).firstComeUserLocate = seat.location ∧
        i < n ∧ (∀ c, ((states i).boards b).seat c = none) ∧
        (∀ c, c ≠ seat → ((states (i + 1)).boards b).seat c = none) ∧
        (∀ j, i + 1 ≤ j → j ≤ n →
          ((states j).boards b).seat seat = some u) ∧
        ∀ c v, c ≠ seat → ((states n).boards b).seat c = some v →
          ∃ j, j ≤ n ∧ ((states j).boards b).seat c ≠ some v ∧
            ∀ k, j ≤ k → k ≤ n →
              ((states k).boards b).seat seat = some u) ∧
    ∀ (i j : Nat) (seat : Seat) (u : SessionId), i ≤ j → j ≤ n →
      ((states i).boards b).firstComeUserLocate = seat.location →
      ((states i).boards b).seat seat = some u →
      ((states j).boards b).seat seat ≠ some u →
      ((states n).boards b).firstComeUserLocate = seat.location →
      ∃ k, i ≤ k ∧ k < n ∧ ∀ c, ((states k).boards b).seat c = none := by
  constructor
  · rcases trace_owner h b with hmax | ⟨seat, u, i, hmark, hfirst⟩
    · exact Or.inl hmax
    · refine Or.inr ⟨seat, u, i, hmark, hfirst.before, hfirst.empty,
        hfirst.alone, hfirst.stayed, fun c v hne _ => ?_⟩
      obtain ⟨j, hj, hseated, hlater⟩ := hfirst.longest (b := v) hne
      exact ⟨j, hj, hlater, hseated⟩
  · intro i j seat u hij hjn _ hi hj hmark
    rcases trace_owner h b with hmax | ⟨seat', v, k, hmark', hfirst⟩
    · rw [hmark] at hmax
      exact absurd hmax (Seat.location_ne_max seat)
    · obtain rfl : seat = seat' :=
        Seat.location_injective (hmark.symm.trans hmark')
      refine ⟨k, ?_, hfirst.before, hfirst.empty⟩
      by_cases hsame : v = u
      · rw [hsame] at hfirst
        exact hij.trans (hfirst.empty_since hjn hj)
      · have hother : chairs states b i seat ≠ some v := by
          intro hv
          exact hsame (Option.some.inj (hv.symm.trans hi))
        exact hfirst.empty_since (hij.trans hjn) hother

/-- The client on the left chair came first. -/
theorem owner_is_first_comer_left :
    ∃ states n, (server Client.env).Trace states n ∧
      ((states n).boards ⟨1, 1⟩).firstComeUserLocate = locationLeft ∧
      ∃ i, i < n ∧ ∀ c, ((states i).boards ⟨1, 1⟩).seat c = none := by
  obtain ⟨w, hreach, hmark⟩ := Client.reachable_after (fun _ _ => True)
    (Client.enter 0 "a" 1 .left ++ Client.enter 1 "b" 1 .right)
    (fun w => (w.boards ⟨1, 1⟩).firstComeUserLocate == locationLeft)
    (by decide +kernel)
  obtain ⟨states, n, htrace, rfl⟩ := hreach.exists_trace
  have hleft : ((states n).boards ⟨1, 1⟩).firstComeUserLocate =
      locationLeft := by simpa using hmark
  refine ⟨states, n, htrace, hleft, ?_⟩
  rcases (owner_is_first_comer htrace ⟨1, 1⟩).1 with
    hmax | ⟨_, _, i, _, hi, hempty, _⟩
  · rw [hleft] at hmax
    cases hmax
  · exact ⟨i, hi, hempty⟩

end ChessServer
