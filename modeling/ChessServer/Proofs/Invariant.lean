import ChessServer.Proofs.Scores

/-!
# Messages keep the invariant

What an `Outcome` means for the layout's invariants and for the tables of
all boards, and from it the effect of `UserSession::MessageHandle`, which
also switches the state object (`sessionMessageHandle_cases`).
-/

namespace ChessServer

/-! ## Tables -/

/-- All tables, given what happened at one board. -/
theorem tables_of_one {w w' : World} {b : BoardPtr} {t : Table}
    (htable : w'.table b = t) (hothers : ∀ c, c ≠ b → w'.boards c = w.boards c)
    (hmark : ∀ c, c ≠ b → ∀ seat v, (w.boards c).seat seat = some v →
      w'.mark v = w.mark v) (p : BoardPtr) :
    w'.table p = if p = b then t else w.table p := by
  by_cases hp : p = b
  · subst hp
    rw [if_pos rfl, htable]
  · rw [if_neg hp]
    exact table_eq_of_marks (hothers p hp) (hmark p hp)

/-- What an act does to a table depends on the tables only. -/
theorem tableAfter_congr {w w' : World}
    (htable : ∀ b, w'.table b = w.table b) (act : Option (BoardPtr × Act))
    (p : BoardPtr) : w'.tableAfter act p = w.tableAfter act p := by
  unfold World.tableAfter
  split <;> simp only [htable]

/-- Who sits at another board does not sit at this one. -/
theorem not_on_board {w : World} (hseating : w.layout.Seating)
    {b c : BoardPtr} (hc : c ≠ b) {seat : Seat} {v : SessionId}
    (hv : (w.boards c).seat seat = some v) (seat' : Seat) :
    (w.boards b).seat seat' ≠ some v :=
  fun h => hc (hseating.unique (b := c) (c := b) hv h).1

/-- A play changes one table. -/
theorem Plays.tables {b : BoardPtr} {w w' : World} {t : Table}
    (hseating : w.layout.Seating) (h : Plays b w w' t) (p : BoardPtr) :
    w'.table p = if p = b then t else w.table p :=
  tables_of_one h.table h.others (fun _ hc _ v hv => by
    rw [World.mark, World.mark, h.outside v (not_on_board hseating hc hv)]) p

/-- So does getting up. -/
theorem Stands.tables {v : SessionId} {b : BoardPtr} {seat : Seat}
    {w w' : World} (hseating : w.layout.Seating) (h : Stands v b seat w w')
    (p : BoardPtr) :
    w'.table p = if p = b then (w.table b).leave seat else w.table p :=
  tables_of_one h.table h.others
    (fun _ hc _ x hx => h.mark x (not_on_board hseating hc hx)) p

/-- A session that sits nowhere shows at no table. -/
theorem Own.tables {u : SessionId} {w w' : World} (h : Own u w w')
    (hnot : ∀ b seat, (w.boards b).seat seat ≠ some u) (p : BoardPtr) :
    w'.table p = w.table p := by
  refine table_eq_of_marks (congrFun h.boards p) fun seat v hv => ?_
  refine h.mark v ?_
  rintro rfl
  exact hnot p seat hv

/-- Every message does to the tables what its act says. -/
theorem Outcome.tables {u : SessionId} {w w' : World}
    {act : Option (BoardPtr × Act)} (hseating : w.layout.Seating)
    (hu : ∃ p, w.layout.place u = some p) (h : Outcome u w w' act)
    (p : BoardPtr) : w'.table p = w.tableAfter act p := by
  have hsame : ∀ {b : BoardPtr} {t : Table},
      (if p = b then t else w.table p) =
        if p = b then t else w.table p := rfl
  cases h with
  | own q hstand =>
      obtain ⟨r, hr⟩ := hu
      exact q.tables (hseating.not_seated hr (hstand r hr)) p
  | quiet q => exact q.table p
  | joins hs hstand hfree j =>
      rename_i b seat s
      have hplace : w.layout.place u = some s.place := by
        simp [World.layout, hs]
      have hnot := hseating.not_seated hplace hstand
      have ht := tables_of_one (j.table s hs) j.others
        (fun c _ seat' v hv => j.mark v (by
          rintro rfl
          exact hnot c seat' hv)) p
      rw [ht, World.tableAfter]
      split
      · rename_i hp
        rw [hp]
        rfl
      · rfl
  | plays q =>
      rw [q.tables hseating p, World.tableAfter]
      split
      · rename_i hp
        rw [hp]
      · rfl
  | passes q =>
      rw [q.tables hseating p, World.tableAfter]
      split
      · rename_i hp
        rw [hp]
      · rfl
  | stands hseat q =>
      rw [q.tables hseating p, World.tableAfter]
      split
      · rename_i hp
        rw [hp]
        rfl
      · rfl

/-! ## Places -/

/-- Between messages nothing is pending but the next state object. -/
theorem Place.Settled.pending {p : Place} (h : p.Settled)
    (hstate : p.stateMachine.isSome) : p.Pending := by
  unfold Place.Settled at h
  split at h
  · rename_i hboard
    refine ⟨hstate, by simp [h.2], ?_⟩
    simp [hboard, h.2]
  · rename_i hboard
    rcases h with ⟨hnext, hne⟩ | ⟨_, hnext⟩
    · refine ⟨hstate, hnext ▸ hstate, ?_⟩
      simp [hboard, hnext, hne]
    · refine ⟨hstate, by simp [hnext], ?_⟩
      simp [hboard, hnext]

/-- A standing session that drifts is still on its way to no game. -/
theorem Place.Drifts.pending {p p' : Place} (h : p.Drifts p')
    (hsettled : p.Settled) (hstand : p.currChessBoard = none)
    (hstate : p.stateMachine.isSome) : p'.Pending := by
  have hp := hsettled.pending hstate
  refine ⟨h.stateMachine ▸ hstate, ?_, ?_⟩
  · rcases h.nextState with hnext | hnext | hnext
    · exact hnext ▸ hp.2.1
    · simp [hnext]
    · simp [hnext]
  · rw [h.currChessBoard, hstand]
    rcases h.nextState with hnext | hnext | hnext
    · rw [hnext, ← hp.2.2, hstand]
    · simp [hnext]
    · simp [hnext]

/-- The switch to the pending state object settles a session. -/
theorem Place.Pending.settled {p : Place} (h : p.Pending) :
    ({ p with stateMachine := p.nextState } : Place).Settled := by
  unfold Place.Settled
  split
  · rename_i hboard
    exact ⟨h.2.2.mp hboard, h.2.2.mp hboard⟩
  · rename_i hboard
    exact Or.inl ⟨rfl, fun hnext => hboard (h.2.2.mpr hnext)⟩

/-- What a handled message of `u` leaves to be settled by the switch. -/
structure Kept (u : SessionId) (l : Layout) : Prop where
  registry : l.Registry none
  seating : l.Seating
  settled : l.Settled (some u)
  pending : ∃ p, l.place u = some p ∧ p.Pending

/-- No message changes who is registered. -/
theorem Outcome.registry_eq {u : SessionId} {w w' : World}
    {act : Option (BoardPtr × Act)} {p : Place}
    (hp : w.layout.place u = some p) (h : Outcome u w w' act) :
    w'.layout.registry = w.layout.registry := by
  cases h with
  | own q _ =>
      obtain ⟨p', _, hlayout⟩ := q.layout p hp
      rw [hlayout]
      rfl
  | quiet q => rw [q.layout]
  | joins _ _ _ j =>
      rw [j.layout]
      rfl
  | plays q => rw [q.layout]
  | passes q => rw [q.layout]
  | stands _ q =>
      rw [q.layout]
      rfl

/-- Nor the pool. -/
theorem Outcome.pool_eq {u : SessionId} {w w' : World}
    {act : Option (BoardPtr × Act)} {p : Place}
    (hp : w.layout.place u = some p) (h : Outcome u w w' act) :
    w'.layout.pool = w.layout.pool := by
  cases h with
  | own q _ =>
      obtain ⟨p', _, hlayout⟩ := q.layout p hp
      rw [hlayout]
      rfl
  | quiet q => rw [q.layout]
  | joins _ _ _ j =>
      rw [j.layout]
      rfl
  | plays q => rw [q.layout]
  | passes q => rw [q.layout]
  | stands _ q =>
      rw [q.layout]
      rfl

/-- After a message the invariant holds up to the exchange of the state object.
-/
theorem Outcome.kept {u : SessionId} {fd : Int} {w w' : World}
    {act : Option (BoardPtr × Act)} {p : Place} (hinv : w.layout.Inv)
    (hreg : w.layout.registry fd = some u)
    (hp : w.layout.place u = some p) (hstate : p.stateMachine.isSome)
    (h : Outcome u w w' act) : Kept u w'.layout := by
  have hpool := hinv.registry.not_mem_pool hreg
  have hsettled : p.Settled := hinv.settled u p hp (by simp)
  have hsame : w'.layout = w.layout → Kept u w'.layout := by
    intro hlayout
    rw [hlayout]
    exact ⟨hinv.registry, hinv.seating, hinv.settled.mono, p, hp,
      hsettled.pending hstate⟩
  cases h with
  | quiet q => exact hsame q.layout
  | plays q => exact hsame q.layout
  | passes q => exact hsame q.layout
  | own q hstand =>
      obtain ⟨p', hdrift, hlayout⟩ := q.layout p hp
      rw [hlayout]
      refine ⟨hinv.registry.modify hpool ?_, hinv.seating.modify ?_,
        hinv.settled.mono.modify_busy, p', by simp [hp],
        hdrift.pending hsettled (hstand p hp) hstate⟩
      · intro q hq
        rw [hp] at hq
        cases hq
        exact ⟨hdrift.clifd, hdrift.thread, by rw [hdrift.bufev]⟩
      · intro q hq
        rw [hp] at hq
        cases hq
        refine ⟨hdrift.currChessBoard, fun hboard => ?_⟩
        rw [hstand p hp] at hboard
        cases hboard
  | joins hs hstand hfree j =>
      rename_i b seat s
      simp only [World.layout, hs, Option.map_some, Option.some.injEq] at hp
      subst hp
      have hp : w.layout.place u = some s.place := by simp [World.layout, hs]
      rw [j.layout]
      refine ⟨?_, hinv.seating.sit hp hstand hfree, ?_, ?_⟩
      · exact (hinv.registry.setSeat b seat _ _).modify hpool
          fun _ _ => ⟨rfl, rfl, rfl⟩
      · exact (hinv.settled.mono.setSeat b seat _ _).modify_busy
      · refine ⟨{ s.place with
            locate := seat.location
            currChessBoard := some b
            nextState := some .gamePlay }, ?_, hstate, rfl, by simp⟩
        rw [Layout.sit, Layout.modify_self]
        have : (w.layout.setSeat b seat (some u) (w.layout.num b + 1)).place
            u = some s.place := hp
        rw [this, Option.map_some]
  | stands hseat q =>
      rename_i v b seat
      obtain ⟨r, hr, hboard, _⟩ := hinv.seating.seated hseat
      have hrsettled : r.Settled := hinv.settled v r hr (by simp)
      unfold Place.Settled at hrsettled
      rw [hboard, Option.isSome_some, if_pos rfl] at hrsettled
      have hvpool :=
        hinv.registry.not_mem_pool (hinv.registry.onBoard hr hboard)
      rw [q.layout]
      refine ⟨?_, hinv.seating.leave hseat fun _ => rfl, ?_, ?_⟩
      · exact (hinv.registry.setSeat b seat _ _).modify hvpool
          fun _ _ => ⟨rfl, rfl, rfl⟩
      · -- a user taken off the board by somebody else still has to go back
        intro x y hy hne
        obtain ⟨z, hz, hself, hother⟩ := Layout.modify_place hy
        by_cases hxv : x = v
        · obtain rfl := hself hxv
          subst hxv
          have hz' : w.layout.place x = some z := hz
          rw [hr] at hz'
          cases hz'
          unfold Place.Settled
          simp [hrsettled.1]
        · obtain rfl := hother hxv
          exact hinv.settled x y hz (by simp)
      · by_cases huv : u = v
        · subst huv
          refine ⟨{ p with
              currChessBoard := none
              nextState := some .gameReady }, ?_, hstate, rfl, by simp⟩
          rw [Layout.stand, Layout.modify_self]
          have : (w.layout.vacate b seat).place u = some p := hp
          rw [this, Option.map_some]
        · refine ⟨p, ?_, hsettled.pending hstate⟩
          rw [Layout.stand, Layout.modify_other huv]
          exact hp

/-- Only an exit changes the place of another session. -/
theorem Outcome.place_other {u v : SessionId} {w w' : World}
    {act : Option (BoardPtr × Act)} {p : Place}
    (hp : w.layout.place u = some p) (hv : v ≠ u) (h : Outcome u w w' act) :
    w'.layout.place v = w.layout.place v ∨ ∃ b seat,
      act = some (b, .leave seat) ∧ (w.boards b).seat seat = some v := by
  cases h with
  | own q _ =>
      obtain ⟨p', _, hlayout⟩ := q.layout p hp
      left
      rw [hlayout, Layout.modify_other hv]
  | quiet q => exact Or.inl (by rw [q.layout])
  | joins _ _ _ j =>
      left
      rw [j.layout, Layout.sit, Layout.modify_other hv]
      rfl
  | plays q => exact Or.inl (by rw [q.layout])
  | passes q => exact Or.inl (by rw [q.layout])
  | stands hseat q =>
      rename_i x b seat
      by_cases hvx : v = x
      · exact Or.inr ⟨b, seat, rfl, hvx ▸ hseat⟩
      · left
        rw [q.layout, Layout.stand, Layout.modify_other hvx]
        rfl

/-- No act touches what any session has received. -/
theorem Outcome.input {u : SessionId} {w w' : World}
    {act : Option (BoardPtr × Act)} {p : Place}
    (hp : w.layout.place u = some p) (h : Outcome u w w' act)
    (v : SessionId) : w'.layout.input v = w.layout.input v := by
  cases h with
  | own q _ =>
      obtain ⟨p', hdrift, hlayout⟩ := q.layout p hp
      rw [hlayout]
      refine Layout.modify_input (fun p₀ hp₀ => ?_) v
      rw [hp] at hp₀
      cases hp₀
      exact ⟨hdrift.bufev, hdrift.bufInfo⟩
  | quiet q => rw [q.layout]
  | joins _ _ _ j =>
      rw [j.layout, Layout.sit, Layout.modify_input]
      · rfl
      · exact fun _ _ => ⟨rfl, rfl⟩
  | plays q => rw [q.layout]
  | passes q => rw [q.layout]
  | stands _ q =>
      rw [q.layout, Layout.stand, Layout.modify_input]
      · rfl
      · exact fun _ _ => ⟨rfl, rfl⟩

/-! ## UserSession::MessageHandle -/

/-- The registered session behind a descriptor. -/
theorem registered_session {w : World} {absent : Option SessionId} {fd : Int}
    {u : SessionId} (hregistry : w.layout.Registry absent)
    (hreg : w.layout.registry fd = some u) :
    ∃ s, w.users u = some s ∧ s.clifd = fd ∧ s.place.Online := by
  obtain ⟨p, hp, hclifd, honline⟩ := hregistry.registered hreg
  simp only [World.layout, Option.map_eq_some_iff] at hp
  obtain ⟨s, hs, rfl⟩ := hp
  exact ⟨s, hs, hclifd, honline⟩

/-- What an event changes when it only prepares or finishes the handling of
a message: places of `u` that stay off the board, and no mark. -/
structure Settles (u : SessionId) (w w' : World) : Prop where
  inv : w'.layout.Inv
  registry : w'.layout.registry = w.layout.registry
  pool : w'.layout.pool = w.layout.pool
  boards : w'.boards = w.boards
  mark : ∀ v, w'.mark v = w.mark v
  place : ∀ v, v ≠ u → w'.layout.place v = w.layout.place v
  input : ∀ v, w'.layout.input v = w.layout.input v

/-- Exchanging the state object changes no table. -/
theorem Settles.table {u : SessionId} {w w' : World} (h : Settles u w w')
    (b : BoardPtr) : w'.table b = w.table b :=
  table_eq_of_marks (congrFun h.boards b) fun _ v _ => h.mark v

/-- Assigning the two state pointers of a session. -/
theorem setState_settles {w : World} {u : SessionId} {s : UserSession}
    {now next : Option StateType} (hregistry : w.layout.Registry none)
    (hseating : w.layout.Seating) (hsettled : w.layout.Settled (some u))
    (hs : w.users u = some s) (hpool : u ∉ w.layout.pool)
    (hplace : ({ s.place with stateMachine := now, nextState := next } :
      Place).Settled) :
    Settles u w
      (w.setUser u { s with stateMachine := now, nextState := next }) := by
  have hp : w.layout.place u = some s.place := by simp [World.layout, hs]
  have hlayout : (w.setUser u
      { s with stateMachine := now, nextState := next }).layout =
      w.layout.modify u fun p =>
        { p with stateMachine := now, nextState := next } := by
    rw [layout_setUser hs]
    exact (Layout.modify_const hp fun p =>
      { p with stateMachine := now, nextState := next }).symm
  refine ⟨?_, ?_, ?_, rfl, ?_, ?_, ?_⟩
  · rw [hlayout]
    refine ⟨hregistry.modify hpool fun _ _ => ⟨rfl, rfl, rfl⟩,
      hseating.modify fun _ _ => ⟨rfl, fun _ => rfl⟩,
      hsettled.modify_busy.settle fun p hp' => ?_⟩
    rw [Layout.modify_self, hp, Option.map_some, Option.some.injEq] at hp'
    exact hp' ▸ hplace
  · rw [hlayout]
    rfl
  · rw [hlayout]
    rfl
  · intro v
    by_cases hv : v = u
    · subst hv
      simp [World.mark, hs, UserSession.mark]
    · simp [World.mark, World.setUser, hv]
  · intro v hv
    rw [hlayout, Layout.modify_other hv]
  · intro v
    rw [hlayout, Layout.modify_input]
    exact fun _ _ => ⟨rfl, rfl⟩

/-- A settled session that is in no game stands. -/
theorem standing_of_settled {s : UserSession} (h : s.place.Settled)
    (hstate : s.stateMachine ≠ some .gamePlay) : s.currChessBoard = none := by
  unfold Place.Settled at h
  split at h
  · exact absurd h.1 hstate
  · rename_i hboard
    simpa [UserSession.place] using hboard

/-- A message that is kept does its act and leaves everybody settled. -/
structure Handled (u : SessionId) (w w' : World)
    (act : Option (BoardPtr × Act)) : Prop where
  inv : w'.layout.Inv
  switched : ∀ p, w'.layout.place u = some p → p.nextState = p.stateMachine
  registry : w'.layout.registry = w.layout.registry
  pool : w'.layout.pool = w.layout.pool
  table : ∀ p, w'.table p = w.tableAfter act p
  place : ∀ v, v ≠ u → w'.layout.place v = w.layout.place v ∨
    ∃ b seat, act = some (b, .leave seat) ∧ (w.boards b).seat seat = some v
  input : ∀ v, w'.layout.input v = w.layout.input v
  scores : ScoredBy u w w' act

/-- A message that is turned down changes its own session only; in a game
(`rejected`) it has already cost the status. -/
structure Dismissed (u : SessionId) (w w' : World) (rejected : Bool) :
    Prop where
  registryInv : w'.layout.Registry none
  seating : w'.layout.Seating
  settled : w'.layout.Settled (some u)
  registry : w'.layout.registry = w.layout.registry
  pool : w'.layout.pool = w.layout.pool
  boards : w'.boards = w.boards
  mark : ∀ v, v ≠ u → w'.mark v = w.mark v
  place : ∀ v, v ≠ u → w'.layout.place v = w.layout.place v
  session : ∀ s, w.users u = some s → ∃ s', w'.users u = some s' ∧
    s'.stateMachine.isSome ∧ s'.currChessBoard = s.currChessBoard ∧
    (s.currChessBoard.isSome → s'.locate = s.locate) ∧
    (rejected = false → s.currChessBoard = none) ∧
    (rejected = true → s'.mark = (.notStart, s.userInfo.score)) ∧
    (s.currChessBoard.isSome → s'.stateMachine = s.stateMachine)

/-- A message that was turned down changed its own session only. -/
theorem Own.dismissed {u : SessionId} {fd : Int} {s : UserSession}
    {rejected : Bool} {w w' : World} (hinv : w.layout.Inv)
    (hreg : w.layout.registry fd = some u) (hs : w.users u = some s)
    (hstate : s.stateMachine.isSome)
    (hstand : rejected = false → s.currChessBoard = none)
    (hmark : rejected = true → w'.mark u = some (.notStart, s.userInfo.score))
    (q : Own u w w') : Dismissed u w w' rejected := by
  have hp : w.layout.place u = some s.place := by simp [World.layout, hs]
  obtain ⟨p', hdrift, hlayout⟩ := q.layout s.place hp
  have hpool := hinv.registry.not_mem_pool hreg
  refine ⟨?_, ?_, ?_, ?_, ?_, q.boards, q.mark, ?_, ?_⟩
  · rw [hlayout]
    refine hinv.registry.modify hpool fun p hp' => ?_
    rw [hp] at hp'
    cases hp'
    exact ⟨hdrift.clifd, hdrift.thread, by rw [hdrift.bufev]⟩
  · rw [hlayout]
    refine hinv.seating.modify fun p hp' => ?_
    rw [hp] at hp'
    cases hp'
    exact ⟨hdrift.currChessBoard, hdrift.locate⟩
  · rw [hlayout]
    exact hinv.settled.mono.modify_busy
  · rw [hlayout]
    rfl
  · rw [hlayout]
    rfl
  · intro v hv
    rw [hlayout, Layout.modify_other hv]
  · intro s₀ hs₀
    rw [hs] at hs₀
    cases hs₀
    have hp' : w'.layout.place u = some p' := by
      rw [hlayout, Layout.modify_self, hp, Option.map_some]
    simp only [World.layout, Option.map_eq_some_iff] at hp'
    obtain ⟨s', hs', rfl⟩ := hp'
    refine ⟨s', hs', ?_, hdrift.currChessBoard, hdrift.locate, hstand, ?_,
      fun _ => hdrift.stateMachine⟩
    · have := hdrift.stateMachine
      simp only [UserSession.place] at this
      rw [this]
      exact hstate
    · intro hrej
      have := hmark hrej
      simpa [World.mark, hs'] using this

/-- `if (stateMachine == NULL)`: the first message starts the session's
state machine. -/
theorem start_settles {w : World} {u : SessionId} {fd : Int}
    {s : UserSession} (hinv : w.layout.Inv)
    (hreg : w.layout.registry fd = some u) (hs : w.users u = some s)
    (hnone : s.stateMachine = none) :
    Settles u w (w.setUser u
      { s with stateMachine := some .auth, nextState := some .auth }) := by
  have hp : w.layout.place u = some s.place := by simp [World.layout, hs]
  have hstand := standing_of_settled (hinv.settled u _ hp (by simp))
    (by simp [hnone])
  refine setState_settles hinv.registry hinv.seating hinv.settled.mono hs
    (hinv.registry.not_mem_pool hreg) ?_
  simp [Place.Settled, UserSession.place, hstand]

/-- The end of `UserSession::MessageHandle`. -/
theorem switch_settles {w w' : World} {u : SessionId}
    (hkept : Kept u w.layout) (hpool : u ∉ w.layout.pool)
    (h : (do
      let s ← w.users u
      match s.nextState, s.stateMachine with
      | some next, some state =>
          if next ≠ state then
            some (true, w.setUser u { s with stateMachine := some next })
          else some (true, w)
      | _, _ => some (true, w)) = some (true, w')) :
    Settles u w w' ∧
      ∀ p, w'.layout.place u = some p → p.nextState = p.stateMachine := by
  simp only [Option.bind_eq_bind, Option.bind_eq_some_iff] at h
  obtain ⟨s, hs, h⟩ := h
  obtain ⟨p, hp, hpending⟩ := hkept.pending
  simp only [World.layout, hs, Option.map_some, Option.some.injEq] at hp
  subst hp
  have hsettled := hpending.settled
  -- assigning the pointer again when it is already right changes nothing
  have hset : w' = w.setUser u { s with
      stateMachine := s.nextState
      nextState := s.nextState } := by
    have hself : w.setUser u s = w := by
      simp only [World.setUser, ← hs, Function.update_eq_self]
    obtain ⟨state, hstate⟩ := Option.isSome_iff_exists.mp hpending.1
    obtain ⟨next, hnext⟩ := Option.isSome_iff_exists.mp hpending.2.1
    have hstate' : s.stateMachine = some state := hstate
    have hnext' : s.nextState = some next := hnext
    rw [hstate', hnext'] at h
    dsimp only at h
    split at h
    · cases h
      rw [← hnext']
    · rename_i heq
      cases h
      have : s = { s with
          stateMachine := s.nextState
          nextState := s.nextState } := by
        have heq' : next = state := by simpa using heq
        cases s
        simp_all
      rw [← this, hself]
  rw [hset]
  refine ⟨setState_settles hkept.registry hkept.seating hkept.settled hs hpool
    hsettled, fun p hp => ?_⟩
  simp only [World.layout, setUser_users_self, Option.map_some,
    Option.some.injEq] at hp
  subst hp
  rfl

/-- `UserSession::MessageHandle` once there is a state object: the one that
gets the message, and the world it gets it in. -/
theorem sessionMessageHandle_start {env : Env} {u : SessionId} {fd : Int}
    {s : UserSession} {msgType : UInt32} {msg : Bytes} {ret : Bool}
    {w w' : World} (hinv : w.layout.Inv)
    (hreg : w.layout.registry fd = some u) (hs : w.users u = some s)
    (h : sessionMessageHandle env u msgType msg w = some (ret, w')) :
    ∃ state w₀ s₀, Settles u w w₀ ∧ w₀.users u = some s₀ ∧
      s₀.stateMachine = some state ∧
      (state = .gamePlay ↔ s.stateMachine = some .gamePlay) ∧
      w₀.messageAct env u msgType msg = w.messageAct env u msgType msg ∧
      (s.stateMachine.isSome → w₀ = w) ∧
      (s₀.currChessBoard = s.currChessBoard ∧ s₀.locate = s.locate ∧
        s₀.userInfo = s.userInfo) ∧
      (do
        let (ret, w) ← state.msgHandle env u msgType msg w₀
        if ret then do
          let s ← w.users u
          match s.nextState, s.stateMachine with
          | some next, some state =>
              if next ≠ state then
                some (true, w.setUser u { s with stateMachine := some next })
              else some (true, w)
          | _, _ => some (true, w)
        else some (false, w)) = some (ret, w') := by
  simp only [sessionMessageHandle, hs, Option.bind_eq_bind,
    Option.bind_some] at h
  cases hstate : s.stateMachine with
  | none =>
      rw [hstate] at h
      refine ⟨.auth, _, _, start_settles hinv hreg hs hstate,
        setUser_users_self _ _ _, rfl, by simp, ?_, by simp,
        ⟨rfl, rfl, rfl⟩, h⟩
      simp [World.messageAct, hs, hstate]
  | some state =>
      rw [hstate] at h
      exact ⟨state, w, s, ⟨hinv, rfl, rfl, rfl, fun _ => rfl, fun _ _ => rfl,
        fun _ => rfl⟩,
        hs, hstate, by simp, rfl, fun _ => rfl, ⟨rfl, rfl, rfl⟩, h⟩

/-- Turning a message down counts from the world before there was a state
object. -/
theorem Settles.dismissed {u : SessionId} {s s₀ : UserSession}
    {w w₀ w₁ : World} {rejected : Bool} (hw₀ : Settles u w w₀)
    (hsettled : s.place.Settled) (hs : w.users u = some s)
    (hs₀ : w₀.users u = some s₀)
    (hplaying : s.stateMachine = some .gamePlay →
      s₀.stateMachine = some .gamePlay)
    (hkeep : s₀.currChessBoard = s.currChessBoard ∧ s₀.locate = s.locate ∧
      s₀.userInfo = s.userInfo) (d : Dismissed u w₀ w₁ rejected) :
    Dismissed u w w₁ rejected := by
  refine ⟨d.registryInv, d.seating, d.settled,
    d.registry.trans hw₀.registry, d.pool.trans hw₀.pool,
    d.boards.trans hw₀.boards,
    fun v hv => (d.mark v hv).trans (hw₀.mark v),
    fun v hv => (d.place v hv).trans (hw₀.place v hv), ?_⟩
  intro s' hs'
  rw [hs] at hs'
  cases hs'
  obtain ⟨s₁, hs₁, hstate₁, hboard, hlocate, hstand, hmark, hkept⟩ :=
    d.session s₀ hs₀
  rw [hkeep.1] at hboard hlocate hstand hkept
  rw [hkeep.2.1] at hlocate
  rw [hkeep.2.2] at hmark
  refine ⟨s₁, hs₁, hstate₁, hboard, hlocate, hstand, hmark, fun hseat => ?_⟩
  -- a seated session had its state object before the message
  have hseat' : s.place.currChessBoard.isSome := hseat
  rw [Place.Settled, if_pos hseat'] at hsettled
  have hplay : s.stateMachine = some .gamePlay := hsettled.1
  rw [hkept hseat, hplaying hplay, hplay]

/-- So do the scores. -/
theorem Settles.scored {u : SessionId} {s : UserSession}
    {w w₀ w₁ w' : World} {act : Option (BoardPtr × Act)}
    (hw₀ : Settles u w w₀) (hsw : Settles u w₁ w') (hs : w.users u = some s)
    (hstarted : s.stateMachine.isSome → w₀ = w)
    (hidle : s.stateMachine = none → act = none)
    (hscores : ScoredBy u w₀ w₁ act) : ScoredBy u w w' act := by
  intro v sv sv' hsv hsv' hlogged
  obtain ⟨sv₁, hsv₁, hscore₁⟩ := score_of_mark hsv' (hsw.mark v).symm
  rw [← hscore₁]
  cases hstate : s.stateMachine with
  | some state =>
      obtain rfl := hstarted (by simp [hstate])
      exact hscores v sv sv₁ hsv hsv₁ hlogged
  | none =>
      -- whoever has no state object yet has not logged in
      have hvu : v ≠ u := by
        rintro rfl
        rw [hs] at hsv
        cases hsv
        exact (hlogged rfl).1 hstate
      obtain ⟨sv₀, hsv₀, hscore₀⟩ := score_of_mark hsv (hw₀.mark v)
      have hscore := hscores v sv₀ sv₁ hsv₀ hsv₁ fun h => absurd h hvu
      rw [hidle hstate, hscore₀] at hscore
      rw [hidle hstate]
      exact hscore

/-- What `UserSession::MessageHandle` does to a registered session. -/
theorem sessionMessageHandle_cases {env : Env} {u : SessionId} {fd : Int}
    {s : UserSession} {msgType : UInt32} {msg : Bytes} {ret : Bool}
    {w w' : World} (hinv : w.layout.Inv)
    (hreg : w.layout.registry fd = some u) (hs : w.users u = some s)
    (h : sessionMessageHandle env u msgType msg w = some (ret, w')) :
    (ret = true ∧ Handled u w w' (w.messageAct env u msgType msg)) ∨
    (ret = false ∧ w.messageAct env u msgType msg = none ∧
      Dismissed u w w' false) ∨
    (ret = false ∧ s.stateMachine = some .gamePlay ∧
      rejectsCode msgType = true ∧ Dismissed u w w' true) := by
  obtain ⟨state, w₀, s₀, hw₀, hs₀, hstate₀, hsame, hact, hstarted, hkeep, h⟩ :=
    sessionMessageHandle_start hinv hreg hs h
  have hp₀ : w₀.layout.place u = some s₀.place := by
    simp [World.layout, hs₀]
  have hreg₀ : w₀.layout.registry fd = some u := by rw [hw₀.registry, hreg]
  have hsettled₀ := hw₀.inv.settled u _ hp₀ (by simp)
  have hstand₀ : state ≠ .gamePlay → s₀.currChessBoard = none := fun hne =>
    standing_of_settled hsettled₀ (by simpa [hstate₀] using hne)
  simp only [Option.bind_eq_bind, Option.bind_eq_some_iff] at h
  obtain ⟨⟨ok, w₁⟩, hmsg, h⟩ := h
  have hdismiss : ∀ {rejected}, Dismissed u w₀ w₁ rejected →
      Dismissed u w w₁ rejected := fun d =>
    hw₀.dismissed (hinv.settled u s.place (by simp [World.layout, hs])
      (by simp)) hs hs₀ (fun hplay => hsame.mpr hplay ▸ hstate₀) hkeep d
  rcases msgHandle_outcome hw₀.inv.seating hs₀ hstate₀ hstand₀ hmsg with
    ⟨rfl, hout⟩ | ⟨rfl, hne, hnone, q⟩ | ⟨rfl, rfl, hrej, r⟩
  · have hkept := hout.kept hw₀.inv hreg₀ hp₀ (by simp [UserSession.place, hstate₀])
    have hreg₁ : w₁.layout.registry fd = some u := by
      rw [hout.registry_eq hp₀, hreg₀]
    rw [if_pos rfl] at h
    have hret : ret = true := by
      simp only [Option.bind_eq_some_iff] at h
      obtain ⟨s₁, _, h⟩ := h
      split at h
      · split at h <;> cases h <;> rfl
      · cases h
        rfl
    subst hret
    obtain ⟨hsw, hswitched⟩ := switch_settles hkept
      (hkept.registry.not_mem_pool hreg₁) h
    refine Or.inl ⟨rfl, hsw.inv, hswitched, ?_, ?_, ?_, ?_, fun v => ?_,
      ?_⟩
    · rw [hsw.registry, hout.registry_eq hp₀, hw₀.registry]
    · rw [hsw.pool, hout.pool_eq hp₀, hw₀.pool]
    · intro p
      rw [hsw.table, hout.tables hw₀.inv.seating ⟨_, hp₀⟩, hact]
      exact tableAfter_congr hw₀.table _ p
    · intro v hv
      rw [hsw.place v hv, ← hw₀.place v hv, ← hw₀.boards, ← hact]
      exact hout.place_other hp₀ hv
    · rw [hsw.input, hout.input hp₀, hw₀.input]
    · rw [← hact]
      refine hw₀.scored hsw hs hstarted (fun hnone => ?_)
        (hout.scores hw₀.inv.seating fun _ _ _ _ hjoin =>
          messageAct_join_free hjoin)
      rw [hact]
      simp [World.messageAct, hs, hnone]
  · simp only [Bool.false_eq_true, if_false, Option.some.injEq,
      Prod.mk.injEq] at h
    obtain ⟨rfl, rfl⟩ := h
    refine Or.inr (Or.inl ⟨rfl, hact ▸ hnone, ?_⟩)
    exact hdismiss (q.dismissed hw₀.inv hreg₀ hs₀ (by simp [hstate₀])
      (fun _ => hstand₀ hne) (by simp))
  · simp only [Bool.false_eq_true, if_false, Option.some.injEq,
      Prod.mk.injEq] at h
    obtain ⟨rfl, rfl⟩ := h
    refine Or.inr (Or.inr ⟨rfl, hsame.mp rfl, hrej, ?_⟩)
    exact hdismiss (r.own.dismissed hw₀.inv hreg₀ hs₀ (by simp [hstate₀])
      (by simp) (fun _ => r.mark s₀ hs₀))

end ChessServer
