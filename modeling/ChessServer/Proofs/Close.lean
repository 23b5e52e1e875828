import ChessServer.Proofs.Invariant

/-!
# Connections come and go

`DestructResource`, the pool it returns sessions to, and the notification
that takes one out of it (`notifyAddEvent_admitted`).  Closing a connection is
a `leave` on the board of its session, if it has one
(`closingClientCon_closed`).
-/

namespace ChessServer

/-! ## DestructResource -/

/-- The layout without the chair of a session. -/
def Layout.vacateAt (l : Layout) (chair : Option (BoardPtr × Seat)) : Layout :=
  match chair with
  | some (b, seat) => l.vacate b seat
  | none => l

@[simp] theorem Layout.vacateAt_place (l : Layout)
    (chair : Option (BoardPtr × Seat)) :
    (l.vacateAt chair).place = l.place := by
  cases chair <;> rfl

@[simp] theorem Layout.vacateAt_registry (l : Layout)
    (chair : Option (BoardPtr × Seat)) :
    (l.vacateAt chair).registry = l.registry := by
  cases chair <;> rfl

@[simp] theorem Layout.vacateAt_pool (l : Layout)
    (chair : Option (BoardPtr × Seat)) :
    (l.vacateAt chair).pool = l.pool := by
  cases chair <;> rfl

/-- Session `u` was destructed, and left its board if it was on one. -/
structure Closes (u : SessionId) (w w' : World) : Prop where
  layout : w'.layout = (w.layout.vacateAt (w.chair u)).modify u Place.reset
  table : ∀ p, w'.table p = w.tableAfter (w.closeAct u) p
  mark : ∀ v, v ≠ u → (∀ b seat, w.chair u = some (b, seat) →
    ∀ seat', (w.boards b).seat seat' ≠ some v) → w'.mark v = w.mark v

/-- What `DestructResource` leaves of a session. -/
theorem destruct_eq (s : UserSession) : s.destruct =
    { s with
      clifd := -1
      thread := if s.clifd = -1 then s.thread else none
      stateMachine := none
      nextState := if s.stateMachine = none then s.nextState else none
      userInfo := if s.clifd = -1 then s.userInfo else {}
      adImgFp := none
      bufev := none
      bufInfo := if s.clifd = -1 then s.bufInfo else {} } := by
  unfold UserSession.destruct
  by_cases hstate : s.stateMachine = none
  · by_cases hclifd : s.clifd = -1
    · simp [hstate, hclifd]
    · simp [hstate, hclifd]
  · by_cases hclifd : s.clifd = -1
    · simp [hstate, hclifd]
    · simp [hstate, hclifd]

/-- A session that is on no board is reset. -/
theorem destruct_place {s : UserSession} (hboard : s.currChessBoard = none)
    (hstate : s.stateMachine = none → s.nextState = none)
    (hclosed : s.clifd = -1 → s.thread = none ∧ s.bufInfo = {}) :
    s.destruct.place = s.place.reset := by
  unfold UserSession.destruct
  by_cases hs : s.stateMachine = none
  · by_cases hc : s.clifd = -1
    · simp [hs, hc, UserSession.place, Place.reset, hboard, hstate hs,
        hclosed hc]
    · simp [hs, hc, UserSession.place, Place.reset, hboard, hstate hs]
  · by_cases hc : s.clifd = -1
    · simp [hs, hc, UserSession.place, Place.reset, hboard, hclosed hc]
    · simp [hs, hc, UserSession.place, Place.reset, hboard]

/-- Who is on no board has no chair. -/
theorem chair_none {w : World} {u : SessionId} {s : UserSession}
    (hs : w.users u = some s) (hboard : s.currChessBoard = none) :
    w.chair u = none := by
  simp [World.chair, hs, hboard]

/-- A session on no board has only its own object to clean up. -/
theorem destructResource_standing (env : Env) {u : SessionId}
    {s : UserSession} {w : World} (hs : w.users u = some s)
    (hboard : s.currChessBoard = none) :
    destructResource env u w = some (w.setUser u s.destruct) := by
  simp [destructResource, leaveCurrChessBoard, hs, hboard,
    World.modifyUser]

/-- Destructing a session frees its chair and resets it. -/
theorem destructResource_closes {env : Env} {u : SessionId} {s : UserSession}
    {w w' : World} (hseating : w.layout.Seating) (hs : w.users u = some s)
    (hstate : s.stateMachine = none → s.nextState = none)
    (hclosed : s.clifd = -1 → s.thread = none ∧ s.bufInfo = {})
    (h : destructResource env u w = some w') : Closes u w w' := by
  have hp : w.layout.place u = some s.place := by simp [World.layout, hs]
  cases hboard : s.currChessBoard with
  | none =>
      rw [destructResource_standing _ hs hboard] at h
      cases h
      have hchair := chair_none hs hboard
      have hnot := hseating.not_seated hp hboard
      refine ⟨?_, ?_, ?_⟩
      · rw [hchair, layout_setUser hs, destruct_place hboard hstate hclosed]
        exact (Layout.modify_const hp Place.reset).symm
      · intro p
        rw [World.closeAct, hchair]
        refine table_eq_of_marks rfl fun seat v hv => ?_
        have hvu : v ≠ u := by
          rintro rfl
          exact hnot p seat hv
        simp [World.mark, World.setUser, hvu]
      · intro v hv _
        simp [World.mark, World.setUser, hv]
  | some b =>
      obtain ⟨seat, hlocate, hseat, hchair⟩ := chair_eq hseating hs hboard
      simp only [destructResource, leaveCurrChessBoard, hs, hboard,
        Option.bind_eq_bind, Option.bind_some, Option.bind_eq_some_iff] at h
      obtain ⟨w₂, ⟨w₁, hleave, hforget⟩, h⟩ := h
      have l := (leaveRoomHandle_leaves hseating hseat hleave).1
      -- `LeaveRoomHandle` touched nothing of the leaver's place
      have hp₁ : w₁.layout.place u = some s.place := by
        rw [l.layout]
        exact hp
      have hp₁' := hp₁
      simp only [World.layout, Option.map_eq_some_iff] at hp₁'
      obtain ⟨s₁, hs₁, hplace⟩ := hp₁'
      rw [modifyUser_eq hs₁] at hforget
      cases hforget
      rw [modifyUser_eq (setUser_users_self _ _ _), setUser_setUser] at h
      cases h
      have hfields : s₁.stateMachine = s.stateMachine ∧
          s₁.nextState = s.nextState ∧ s₁.clifd = s.clifd ∧
          s₁.thread = s.thread ∧ s₁.bufInfo = s.bufInfo := by
        have h₁ := congrArg Place.stateMachine hplace
        have h₂ := congrArg Place.nextState hplace
        have h₃ := congrArg Place.clifd hplace
        have h₄ := congrArg Place.thread hplace
        have h₅ := congrArg Place.bufInfo hplace
        exact ⟨h₁, h₂, h₃, h₄, h₅⟩
      have hreset : ({ s₁ with currChessBoard := none } :
          UserSession).destruct.place = s₁.place.reset := by
        rw [destruct_place (s := { s₁ with currChessBoard := none }) rfl]
        · rfl
        · simpa [hfields] using hstate
        · simpa [hfields] using hclosed
      have hmark : ∀ v, v ≠ u → (∀ seat', (w.boards b).seat seat' ≠ some v) →
          (w₁.setUser u ({ s₁ with currChessBoard := none } :
            UserSession).destruct).mark v = w.mark v := by
        intro v hv hnot
        have := l.outside v hnot
        simp [World.mark, World.setUser, hv, this]
      have hgone : ∀ seat', (w₁.boards b).seat seat' ≠ some u := by
        intro seat' hu
        have hu' : w₁.layout.seats b seat' = some u := hu
        rw [l.layout, Layout.vacate, Layout.setSeat_self] at hu'
        by_cases hs' : seat' = seat
        · subst hs'
          simp at hu'
        · rw [Function.update_of_ne hs'] at hu'
          exact hs' (hseating.distinct (b := b) hu' hseat)
      refine ⟨?_, ?_, ?_⟩
      · rw [hchair, Layout.vacateAt, layout_setUser hs₁, hreset, ← l.layout]
        exact (Layout.modify_const (p := s₁.place) (by rw [hp₁, hplace])
          Place.reset).symm
      · intro p
        have htable : (w₁.setUser u ({ s₁ with currChessBoard := none } :
            UserSession).destruct).table b = (w.table b).leave seat := by
          rw [← l.table]
          refine table_eq_of_marks rfl fun seat' v hv => ?_
          have hvu : v ≠ u := by
            rintro rfl
            exact hgone seat' hv
          simp [World.mark, World.setUser, hvu]
        rw [tables_of_one htable l.others (fun c hc seat' v hv => ?_) p,
          World.closeAct, hchair, Option.map_some, World.tableAfter]
        · split
          · rename_i hpb
            rw [hpb]
            rfl
          · rfl
        · refine hmark v ?_ (not_on_board hseating hc hv)
          rintro rfl
          exact hc (hseating.unique (b := c) (c := b) hv hseat).1
      · intro v hv hnot
        exact hmark v hv (hnot b seat hchair)

/-! ## The pool -/

/-- Erasing a descriptor from the map unregisters it. -/
theorem layout_erase (w : World) (fd : Int) :
    ({ w with fdSessionMap := w.fdSessionMap.erase fd } : World).layout =
      w.layout.unregister fd := by
  have hreg : (fun k => (w.fdSessionMap.erase fd)[k]?) =
      Function.update (fun k => w.fdSessionMap[k]?) fd none := by
    funext k
    by_cases hk : k = fd
    · subst hk
      simp
    · rw [Std.TreeMap.getElem?_erase, Function.update_of_ne hk,
        if_neg (by simpa [compare_eq_iff_eq] using Ne.symm hk)]
  simp only [World.layout, Layout.unregister, hreg]

/-- One round of the trimming loop deletes an idle session. -/
theorem trimOne_spec {env : Env} {u : SessionId} {w w₁ : World}
    (hinv : w.layout.Inv) (hlast : w.sessionList.getLast? = some u)
    (h : destructResource env u w = some w₁) :
    let w₂ : World := { w₁.deleteSession u with
      sessionList := w.sessionList.dropLast }
    w₁.sessionList = w.sessionList ∧ w₂.layout = w.layout.trimOne ∧
      w₂.boards = w.boards ∧ w₂.fdSessionMap = w.fdSessionMap ∧
      w₂.sqlLog = w.sqlLog ∧ ∀ v, v ≠ u → w₂.users v = w.users v := by
  have hmem : u ∈ w.layout.pool := List.mem_of_getLast? hlast
  obtain ⟨p, hp, hidle⟩ := hinv.registry.pooled hmem
  simp only [World.layout, Option.map_eq_some_iff] at hp
  obtain ⟨s, hs, rfl⟩ := hp
  rw [destructResource_standing _ hs hidle.currChessBoard] at h
  cases h
  refine ⟨rfl, ?_, rfl, rfl, rfl, fun v hv => ?_⟩
  · have hlast' : w.layout.pool.getLast? = some u := hlast
    simp only [Layout.trimOne, hlast']
    have hplace : (fun v => (Function.update
        (w.setUser u s.destruct).users u none v).map UserSession.place) =
        Function.update w.layout.place u none := by
      funext v
      by_cases hv : v = u
      · subst hv
        simp
      · simp [World.setUser, World.layout, hv]
    simp only [World.layout, World.deleteSession, hplace]
    rfl
  · simp [World.deleteSession, World.setUser, hv]

/-- What the trimming loop leaves alone. -/
structure Trimmed (w w' : World) : Prop where
  inv : w'.layout.Inv
  boards : w'.boards = w.boards
  fdSessionMap : w'.fdSessionMap = w.fdSessionMap
  sqlLog : w'.sqlLog = w.sqlLog
  users : ∀ v, v ∉ w.sessionList → w'.users v = w.users v

/-- Deleting the last session of the pool keeps the invariant. -/
theorem Layout.Inv.trimOne {l : Layout} (hinv : l.Inv) : l.trimOne.Inv := by
  refine ⟨hinv.registry.trimOne, ?_, ?_⟩
  · unfold Layout.trimOne
    split
    · exact hinv.seating
    · rename_i u hlast
      obtain ⟨p, hp, hidle⟩ :=
        hinv.registry.pooled (List.mem_of_getLast? hlast)
      exact hinv.seating.delete
        (hinv.seating.not_seated hp hidle.currChessBoard) _
  · unfold Layout.trimOne
    split
    · exact hinv.settled
    · rename_i u _
      intro v p hp hne
      by_cases hv : v = u
      · subst hv
        simp at hp
      · simp only [Function.update_of_ne hv] at hp
        exact hinv.settled v p hp hne

/-- So does deleting any number of them. -/
theorem destrorySessionsFromPool_trimmed {env : Env} :
    ∀ (num : Nat) {w w' : World}, w.layout.Inv →
      destrorySessionsFromPool env num w = some w' → Trimmed w w' := by
  intro num
  induction num with
  | zero =>
      intro w w' hinv h
      cases h
      exact ⟨hinv, rfl, rfl, rfl, fun _ _ => rfl⟩
  | succ num ih =>
      intro w w' hinv h
      unfold destrorySessionsFromPool at h
      split at h
      · cases h
        exact ⟨hinv, rfl, rfl, rfl, fun _ _ => rfl⟩
      · rename_i u hlast
        simp only [Option.bind_eq_bind, Option.bind_eq_some_iff] at h
        obtain ⟨w₁, hdestruct, h⟩ := h
        obtain ⟨hpool, hlayout, hboards, hmap, hsql, husers⟩ :=
          trimOne_spec hinv hlast hdestruct
        have hw₂ : ({ w₁.deleteSession u with
            sessionList := (w₁.deleteSession u).sessionList.dropLast } :
            World) = { w₁.deleteSession u with
              sessionList := w.sessionList.dropLast } := by
          simp [World.deleteSession, hpool]
        rw [hw₂] at h
        have t := ih (hlayout ▸ hinv.trimOne) h
        refine ⟨t.inv, t.boards.trans hboards, t.fdSessionMap.trans hmap,
          t.sqlLog.trans hsql, fun v hv => ?_⟩
        have hvu : v ≠ u := by
          rintro rfl
          exact hv (List.mem_of_getLast? hlast)
        rw [t.users v fun hmem => hv (List.dropLast_subset _ hmem),
          husers v hvu]

/-- The loop deletes from the back. -/
theorem destrorySessionsFromPool_pool {env : Env} :
    ∀ (num : Nat) {w w' : World}, w.layout.Inv →
      destrorySessionsFromPool env num w = some w' →
      w'.sessionList = w.sessionList.take (w.sessionList.length - num) := by
  intro num
  induction num with
  | zero =>
      intro w w' _ h
      cases h
      rw [Nat.sub_zero, List.take_length]
  | succ num ih =>
      intro w w' hinv h
      unfold destrorySessionsFromPool at h
      split at h
      · rename_i hlast
        cases h
        rw [List.getLast?_eq_none_iff.mp hlast, List.take_nil]
      · rename_i u hlast
        simp only [Option.bind_eq_bind, Option.bind_eq_some_iff] at h
        obtain ⟨w₁, hdestruct, h⟩ := h
        obtain ⟨hpool, hlayout, _⟩ := trimOne_spec hinv hlast hdestruct
        have hw₂ : ({ w₁.deleteSession u with
            sessionList := (w₁.deleteSession u).sessionList.dropLast } :
            World) = { w₁.deleteSession u with
              sessionList := w.sessionList.dropLast } := by
          simp [World.deleteSession, hpool]
        rw [hw₂] at h
        rw [ih (hlayout ▸ hinv.trimOne) h]
        show w.sessionList.dropLast.take _ = _
        rw [List.dropLast_eq_take, List.take_take, List.length_take]
        congr 1
        omega

/-- The end of `RecycleSession`. -/
theorem recycle_trims {env : Env} {w w' : World} (hinv : w.layout.Inv)
    (h : (if w.sessionList.length ≥ 2 * connectionMaxStep then
        destrorySessionsFromPool env connectionMaxStep w
      else some w) = some w') :
    Trimmed w w' ∧ w'.sessionList = Layout.trimmedPool w.sessionList := by
  unfold Layout.trimmedPool
  by_cases hlong : w.sessionList.length ≥ 2 * connectionMaxStep
  · rw [if_pos hlong] at h ⊢
    exact ⟨destrorySessionsFromPool_trimmed _ hinv h,
      destrorySessionsFromPool_pool _ hinv h⟩
  · rw [if_neg hlong] at h ⊢
    cases h
    exact ⟨⟨hinv, rfl, rfl, rfl, fun _ _ => rfl⟩, rfl⟩

/-! ## ClosingClientCon -/

/-- The chairs stay right when a session is reset that left its own. -/
theorem Layout.Seating.reset {l : Layout} (hl : l.Seating) {u : SessionId}
    (chair : Option (BoardPtr × Seat))
    (hchair : ∀ b seat, chair = some (b, seat) → l.seats b seat = some u)
    (hnone : chair = none → ∀ p, l.place u = some p →
      p.currChessBoard = none) :
    ((l.vacateAt chair).modify u Place.reset).Seating := by
  cases chair with
  | some c => exact hl.leave (hchair c.1 c.2 rfl) fun _ => rfl
  | none =>
      refine hl.modify fun p hp => ?_
      have hboard := hnone rfl p hp
      exact ⟨by rw [hboard]; rfl, fun h => by rw [hboard] at h; cases h⟩

/-- The effect of closing the connection of session `u` on `fd`. -/
structure Closed (u : SessionId) (fd : Int) (w w' : World) : Prop where
  inv : w'.layout.Inv
  gone : ∀ p, w'.layout.place u = some p → p.Idle
  registry : w'.layout.registry =
    Function.update w.layout.registry fd none
  pool : w'.layout.pool = Layout.trimmedPool (u :: w.layout.pool)
  table : ∀ p, w'.table p = w.tableAfter (w.closeAct u) p
  place : ∀ v, v ≠ u → v ∉ w.layout.pool →
    w'.layout.place v = w.layout.place v
  mark : ∀ v, v ≠ u → v ∉ w.layout.pool →
    (∀ b seat, w.chair u = some (b, seat) →
      ∀ seat', (w.boards b).seat seat' ≠ some v) → w'.mark v = w.mark v

/-- A session that was registered is neither idle nor half closed. -/
theorem registered_open {fd : Int} {u : SessionId} {s : UserSession}
    {w : World} (hregistry : w.layout.Registry none)
    (hreg : w.layout.registry fd = some u) (hs : w.users u = some s) :
    s.clifd = fd ∧ (s.clifd = -1 → s.thread = none ∧ s.bufInfo = {}) := by
  obtain ⟨s', hs', hclifd, honline⟩ := registered_session hregistry hreg
  rw [hs] at hs'
  cases hs'
  refine ⟨hclifd, fun hc => ?_⟩
  have := honline.clifd
  simp only [UserSession.place, hc] at this
  omega

/-- The session that `RecycleSession` destructed can join the pool. -/
theorem recycled_inv {u : SessionId} {fd : Int} {s : UserSession}
    {w w₁ : World} (hregistry : w.layout.Registry none)
    (hseating : w.layout.Seating) (hsettled : w.layout.Settled (some u))
    (hreg : w.layout.registry fd = some u) (hs : w.users u = some s)
    (hlayout : w₁.layout = ((w.layout.unregister fd).vacateAt
      (w.chair u)).modify u Place.reset) :
    ({ w₁ with sessionList := u :: w₁.sessionList } : World).layout.Inv := by
  have hp : w.layout.place u = some s.place := by simp [World.layout, hs]
  obtain ⟨hclifd, _⟩ := registered_open hregistry hreg hs
  have heq : ({ w₁ with sessionList := u :: w₁.sessionList } :
      World).layout = w₁.layout.toPool u := rfl
  rw [heq, hlayout]
  have hvac : ((w.layout.unregister fd).vacateAt (w.chair u)).Registry
      (some u) := by
    cases w.chair u with
    | none => exact hregistry.unregister hreg
    | some c => exact (hregistry.unregister hreg).setSeat _ _ _ _
  have hnoreg : ∀ fd', ((w.layout.unregister fd).vacateAt
      (w.chair u)).registry fd' ≠ some u := by
    intro fd' hfd'
    rw [Layout.vacateAt_registry] at hfd'
    by_cases hne : fd' = fd
    · subst hne
      simp [Layout.unregister] at hfd'
    · simp only [Layout.unregister, Function.update_of_ne hne] at hfd'
      obtain ⟨q, hq, hq', _⟩ := hregistry.registered hfd'
      rw [hp] at hq
      cases hq
      exact hne (hq'.symm.trans hclifd)
  have hreset := hvac.reset hnoreg
  have hplace : (((w.layout.unregister fd).vacateAt (w.chair u)).modify u
      Place.reset).place u = some s.place.reset := by
    rw [Layout.modify_self, Layout.vacateAt_place]
    exact congrArg (Option.map Place.reset) hp
  refine ⟨hreset.toPool hplace s.place.reset_idle ?_, ?_, ?_⟩
  · intro hmem
    have hmem' : u ∈ w.layout.pool := by
      simpa [Layout.modify, Layout.unregister] using hmem
    exact hregistry.not_mem_pool hreg hmem'
  · have hunregistered : (w.layout.unregister fd).Seating :=
      ⟨hseating.seated, hseating.onBoard, hseating.count⟩
    have hseat := hunregistered.reset (w.chair u) (u := u)
      (fun b seat hc => ?_) (fun hc p hp' => ?_)
    · exact ⟨hseat.seated, hseat.onBoard, hseat.count⟩
    · cases hboard : s.currChessBoard with
      | none =>
          rw [chair_none hs hboard] at hc
          cases hc
      | some b' =>
          obtain ⟨seat', _, hseat, hchair'⟩ := chair_eq hseating hs hboard
          rw [hchair'] at hc
          cases hc
          exact hseat
    · have hp'' : w.layout.place u = some p := hp'
      rw [hp] at hp''
      cases hp''
      cases hboard : s.currChessBoard with
      | none => exact hboard
      | some b' =>
          obtain ⟨_, _, _, hchair'⟩ := chair_eq hseating hs hboard
          rw [hchair'] at hc
          cases hc
  · have hothers : (((w.layout.unregister fd).vacateAt
        (w.chair u)).modify u Place.reset).Settled (some u) := by
      refine Layout.Settled.modify_busy fun v q hq hne => ?_
      rw [Layout.vacateAt_place] at hq
      exact hsettled v q hq hne
    refine Layout.Settled.settle (u := u) hothers fun q hq => ?_
    have hq' : (((w.layout.unregister fd).vacateAt (w.chair u)).modify u
        Place.reset).place u = some q := hq
    rw [hplace] at hq'
    cases hq'
    exact s.place.reset_idle.settled

/-- What is left of a session when its connection is closed. -/
theorem closingClientCon_closed {env : Env} {u : SessionId} {fd : Int}
    {s : UserSession} {w w' : World} (hregistry : w.layout.Registry none)
    (hseating : w.layout.Seating) (hsettled : w.layout.Settled (some u))
    (hreg : w.layout.registry fd = some u) (hs : w.users u = some s)
    (hstate : s.stateMachine = none → s.nextState = none)
    (h : closingClientCon env fd w = some w') : Closed u fd w w' := by
  have hp : w.layout.place u = some s.place := by simp [World.layout, hs]
  obtain ⟨hclifd, hclosed⟩ := registered_open hregistry hreg hs
  unfold closingClientCon at h
  have hlookup : w.fdSessionMap[fd]? = some u := hreg
  rw [hlookup] at h
  simp only [recycleSession, Option.bind_eq_bind,
    Option.bind_eq_some_iff] at h
  obtain ⟨w₁, hdestruct, h⟩ := h
  have hlayout₀ := layout_erase w fd
  have c := destructResource_closes
    (w := { w with fdSessionMap := w.fdSessionMap.erase fd })
    (by rw [hlayout₀]; exact ⟨hseating.seated, hseating.onBoard, hseating.count⟩)
    hs hstate hclosed hdestruct
  have hchair : ({ w with fdSessionMap := w.fdSessionMap.erase fd } :
      World).chair u = w.chair u := rfl
  have hlayout₁ : w₁.layout =
      ((w.layout.unregister fd).vacateAt (w.chair u)).modify u
        Place.reset := by
    rw [c.layout, hlayout₀, hchair]
  -- the pool gets the session back
  have hinv₂ := recycled_inv hregistry hseating hsettled hreg hs hlayout₁
  obtain ⟨t, hpool'⟩ := recycle_trims hinv₂ h
  have hpool₁ : w₁.sessionList = w.sessionList := by
    have := congrArg Layout.pool hlayout₁
    simpa [Layout.modify, Layout.unregister, World.layout] using this
  have husers : ∀ v, v ≠ u → v ∉ w.layout.pool → w'.users v = w₁.users v := by
    intro v hvu hv
    refine t.users v ?_
    rw [hpool₁, List.mem_cons]
    rintro (rfl | hmem)
    · exact hvu rfl
    · exact hv hmem
  have hregistry' : w'.layout.registry =
      Function.update w.layout.registry fd none := by
    have hreg₁ := congrArg Layout.registry hlayout₁
    funext k
    have hk : w'.layout.registry k = w₁.layout.registry k := by
      simp only [World.layout, t.fdSessionMap]
    rw [hk, hreg₁]
    simp [Layout.modify, Layout.unregister]
  refine ⟨t.inv, ?_, hregistry', ?_, ?_, ?_, ?_⟩
  · intro q hq
    by_contra hidle
    have hreg' := t.inv.registry.registered_of_online hq hidle
    rw [hregistry'] at hreg'
    by_cases hk : q.clifd = fd
    · rw [hk, Function.update_self] at hreg'
      cases hreg'
    · rw [Function.update_of_ne hk] at hreg'
      obtain ⟨r, hr, hr', _⟩ := hregistry.registered hreg'
      rw [hp] at hr
      cases hr
      exact hk (hr'.symm.trans hclifd)
  · show w'.sessionList = Layout.trimmedPool (u :: w.sessionList)
    rw [hpool', hpool₁]
  · intro p
    rw [table_eq_of_marks (w := w₁) (congrFun t.boards p) fun seat v hv => ?_]
    · exact c.table p
    · -- whoever still sits somewhere is neither `u` nor in the pool
      obtain ⟨q, hq, hboard, _⟩ := hinv₂.seating.seated (b := p) hv
      have hv' : v ∉ u :: w₁.sessionList := by
        intro hmem
        obtain ⟨r, hr, hidle⟩ := hinv₂.registry.pooled hmem
        rw [hq] at hr
        cases hr
        rw [hidle.currChessBoard] at hboard
        cases hboard
      have := t.users v hv'
      simp only [World.mark]
      rw [this]
  · intro v hvu hv
    have hv' : w'.layout.place v = w₁.layout.place v := by
      simp only [World.layout, husers v hvu hv]
    rw [hv', hlayout₁, Layout.modify_other hvu, Layout.vacateAt_place]
    rfl
  · intro v hvu hv hnot
    rw [World.mark, husers v hvu hv]
    exact c.mark v hvu hnot

/-! ## Accepted connections -/

/-- A new session has an empty place. -/
theorem newSession_layout (w : World) :
    w.newSession.layout = w.layout.newSession := by
  have hplace : (fun v => (w.newSession.users v).map UserSession.place) =
      Function.update w.layout.place w.nextUser
        (some (UserSession.place {})) := by
    funext v
    by_cases hv : v = w.nextUser
    · subst hv
      simp [World.newSession]
    · simp [World.newSession, World.layout, hv]
  simp only [World.layout, hplace]
  rfl

/-- A new session keeps the invariant. -/
theorem Layout.Inv.newSession {l : Layout} (hinv : l.Inv) :
    l.newSession.Inv := by
  refine ⟨hinv.registry.newSession,
    hinv.seating.newSession (hinv.registry.fresh (Nat.le_refl _)), ?_⟩
  intro v p hp hne
  by_cases hv : v = l.nextUser
  · subst hv
    simp only [Layout.newSession, Function.update_self,
      Option.some.injEq] at hp
    subst hp
    exact Place.Idle.settled ⟨rfl, rfl, rfl, rfl, rfl, rfl, rfl⟩
  · simp only [Layout.newSession, Function.update_of_ne hv] at hp
    exact hinv.settled v p hp hne

/-- What growing the pool or serving a descriptor from it leaves alone. -/
structure Admitted (w w' : World) : Prop where
  inv : w'.layout.Inv
  boards : w'.boards = w.boards
  users : ∀ v s, w.users v = some s → v ∉ w.sessionList →
    w'.users v = some s

/-- Filling the pool touches no session that exists. -/
theorem creatSessionsPool_admitted {w : World} (hinv : w.layout.Inv) :
    ∀ num : Nat, Admitted w (creatSessionsPool num w) ∧
      (creatSessionsPool num w).layout.registry = w.layout.registry ∧
      ∀ v s, w.users v = some s →
        (creatSessionsPool num w).users v = some s := by
  intro num
  induction num with
  | zero => exact ⟨⟨hinv, rfl, fun _ _ hs _ => hs⟩, rfl, fun _ _ hs => hs⟩
  | succ num ih =>
      have hstep : creatSessionsPool (num + 1) w =
          (creatSessionsPool num w).newSession := rfl
      obtain ⟨ih, hregistry, husers⟩ := ih
      have hkeep : ∀ v s, w.users v = some s →
          (creatSessionsPool (num + 1) w).users v = some s := by
        intro v s hs
        have hv := husers v s hs
        have hne : v ≠ (creatSessionsPool num w).nextUser := by
          rintro rfl
          have hfresh := ih.inv.registry.fresh (Nat.le_refl _)
          simp only [World.layout, hv] at hfresh
          cases hfresh
        rw [hstep]
        simpa [World.newSession, hne] using hv
      refine ⟨⟨?_, ih.boards, fun v s hs _ => hkeep v s hs⟩, ?_, hkeep⟩
      · rw [hstep, newSession_layout]
        exact ih.inv.newSession
      · rw [hstep, newSession_layout]
        exact hregistry

/-- What accepting a connection does to the layout. -/
theorem layout_register {w : World} {fd : Int} {u : SessionId}
    {s : UserSession} {rest : List SessionId} (hs : w.users u = some s)
    (hpool : w.sessionList = u :: rest) (hfree : w.fdSessionMap[fd]? = none) :
    ({ (({ w with sessionList := rest } : World).setUser u { s with
        clifd := fd, thread := some 0, bufev := some [] }) with
      fdSessionMap := w.fdSessionMap.insertIfNew fd u } : World).layout =
      w.layout.register fd u := by
  have hplace : (fun v => ((({ w with sessionList := rest } : World).setUser u
      { s with clifd := fd, thread := some 0, bufev := some [] }).users v).map
        UserSession.place) =
      Function.update w.layout.place u ((w.layout.place u).map fun p =>
        { p with clifd := fd, thread := some 0, bufev := some [] }) := by
    funext v
    by_cases hv : v = u
    · subst hv
      simp [World.setUser, World.layout, hs, UserSession.place]
    · simp [World.setUser, World.layout, hv]
  have hreg : (fun k => (w.fdSessionMap.insertIfNew fd u)[k]?) =
      Function.update (fun k => w.fdSessionMap[k]?) fd (some u) := by
    funext k
    by_cases hk : k = fd
    · subst hk
      have hnot : k ∉ w.fdSessionMap := by
        rw [Std.TreeMap.mem_iff_isSome_getElem?, hfree]
        simp
      rw [Std.TreeMap.getElem?_insertIfNew, Function.update_self,
        if_pos ⟨compare_eq_iff_eq.mpr rfl, hnot⟩]
    · have hcmp : ¬ compare fd k = .eq := by
        rw [compare_eq_iff_eq]
        exact Ne.symm hk
      rw [Std.TreeMap.getElem?_insertIfNew, Function.update_of_ne hk,
        if_neg (fun h => hcmp h.1)]
  simp only [World.layout, Layout.register, hplace, hreg, hpool,
    List.tail_cons]
  rfl

/-- A registration of a free descriptor keeps the invariant. -/
theorem Layout.Inv.register {l : Layout} (hinv : l.Inv) {fd : Int}
    (hfd : 0 ≤ fd) (hfree : l.registry fd = none) {u : SessionId}
    {rest : List SessionId} (hpool : l.pool = u :: rest) :
    (l.register fd u).Inv := by
  obtain ⟨p, hp, hidle⟩ := hinv.registry.pooled (u := u) (by simp [hpool])
  refine ⟨hinv.registry.register hfd hfree hpool, ?_, ?_⟩
  · have hseat := hinv.seating.modify (u := u)
      (f := fun p => { p with clifd := fd, thread := some 0, bufev := some [] })
      fun _ _ => ⟨rfl, fun _ => rfl⟩
    exact ⟨hseat.seated, hseat.onBoard, hseat.count⟩
  · intro v q hq hne
    by_cases hv : v = u
    · subst hv
      simp only [Layout.register, hp, Option.map_some, Function.update_self,
        Option.some.injEq] at hq
      subst hq
      simp [Place.Settled, hidle.currChessBoard, hidle.stateMachine,
        hidle.nextState]
    · simp only [Layout.register, Function.update_of_ne hv] at hq
      exact hinv.settled v q hq hne

/-- The first line of `GetOneSessionFromPool`: an empty pool is filled. -/
def World.filled (w : World) : World :=
  if w.sessionList = [] then creatSessionsPool connectionMaxStep w else w

theorem filled_admitted {w : World} (hinv : w.layout.Inv) :
    Admitted w w.filled ∧ w.filled.layout.registry = w.layout.registry := by
  unfold World.filled
  split
  · obtain ⟨ha, hr, _⟩ := creatSessionsPool_admitted hinv connectionMaxStep
    exact ⟨ha, hr⟩
  · exact ⟨⟨hinv, rfl, fun _ _ hs _ => hs⟩, rfl⟩

/-- The pool grows by what is asked for. -/
theorem creatSessionsPool_length (w : World) : ∀ num : Nat,
    (creatSessionsPool num w).sessionList.length =
      w.sessionList.length + num := by
  intro num
  induction num with
  | zero => rfl
  | succ num ih =>
      show ((creatSessionsPool num w).sessionList ++ [_]).length = _
      rw [List.length_append, ih]
      rfl

/-- The pool is filled only when it is empty. -/
theorem filled_cases {w : World} {u : SessionId} {rest : List SessionId}
    (h : w.filled.sessionList = u :: rest) :
    w.sessionList = u :: rest ∨
      w.sessionList = [] ∧ rest.length + 1 = connectionMaxStep := by
  unfold World.filled at h
  by_cases hempty : w.sessionList = []
  · rw [if_pos hempty] at h
    have hlength := creatSessionsPool_length w connectionMaxStep
    rw [h, hempty, List.length_cons, List.length_nil,
      Nat.zero_add] at hlength
    exact Or.inr ⟨hempty, hlength⟩
  · rw [if_neg hempty] at h
    exact Or.inl h

/-- The session comes from the front of the pool. -/
theorem getOneSessionFromPool_eq {u : SessionId} {w w₁ : World}
    (h : getOneSessionFromPool w = some (u, w₁)) :
    ∃ rest, w.filled.sessionList = u :: rest ∧
      w₁ = { w.filled with sessionList := rest } := by
  unfold getOneSessionFromPool at h
  dsimp only at h
  split at h
  · cases h
  · rename_i session rest hpool
    cases h
    exact ⟨rest, hpool, rfl⟩

/-- A descriptor that is free gets a session of its own. -/
theorem notifyAddEvent_admitted {fd : Int} {w w' : World}
    (hinv : w.layout.Inv) (hfd : 0 ≤ fd) (hfree : w.fdSessionMap[fd]? = none)
    (h : notifyAddEvent fd w = some w') :
    Admitted w w' ∧ ∃ u, ∃ s : UserSession, w'.layout.registry =
      Function.update w.layout.registry fd (some u) ∧ s.place.Idle ∧
      w'.users u =
        some { s with clifd := fd, thread := some 0, bufev := some [] } ∧
      w.filled.sessionList = u :: w'.sessionList := by
  simp only [notifyAddEvent, Option.bind_eq_bind,
    Option.bind_eq_some_iff] at h
  obtain ⟨⟨u, w₁⟩, hget, w₂, hset, h⟩ := h
  cases h
  obtain ⟨rest, hpool, rfl⟩ := getOneSessionFromPool_eq hget
  obtain ⟨ha, hregistry⟩ := filled_admitted hinv
  have hrest : w.filled.sessionList = u :: rest := hpool
  generalize w.filled = w₀ at *
  have hmem : u ∈ w₀.layout.pool := by
    simp only [World.layout, hpool]
    exact List.mem_cons_self
  obtain ⟨p, hp, hidle⟩ := ha.inv.registry.pooled hmem
  simp only [World.layout, Option.map_eq_some_iff] at hp
  obtain ⟨s, hs, hplace⟩ := hp
  rw [modifyUser_eq (w := { w₀ with sessionList := rest }) hs] at hset
  cases hset
  have hfree' : w₀.fdSessionMap[fd]? = none := by
    have := congrFun hregistry fd
    exact this.trans hfree
  have hlayout := layout_register hs hpool hfree'
  refine ⟨⟨?_, ha.boards, ?_⟩, u, s, ?_, hplace ▸ hidle, ?_, hrest⟩
  · have hpool' : w₀.layout.pool = u :: rest := hpool
    have := ha.inv.register hfd hfree' hpool'
    rw [← hlayout] at this
    exact this
  · intro v s' hs' hv
    have hv₀ := ha.users v s' hs' hv
    have hvu : v ≠ u := by
      rintro rfl
      -- a session that existed outside the pool did not enter it
      obtain ⟨q, hq, hidle⟩ := ha.inv.registry.pooled hmem
      have hq' : w.layout.place v = some q := by
        simp only [World.layout, hv₀] at hq
        simp only [World.layout, hs']
        exact hq
      rcases hinv.registry.placed hq' (by simp) with hpool' | hreg'
      · exact hv hpool'
      · obtain ⟨r, hr, _, honline⟩ := hinv.registry.registered hreg'
        rw [hq'] at hr
        cases hr
        exact honline.not_idle hidle
    simpa [World.setUser, hvu] using hv₀
  · have := congrArg Layout.registry hlayout
    refine Eq.trans this ?_
    simp only [Layout.register, hregistry]
  · exact setUser_users_self _ _ _

end ChessServer
