import ChessServer.Proofs.StateChanges
import ChessServer.Proofs.Step

/-!
# One event is a sequence of changes

The connections' side of `Proofs.StateChanges`: closing, accepting and the
read callback.  `step_changes` covers every event that can occur, so that an
invariant of the server is an invariant of each elementary change.
-/

namespace ChessServer

variable {u : SessionId}

/-! ## DestructResource -/

/-- A session leaves its board, wherever it sat. -/
theorem leaveCurrChessBoard_changes {env : Env} {s : UserSession}
    {w w' : World} (hseating : w.layout.Seating) (hs : w.users u = some s)
    (hstate : s.currChessBoard.isSome → s.stateMachine = some .gamePlay)
    (h : leaveCurrChessBoard env u w = some w') :
    Changes u w w' ∧ ∃ s', w'.users u = some s' ∧ s'.currChessBoard = none ∧
      ∀ b seat, (w'.boards b).seat seat ≠ some u := by
  have hp : w.layout.place u = some s.place := by simp [World.layout, hs]
  simp only [leaveCurrChessBoard, hs, Option.bind_eq_bind,
    Option.bind_some] at h
  cases hboard : s.currChessBoard with
  | none =>
      rw [hboard] at h
      cases h
      exact ⟨.refl w, s, hs, hboard, hseating.not_seated hp hboard⟩
  | some b =>
      rw [hboard] at h
      simp only [Option.bind_eq_some_iff] at h
      obtain ⟨w₁, hleave, h⟩ := h
      obtain ⟨seat, _, hseat, _⟩ := chair_eq hseating hs hboard
      have l := (leaveRoomHandle_leaves hseating hseat hleave).1
      have hu : w.InHall u := ⟨s, hs, Or.inr (hstate (by simp [hboard]))⟩
      have c₁ := leaveRoomHandle_changes hu hseating hseat hleave
      have hp₁ : w₁.layout.place u = some s.place := by
        rw [l.layout]
        exact hp
      simp only [World.layout, Option.map_eq_some_iff] at hp₁
      obtain ⟨s₁, hs₁, hplace⟩ := hp₁
      have hboard₁ : s₁.currChessBoard = some b :=
        (congrArg Place.currChessBoard hplace).trans hboard
      rw [modifyUser_eq hs₁] at h
      cases h
      have hgone := l.gone hseating hseat
      exact ⟨c₁.trans (.single (.clear hs₁ (by simp [hboard₁]) hgone)),
        _, setUser_users_self _ _ _, rfl, hgone⟩

/-- A session is destructed when it is on no board. -/
theorem destructResource_changes {env : Env} {s : UserSession} {w w' : World}
    (hseating : w.layout.Seating) (hs : w.users u = some s)
    (hstate : s.currChessBoard.isSome → s.stateMachine = some .gamePlay)
    (h : destructResource env u w = some w') : Changes u w w' := by
  simp only [destructResource, Option.bind_eq_bind,
    Option.bind_eq_some_iff] at h
  obtain ⟨w₁, hleave, h⟩ := h
  obtain ⟨c₁, s₁, hs₁, hboard, hgone⟩ :=
    leaveCurrChessBoard_changes hseating hs hstate hleave
  rw [modifyUser_eq hs₁] at h
  cases h
  exact c₁.trans (.single (.destruct hs₁ hboard hgone))

/-! ## The pool -/

/-- The last sessions of the pool are deleted. -/
theorem destrorySessionsFromPool_changes {env : Env} :
    ∀ (num : Nat) {w w' : World}, w.layout.Inv →
      destrorySessionsFromPool env num w = some w' → Changes u w w' := by
  intro num
  induction num with
  | zero =>
      intro w w' _ h
      cases h
      exact .refl w
  | succ num ih =>
      intro w w' hinv h
      unfold destrorySessionsFromPool at h
      split at h
      · cases h
        exact .refl w
      · rename_i v hlast
        simp only [Option.bind_eq_bind, Option.bind_eq_some_iff] at h
        obtain ⟨w₁, hdestruct, h⟩ := h
        obtain ⟨hpool, hlayout, _⟩ := trimOne_spec hinv hlast hdestruct
        obtain ⟨p, hp, hidle⟩ :=
          hinv.registry.pooled (List.mem_of_getLast? hlast)
        have hnot := hinv.seating.not_seated hp hidle.currChessBoard
        simp only [World.layout, Option.map_eq_some_iff] at hp
        obtain ⟨s, hs, rfl⟩ := hp
        rw [destructResource_standing _ hs hidle.currChessBoard] at hdestruct
        cases hdestruct
        have c₁ := Changes.single (u := u)
          (.destruct hs hidle.currChessBoard hnot)
        have c₂ := Changes.single (u := u)
          (.delete (w := w.setUser v s.destruct) (v := v) hlast)
        exact (c₁.trans c₂).trans (ih (hlayout ▸ hinv.trimOne) h)

theorem creatSessionsPool_changes (w : World) :
    ∀ num : Nat, Changes u w (creatSessionsPool num w) := by
  intro num
  induction num with
  | zero => exact .refl w
  | succ num ih => exact ih.trans (.single .construct)

/-! ## Connections -/

/-- The end of a connection, in elementary changes. -/
theorem closingClientCon_changes {env : Env} {fd : Int} {s : UserSession}
    {w w' : World} (hregistry : w.layout.Registry none)
    (hseating : w.layout.Seating) (hsettled : w.layout.Settled (some u))
    (hreg : w.layout.registry fd = some u) (hs : w.users u = some s)
    (hnext : s.stateMachine = none → s.nextState = none)
    (hstate : s.currChessBoard.isSome → s.stateMachine = some .gamePlay)
    (h : closingClientCon env fd w = some w') : Changes u w w' := by
  obtain ⟨_, hclosed⟩ := registered_open hregistry hreg hs
  unfold closingClientCon at h
  have hlookup : w.fdSessionMap[fd]? = some u := hreg
  rw [hlookup] at h
  simp only [recycleSession, Option.bind_eq_bind,
    Option.bind_eq_some_iff] at h
  obtain ⟨w₁, hdestruct, h⟩ := h
  have hlayout₀ := layout_erase w fd
  have hseating₀ : ({ w with fdSessionMap := w.fdSessionMap.erase fd } :
      World).layout.Seating := by
    rw [hlayout₀]
    exact ⟨hseating.seated, hseating.onBoard, hseating.count⟩
  have c := destructResource_closes hseating₀ hs hnext hclosed hdestruct
  have hlayout₁ : w₁.layout =
      ((w.layout.unregister fd).vacateAt (w.chair u)).modify u
        Place.reset := by
    rw [c.layout, hlayout₀]
    rfl
  have hinv₂ := recycled_inv hregistry hseating hsettled hreg hs hlayout₁
  have c₁ := Changes.single (u := u) (.unregister (w := w) fd)
  have c₂ := destructResource_changes hseating₀ hs hstate hdestruct
  have c₃ := Changes.single (u := u) (.recycle (w := w₁))
  refine ((c₁.trans c₂).trans c₃).trans ?_
  split at h
  · exact destrorySessionsFromPool_changes _ hinv₂ h
  · cases h
    exact .refl _

/-- Closing the connection of a session that is settled. -/
theorem closing_changes {env : Env} {fd : Int} {w w' : World}
    (hinv : w.layout.Inv) (hreg : w.layout.registry fd = some u)
    (h : closingClientCon env fd w = some w') : Changes u w w' := by
  obtain ⟨s, hs, _⟩ := registered_session hinv.registry hreg
  have hsettled := hinv.settled u s.place (by simp [World.layout, hs])
    (by simp)
  refine closingClientCon_changes hinv.registry hinv.seating
    hinv.settled.mono hreg hs (fun hnone => ?_) (fun hboard => ?_) h
  · have hnone' : s.place.stateMachine = none := hnone
    rw [Place.Settled, hnone'] at hsettled
    split at hsettled
    · cases hsettled.1
    · rcases hsettled with ⟨hnext, _⟩ | ⟨habsurd, _⟩
      · exact hnext
      · cases habsurd
  · have hboard' : s.place.currChessBoard.isSome := hboard
    rw [Place.Settled, if_pos hboard'] at hsettled
    exact hsettled.1

/-- A message, in elementary changes. -/
theorem messageHandle_changes {env : Env} {fd : Int} {msgType : UInt32}
    {msg : Bytes} {ret : Bool} {w w' : World} (hinv : w.layout.Inv)
    (hreg : w.layout.registry fd = some u)
    (h : messageHandle env fd msgType msg w = some (ret, w')) :
    Changes u w w' := by
  obtain ⟨s, hs, _, honline⟩ := registered_session hinv.registry hreg
  have hlookup : w.fdSessionMap[fd]? = some u := hreg
  simp only [messageHandle, hlookup, Option.bind_eq_bind,
    Option.bind_eq_some_iff] at h
  obtain ⟨⟨ok, w₁⟩, hmsg, h⟩ := h
  have hclifd : s.clifd ≠ -1 := fun hnone => by
    have hopen : 0 ≤ s.clifd := honline.clifd
    omega
  have c₁ := sessionMessageHandle_changes hinv.seating hs hclifd hmsg
  have hclose : ∀ {rejected}, Dismissed u w w₁ rejected →
      closingClientCon env fd w₁ = some w' → Changes u w w' := by
    intro rejected d hcl
    obtain ⟨s', hs', hsome, hboard, _, _, _, hkept⟩ := d.session s hs
    have hreg₁ : w₁.layout.registry fd = some u := by rw [d.registry, hreg]
    refine c₁.trans (closingClientCon_changes d.registryInv d.seating
      d.settled hreg₁ hs' (fun hnone => by simp [hnone] at hsome)
      (fun hseat => ?_) hcl)
    rw [hboard] at hseat
    have hsettled := hinv.settled u s.place (by simp [World.layout, hs])
      (by simp)
    have hseat' : s.place.currChessBoard.isSome := hseat
    rw [Place.Settled, if_pos hseat'] at hsettled
    exact (hkept hseat).trans hsettled.1
  rcases sessionMessageHandle_cases hinv hreg hs hmsg with
    ⟨rfl, _⟩ | ⟨rfl, _, d⟩ | ⟨rfl, _, _, d⟩
  · cases h
    exact c₁
  all_goals
    simp only [Bool.false_eq_true, if_false, Option.bind_eq_some_iff] at h
    obtain ⟨w₂, hcl, h⟩ := h
    cases h
    exact hclose d hcl

/-- The first session of the pool serves the descriptor. -/
theorem notifyAddEvent_changes {fd : Int} {w w' : World} (hfd : 0 ≤ fd)
    (h : notifyAddEvent fd w = some w') : ∃ u, Changes u w w' := by
  simp only [notifyAddEvent, Option.bind_eq_bind,
    Option.bind_eq_some_iff] at h
  obtain ⟨⟨u, w₁⟩, hget, w₂, hset, h⟩ := h
  cases h
  obtain ⟨rest, hpool, rfl⟩ := getOneSessionFromPool_eq hget
  simp only [World.modifyUser, Option.map_eq_some_iff] at hset
  obtain ⟨s, hs, rfl⟩ := hset
  have c : Changes u w w.filled := by
    unfold World.filled
    split
    · exact creatSessionsPool_changes w connectionMaxStep
    · exact .refl w
  exact ⟨u, c.trans (.single (.serve hfd hpool hs))⟩

/-! ## Events -/

/-- Every event that can occur is a sequence of changes. -/
theorem step_changes {env : Env} {e : Event} {w w' : World}
    (hinv : w.layout.Inv) (henabled : e.Enabled w)
    (h : World.step env e w = some w') : ∃ u, Changes u w w' := by
  cases e with
  | accept fd => exact notifyAddEvent_changes henabled.1 h
  | read u data =>
      obtain ⟨s, hs, hbuf⟩ := henabled
      have hreg := enabled_registered hinv hs (Or.inl hbuf)
      obtain ⟨input, hinput⟩ := Option.ne_none_iff_exists'.mp hbuf
      obtain ⟨p, hp, _, honline⟩ := hinv.registry.registered hreg
      rw [show w.layout.place u = some s.place by simp [World.layout, hs],
        Option.some.injEq] at hp
      subst hp
      obtain ⟨w₁, info, hb, _, _, hstep⟩ :=
        read_step env data hs hinput honline.thread
      rw [hstep] at h
      have hinv₁ := hb.inv hinv hreg
      have hreg₁ : w₁.layout.registry s.clifd = some u := by
        rw [hb.registry, hreg]
      refine ⟨u, hb.changes.trans ?_⟩
      cases hrecv : w.received u data with
      | waiting =>
          rw [hrecv] at h
          cases h
          exact .refl _
      | refused =>
          rw [hrecv] at h
          exact closing_changes hinv₁ hreg₁ h
      | broken =>
          rw [hrecv] at h
          cases h
      | message msgType msg =>
          rw [hrecv] at h
          simp only [World.handleReceived, Option.bind_eq_bind,
            Option.bind_eq_some_iff] at h
          obtain ⟨⟨ret, w₂⟩, hmsg, h⟩ := h
          have c₁ := messageHandle_changes hinv₁ hreg₁ hmsg
          cases ret with
          | false =>
              cases h
              exact c₁
          | true =>
              simp only [if_true, World.modifyUser,
                Option.map_eq_some_iff] at h
              obtain ⟨s₂, hs₂, rfl⟩ := h
              exact c₁.trans (.single (.receive s₂.bufev {} hs₂))
  | event u events =>
      obtain ⟨s, hs, hbuf⟩ := henabled
      have hreg := enabled_registered hinv hs (Or.inl hbuf)
      simp only [World.step, onEventCb, hs, Option.bind_eq_bind,
        Option.bind_some, Option.bind_eq_some_iff] at h
      obtain ⟨_, _, h⟩ := h
      split at h
      · exact ⟨u, closing_changes hinv hreg h⟩
      · cases h
        exact ⟨u, .refl w⟩
  | timer u =>
      obtain ⟨s, hs, hclifd⟩ := henabled
      have hreg := enabled_registered hinv hs (Or.inr hclifd)
      simp only [World.step, timerOutHandle, hs, Option.bind_eq_bind,
        Option.bind_some, Option.bind_eq_some_iff] at h
      obtain ⟨_, _, h⟩ := h
      exact ⟨u, closing_changes hinv hreg h⟩

end ChessServer
