import ChessServer.Model.Client
import ChessServer.Proofs.Aside
import ChessServer.Results.Registry

/-!
# Strangers

A client that is not in the hall yet (it has not logged in, or has not seen
the last picture) cannot be noticed by anybody else, whatever it sends and
however it leaves (`strangers_unnoticed`).
-/

namespace ChessServer

variable {env : Env} {u : SessionId} {s : UserSession} {w w' : World}

/-- The session whose event it is. -/
def Event.session : Event → Option SessionId
  | .accept _ => none
  | .read u _ | .event u _ | .timer u => some u

/-- What is left of an event of `u` for everybody else. -/
structure Unnoticed (u : SessionId) (w w' : World) : Prop where
  boards : w'.boards = w.boards
  halls : w'.halls = w.halls
  others : ∀ (v : SessionId) (fd : Int), v ≠ u → w.fdSessionMap[fd]? = some v →
    w'.fdSessionMap[fd]? = some v ∧ w'.users v = w.users v
  sent : ∃ new, w'.sent = new ++ w.sent ∧ ∀ m ∈ new, m.user = u
  sqlLog : ∃ new, w'.sqlLog = new ++ w.sqlLog ∧
    ∀ sql ∈ new, isUpdate sql = false

/-! ## Closing -/

/-- A connection was closed whose session was on no board. -/
structure Retired (u : SessionId) (fd : Int) (w w' : World) : Prop where
  boards : w'.boards = w.boards
  halls : w'.halls = w.halls
  fdSessionMap : w'.fdSessionMap = w.fdSessionMap.erase fd
  sent : w'.sent = w.sent
  sqlLog : w'.sqlLog = w.sqlLog
  users : ∀ v, v ≠ u → v ∉ w.sessionList → w'.users v = w.users v

theorem destrorySessionsFromPool_stands {num : Nat} (hpool : w.PoolStands)
    (h : destrorySessionsFromPool env num w = some w') :
    w'.boards = w.boards ∧ w'.halls = w.halls ∧
      w'.fdSessionMap = w.fdSessionMap ∧ w'.sent = w.sent ∧
      w'.sqlLog = w.sqlLog ∧
      ∀ v, v ∉ w.sessionList → w'.users v = w.users v := by
  induction num generalizing w with
  | zero =>
      cases h
      exact ⟨rfl, rfl, rfl, rfl, rfl, fun _ _ => rfl⟩
  | succ num ih =>
      unfold destrorySessionsFromPool at h
      split at h
      · cases h
        exact ⟨rfl, rfl, rfl, rfl, rfl, fun _ _ => rfl⟩
      · rename_i x hlast
        simp only [Option.bind_eq_bind, Option.bind_eq_some_iff] at h
        obtain ⟨w₁, hdestruct, h⟩ := h
        have hmem : x ∈ w.sessionList := List.mem_of_getLast? hlast
        cases ht : w.users x with
        | none =>
            simp only [destructResource, leaveCurrChessBoard, ht,
              Option.bind_eq_bind, Option.bind_none] at hdestruct
            cases hdestruct
        | some t =>
            rw [destructResource_standing _ ht (hpool x hmem t ht)] at hdestruct
            cases hdestruct
            have husers : ∀ v, v ≠ x → ((w.setUser x t.destruct).deleteSession
                x).users v = w.users v := by
              intro v hv
              simp [World.deleteSession, World.setUser, hv]
            obtain ⟨hboards, hhalls, hmap, hsent, hsql, hrest⟩ := ih
              (fun y hy t' ht' => by
                by_cases hyx : y = x
                · subst hyx
                  simp [World.deleteSession] at ht'
                · refine hpool y (List.dropLast_subset _ hy) t' ?_
                  rw [← husers y hyx]
                  exact ht') h
            refine ⟨hboards, hhalls, hmap, hsent, hsql, fun v hv => ?_⟩
            have hvx : v ≠ x := by
              rintro rfl
              exact hv hmem
            rw [hrest v fun hdrop => hv (List.dropLast_subset _ hdrop)]
            exact husers v hvx

theorem destruct_stands (hboard : s.currChessBoard = none) :
    s.destruct.currChessBoard = none := by
  rw [destruct_eq]
  exact hboard

theorem closingClientCon_retired {fd : Int}
    (hlookup : w.fdSessionMap[fd]? = some u) (hs : w.users u = some s)
    (hboard : s.currChessBoard = none) (hpool : w.PoolStands)
    (h : closingClientCon env fd w = some w') : Retired u fd w w' := by
  unfold closingClientCon at h
  rw [hlookup] at h
  simp only [recycleSession, Option.bind_eq_bind,
    Option.bind_eq_some_iff] at h
  obtain ⟨w₁, hdestruct, h⟩ := h
  rw [destructResource_standing _ (by exact hs) hboard] at hdestruct
  injection hdestruct with hdestruct
  subst hdestruct
  have husers : ∀ v, v ≠ u → (Function.update w.users u
      (some s.destruct)) v = w.users v := fun v hv =>
    Function.update_of_ne hv _ _
  split at h
  · obtain ⟨hboards, hhalls, hmap, hsent, hsql, hrest⟩ :=
      destrorySessionsFromPool_stands (fun x hx t ht => by
        by_cases hxu : x = u
        · subst hxu
          have hself : Function.update w.users x (some s.destruct) x = some t :=
            ht
          rw [Function.update_self, Option.some.injEq] at hself
          rw [← hself]
          exact destruct_stands hboard
        · refine hpool x ?_ t ((husers x hxu).symm.trans ht)
          exact (List.mem_cons.mp hx).resolve_left hxu) h
    refine ⟨hboards, hhalls, hmap, hsent, hsql, fun v hv hout => ?_⟩
    rw [hrest v fun hmem => ?_]
    · exact husers v hv
    · rcases List.mem_cons.mp hmem with heq | hin
      · exact hv heq
      · exact hout hin
  · cases h
    exact ⟨rfl, rfl, rfl, rfl, rfl, fun v hv _ => husers v hv⟩

/-! ## Unnoticed -/

theorem Aside.unnoticed (h : Aside u w w') : Unnoticed u w w' :=
  ⟨h.boards, h.halls, fun v fd hv hreg =>
    ⟨by rw [h.fdSessionMap, hreg], h.users v hv⟩, h.sent, h.sqlLog⟩

theorem Buffers.aside (h : Buffers u w w') : Aside u w w' :=
  ⟨h.users, h.boards, h.halls, h.fdSessionMap,
    ⟨[], by rw [h.sent, List.nil_append], by simp⟩,
    ⟨[], by rw [h.sqlLog, List.nil_append], by simp⟩⟩

/-- The connection is closed after that. -/
theorem Aside.retired {fd : Int} {w₁ : World} (h : Aside u w w₁)
    (hinv : w.layout.Inv) (hreg : w.layout.registry fd = some u)
    (hlist : w₁.sessionList = w.sessionList)
    (hs : w₁.users u = some s) (hboard : s.currChessBoard = none)
    (hclose : closingClientCon env fd w₁ = some w') : Unnoticed u w w' := by
  have hlookup : w₁.fdSessionMap[fd]? = some u := by
    rw [h.fdSessionMap]
    exact hreg
  have hpool : w₁.PoolStands := by
    intro x hx t ht
    rw [hlist] at hx
    have hxu : x ≠ u := by
      rintro rfl
      exact hinv.registry.not_mem_pool hreg hx
    rw [h.users x hxu] at ht
    obtain ⟨p, hp, hidle⟩ := hinv.registry.pooled (u := x) hx
    simp only [World.layout, ht, Option.map_some, Option.some.injEq] at hp
    subst hp
    exact hidle.currChessBoard
  have r := closingClientCon_retired hlookup hs hboard hpool hclose
  refine ⟨r.boards.trans h.boards, r.halls.trans h.halls,
    fun v k hv hk => ⟨?_, ?_⟩, ?_, ?_⟩
  · rw [r.fdSessionMap, h.fdSessionMap]
    have hkfd : k ≠ fd := by
      rintro rfl
      have hreg' : w.fdSessionMap[k]? = some u := hreg
      rw [hk] at hreg'
      exact hv (Option.some.inj hreg')
    rw [Std.TreeMap.getElem?_erase,
      if_neg (by simpa [compare_eq_iff_eq] using Ne.symm hkfd), hk]
  · have hout : v ∉ w₁.sessionList := by
      rw [hlist]
      exact hinv.registry.not_mem_pool hk
    rw [r.users v hv hout, h.users v hv]
  · rw [r.sent]
    exact h.sent
  · rw [r.sqlLog]
    exact h.sqlLog

/-! ## Any event -/

/-- Who is in none of the two later states is on no board. -/
theorem early_stands (hsettled : s.place.Settled)
    (hearly : s.state = .auth ∨ s.state = .downAd) :
    s.currChessBoard = none := by
  refine standing_of_settled hsettled fun hplay => ?_
  rw [UserSession.state, hplay] at hearly
  rcases hearly with h | h
  · cases h
  · cases h

theorem closing_unnoticed {fd : Int} {w₁ : World} (hinv : w.layout.Inv)
    (hreg : w.layout.registry fd = some u) (hs : w.users u = some s)
    (hboard : s.currChessBoard = none) (hb : Buffers u w w₁)
    (h : closingClientCon env fd w₁ = some w') : Unnoticed u w w' := by
  obtain ⟨s₁, hs₁, hcore⟩ := hb.session s hs
  obtain ⟨_, _, _, hboard₁, _⟩ := core_eq hcore
  exact hb.aside.retired hinv hreg hb.sessionList hs₁ (hboard₁.trans hboard) h

theorem message_unnoticed {fd : Int} {msgType : UInt32} {msg : Bytes}
    {ret : Bool} {w₁ w₂ : World} (hinv : w.layout.Inv)
    (hreg : w.layout.registry fd = some u) (hs : w.users u = some s)
    (hearly : s.state = .auth ∨ s.state = .downAd)
    (hboard : s.currChessBoard = none) (hb : Buffers u w w₁)
    (hmsg : messageHandle env fd msgType msg w₁ = some (ret, w₂))
    (h : (if ret then (w₂.modifyUser u fun s => { s with bufInfo := {} })
      else some w₂) = some w') : Unnoticed u w w' := by
  have hinv₁ := hb.inv hinv hreg
  have hreg₁ : w₁.layout.registry fd = some u := by rw [hb.registry, hreg]
  obtain ⟨s₁, hs₁, hcore⟩ := hb.session s hs
  obtain ⟨_, _, _, hboard₁, hstate, _⟩ := core_eq hcore
  have hlookup : w₁.fdSessionMap[fd]? = some u := hreg₁
  simp only [messageHandle, hlookup, Option.bind_eq_bind,
    Option.bind_eq_some_iff] at hmsg
  obtain ⟨⟨ok, w₃⟩, hsession, hmsg⟩ := hmsg
  have ha : Aside u w w₃ := hb.aside.trans
    (sessionMessageHandle_aside hs₁
      (by rw [UserSession.state, hstate]; exact hearly) hsession)
  cases ok with
  | true =>
      cases hmsg
      exact (ha.trans (modifyUser_aside h)).unnoticed
  | false =>
      simp only [Bool.false_eq_true, if_false, Option.bind_eq_some_iff] at hmsg
      obtain ⟨w₄, hclose, hmsg⟩ := hmsg
      cases hmsg
      cases h
      rcases sessionMessageHandle_cases hinv₁ hreg₁ hs₁ hsession with
        ⟨hret, _⟩ | hdismissed
      · cases hret
      · obtain ⟨_, d⟩ : ∃ rejected, Dismissed u w₁ w₃ rejected := by
          rcases hdismissed with ⟨_, _, d⟩ | ⟨_, _, _, d⟩
          · exact ⟨_, d⟩
          · exact ⟨_, d⟩
        obtain ⟨s₃, hs₃, _, hboard₃, _⟩ := d.session s₁ hs₁
        have hlist : w₃.sessionList = w.sessionList :=
          Eq.trans (show w₃.sessionList = w₁.sessionList from d.pool)
            hb.sessionList
        exact ha.retired hinv hreg hlist hs₃
          (hboard₃.trans (hboard₁.trans hboard)) hclose

/-- Whoever has not logged in, or not seen the last picture, is on no board. -/
theorem early_seatless (hinv : w.layout.Inv) (hs : w.users u = some s)
    (hearly : s.state = .auth ∨ s.state = .downAd) (b : BoardPtr)
    (seat : Seat) : (w.boards b).seat seat ≠ some u := by
  have hplace : w.layout.place u = some s.place := by simp [World.layout, hs]
  have hboard := early_stands (hinv.settled u _ hplace (by simp)) hearly
  exact hinv.seating.not_seated hplace hboard b seat

/-- The step lemma. -/
theorem early_unnoticed {e : Event} (hinv : w.layout.Inv)
    (henabled : e.Enabled w) (hsession : e.session = some u)
    (hs : w.users u = some s) (hearly : s.state = .auth ∨ s.state = .downAd)
    (h : World.step env e w = some w') : Unnoticed u w w' := by
  have hplace : w.layout.place u = some s.place := by simp [World.layout, hs]
  have hboard := early_stands (hinv.settled u _ hplace (by simp)) hearly
  cases e with
  | accept fd => cases hsession
  | read v data =>
      cases hsession
      obtain ⟨t, ht, hbuf⟩ := henabled
      rw [hs, Option.some.injEq] at ht
      subst ht
      have hreg := enabled_registered hinv hs (Or.inl hbuf)
      obtain ⟨input, hinput⟩ := Option.ne_none_iff_exists'.mp hbuf
      obtain ⟨t, ht, _, honline⟩ := registered_session hinv.registry hreg
      rw [hs, Option.some.injEq] at ht
      subst ht
      obtain ⟨w₁, info, hb, _, _, hstep⟩ :=
        read_step env data hs hinput honline.thread
      rw [hstep] at h
      cases hrecv : w.received u data with
      | waiting =>
          rw [hrecv] at h
          cases h
          exact hb.aside.unnoticed
      | refused =>
          rw [hrecv] at h
          exact closing_unnoticed hinv hreg hs hboard hb h
      | broken =>
          rw [hrecv] at h
          cases h
      | message msgType msg =>
          rw [hrecv] at h
          simp only [World.handleReceived, Option.bind_eq_bind,
            Option.bind_eq_some_iff] at h
          obtain ⟨⟨ret, w₂⟩, hmsg, h⟩ := h
          exact message_unnoticed hinv hreg hs hearly hboard hb hmsg h
  | event v events =>
      cases hsession
      obtain ⟨t, ht, hbuf⟩ := henabled
      rw [hs, Option.some.injEq] at ht
      subst ht
      have hreg := enabled_registered hinv hs (Or.inl hbuf)
      simp only [World.step, onEventCb, hs, Option.bind_eq_bind,
        Option.bind_some, Option.bind_eq_some_iff] at h
      obtain ⟨_, _, h⟩ := h
      split at h
      · exact closing_unnoticed hinv hreg hs hboard (Buffers.refl u w) h
      · cases h
        exact (Aside.refl u w).unnoticed
  | timer v =>
      cases hsession
      obtain ⟨t, ht, hclifd⟩ := henabled
      rw [hs, Option.some.injEq] at ht
      subst ht
      have hreg := enabled_registered hinv hs (Or.inr hclifd)
      simp only [World.step, timerOutHandle, hs, Option.bind_eq_bind,
        Option.bind_some, Option.bind_eq_some_iff] at h
      obtain ⟨_, _, h⟩ := h
      exact closing_unnoticed hinv hreg hs hboard (Buffers.refl u w) h

/-- In every state that is reached, whatever happens to a session that is not
in the hall yet leaves all boards, halls and other sessions as they are, is
answered to that session alone, and updates nothing in the database. -/
theorem strangers_unnoticed {e : Event} (hreach : (server env).Reachable w)
    (henabled : e.Enabled w) (hsession : e.session = some u)
    (hs : w.users u = some s) (hearly : s.state = .auth ∨ s.state = .downAd)
    (h : World.step env e w = some w') :
    (∀ b seat, (w.boards b).seat seat ≠ some u) ∧ Unnoticed u w w' := by
  have hinv := reachable_inv hreach
  exact ⟨early_seatless hinv hs hearly,
    early_unnoticed hinv henabled hsession hs hearly h⟩

/-- A new connection sends a move while somebody else is in the hall. -/
theorem strangers_unnoticed_move : ∃ w w',
    World.step Client.env (.read 0 (Client.capture .left .right)) w = some w' ∧
      (∀ b seat, (w.boards b).seat seat ≠ some 0) ∧ Unnoticed 0 w w' := by
  obtain ⟨w, hreach, htest⟩ := Client.reachable_after (fun _ _ => True)
    [ .accept 10, .accept 11, .read 1 (Client.login "a")
    , .read 1 Client.adImageReq ]
    (fun w =>
      decide (Event.Enabled w (.read 0 (Client.capture .left .right))) &&
      ((w.users 0).any fun s : UserSession => decide (s.state = .auth)) &&
      (World.step Client.env (.read 0 (Client.capture .left .right)) w).isSome)
    (by decide +kernel)
  rw [Bool.and_eq_true, Bool.and_eq_true] at htest
  obtain ⟨⟨henabled, hauth⟩, hsome⟩ := htest
  obtain ⟨s, hs, hauth⟩ := (Option.any_eq_true _ _).mp hauth
  obtain ⟨w', hstep⟩ := Option.isSome_iff_exists.mp hsome
  exact ⟨w, w', hstep, strangers_unnoticed hreach (of_decide_eq_true henabled)
    rfl hs (Or.inl (of_decide_eq_true hauth)) hstep⟩

end ChessServer
