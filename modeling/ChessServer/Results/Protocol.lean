import ChessServer.Model.Client
import ChessServer.Proofs.Badges

/-!
# The protocol of a session

Every connection starts without an account and in the first state.  From there
each event moves it on by at most one state, in the fixed order, and out of the
first state by a login only: the session's account is from then on the one in
the row whose password was sent (`session_protocol`).
-/

namespace ChessServer

variable {env : Env} {states : Nat → World} {events : Nat → Event}
  {v : SessionId} {fd : Int} {i n : Nat}

/-- What a connection has been through since the event that accepted it and
led to the state `i`. -/
structure Journey (env : Env) (states : Nat → World) (events : Nat → Event)
    (v : SessionId) (fd : Int) (i n : Nat) : Prop where
  le : i ≤ n
  accepted : ∃ k, i = k + 1 ∧ events k = .accept fd ∧
    (states k).fdSessionMap[fd]? ≠ some v
  new : (states i).badge v = some (.auth, [])
  registered : ∀ j, i ≤ j → j ≤ n → (states j).fdSessionMap[fd]? = some v
  passes : ∀ j, i ≤ j → j < n → ∃ p p', (states j).badge v = some p ∧
    (states (j + 1)).badge v = some p' ∧
    (states j).Passes env (events j) v p p'

/-- A session without an account in the first state, and past it with the
account of the row by which a login since the state `i` was let in. -/
def Vouched (env : Env) (states : Nat → World) (events : Nat → Event)
    (v : SessionId) (i j : Nat) : Prop :=
  ∃ state account, (states j).badge v = some (state, account) ∧
    (state = .auth → account = []) ∧
    (state ≠ .auth → ∃ k login row, i ≤ k ∧ k < j ∧
      (states k).loginOf env (events k) = some (v, login) ∧
      (states k).Admits env login row ∧ account = row.account)

/-! ## Nobody has an account before the login -/

theorem successor_ne_auth (state : StateType) : state.successor ≠ .auth := by
  cases state <;> decide

theorem Staged.anonymous {e : Event} {w w' : World} (h : Staged env e w w')
    (hanon : w.Anonymous) : w'.Anonymous := by
  intro v account hbadge
  by_cases hlive : ∃ fd, w.layout.registry fd = some v ∧
      w'.layout.registry fd = some v
  · obtain ⟨fd, hreg, hreg'⟩ := hlive
    obtain ⟨p, p', hp, hp', hpasses⟩ := h.live v fd hreg hreg'
    rw [hbadge] at hp'
    injection hp' with hp'
    subst hp'
    generalize hq : ((.auth, account) : StateType × Bytes) = q at hpasses
    cases hpasses with
    | stay =>
        subst hq
        exact hanon v account hp
    | switch hstate =>
        injection hq with hstate' _
        exact absurd hstate'.symm (successor_ne_auth _)
    | refused =>
        injection hq
    | login =>
        injection hq with hstate' _
        cases hstate'
  · have hp := h.rest v _ (fun fd hreg hreg' => hlive ⟨fd, hreg, hreg'⟩) hbadge
    injection hp

theorem reachable_anonymous {ok : Event → World → Prop} {w : World}
    (h : (server env).ReachableWith ok w) : w.Anonymous :=
  h.invariant_of (I := World.Anonymous) (J := fun w => w.layout.Inv)
    reachable_inv (fun _ _ hp => by cases hp)
    fun hinv hanon henabled _ hstep =>
      (step_staged hinv hanon henabled hstep).anonymous hanon

/-! ## One connection -/

theorem Journey.extend (h : Journey env states events v fd i n)
    (hreg : (states (n + 1)).fdSessionMap[fd]? = some v)
    (hstaged : Staged env (events n) (states n) (states (n + 1))) :
    Journey env states events v fd i (n + 1) := by
  refine ⟨Nat.le_succ_of_le h.le, h.accepted, h.new, fun j hi hj => ?_,
    fun j hi hj => ?_⟩
  · rcases Nat.lt_or_eq_of_le hj with hlt | heq
    · exact h.registered j hi (by omega)
    · rw [heq]
      exact hreg
  · rcases Nat.lt_or_eq_of_le (Nat.le_of_lt_succ hj) with hlt | heq
    · exact h.passes j hi hlt
    · rw [heq]
      exact hstaged.live v fd (h.registered n h.le (Nat.le_refl n)) hreg

/-- Every connection that is open has been accepted. -/
theorem exists_journey (h : (server env).History states events n)
    (hreg : (states n).fdSessionMap[fd]? = some v) :
    ∃ i, Journey env states events v fd i n := by
  induction n with
  | zero =>
      rw [h.start] at hreg
      cases hreg
  | succ n ih =>
      have hprefix : (server env).History states events n :=
        ⟨h.start, fun j hj => h.next j (by omega)⟩
      have hreach := hprefix.reachable (Nat.le_refl n)
      have hinv := reachable_inv hreach
      obtain ⟨henabled, hstep⟩ := h.next n (Nat.lt_succ_self n)
      have hstaged := step_staged hinv (reachable_anonymous hreach) henabled
        hstep
      by_cases hold : (states n).fdSessionMap[fd]? = some v
      · obtain ⟨i, hjourney⟩ := ih hprefix hold
        exact ⟨i, hjourney.extend hreg hstaged⟩
      · -- the connection is new
        have hinv' := (step_spec hinv henabled hstep).inv
        obtain ⟨p, hp⟩ := registered_badge hinv'.registry hreg
        have hnew : p = (.auth, []) := by
          refine hstaged.rest v p (fun k hk hk' => ?_) hp
          obtain ⟨s, hs, hclifd, _⟩ := registered_session hinv'.registry hreg
          obtain ⟨t, ht, hclifd', _⟩ := registered_session hinv'.registry hk'
          rw [hs, Option.some.injEq] at ht
          subst ht
          rw [← hclifd', hclifd] at hk
          exact hold hk
        refine ⟨n + 1, Nat.le_refl _,
          ⟨n, rfl, hstaged.opened v fd hold hreg, hold⟩, by rw [hp, hnew],
          fun j hi hj => ?_, fun j hi hj => by omega⟩
        obtain rfl : j = n + 1 := by omega
        exact hreg

/-- One step of a connection keeps its account vouched for. -/
theorem Vouched.step {j : Nat} {p p' : StateType × Bytes}
    (h : Vouched env states events v i j) (hij : i ≤ j)
    (hp : (states j).badge v = some p)
    (hp' : (states (j + 1)).badge v = some p')
    (hpasses : (states j).Passes env (events j) v p p') :
    Vouched env states events v i (j + 1) := by
  obtain ⟨state, account, hbadge, hauth, hpast⟩ := h
  rw [hbadge, Option.some.injEq] at hp
  subst hp
  have hlater : state ≠ .auth → ∃ k login row, i ≤ k ∧ k < j + 1 ∧
      (states k).loginOf env (events k) = some (v, login) ∧
      (states k).Admits env login row ∧ account = row.account := by
    intro hstate
    obtain ⟨k, login, row, hik, hkj, hrest⟩ := hpast hstate
    exact ⟨k, login, row, hik, by omega, hrest⟩
  cases hpasses with
  | stay => exact ⟨state, account, hp', hauth, hlater⟩
  | switch hstate =>
      exact ⟨_, account, hp', fun h => absurd h (successor_ne_auth _),
        fun _ => hlater hstate⟩
  | refused => exact ⟨.auth, [], hp', fun _ => rfl, fun h => absurd rfl h⟩
  | login hlogin hadmits =>
      exact ⟨.downAd, _, hp', fun h => absurd h (by decide),
        fun _ => ⟨j, _, _, hij, by omega, hlogin, hadmits, rfl⟩⟩

theorem Journey.vouched (h : Journey env states events v fd i n) {j : Nat}
    (hi : i ≤ j) (hj : j ≤ n) : Vouched env states events v i j := by
  induction j, hi using Nat.le_induction with
  | base => exact ⟨.auth, [], h.new, fun _ => rfl, fun h => absurd rfl h⟩
  | succ j hi ih =>
      obtain ⟨p, p', hp, hp', hpasses⟩ := h.passes j hi (by omega)
      exact (ih (by omega)).step hi hp hp' hpasses

/-- In every run, an open connection has moved along the protocol since it was
accepted, and it is past its first state by a login alone. -/
theorem session_protocol (h : (server env).History states events n)
    (hreg : (states n).fdSessionMap[fd]? = some v) :
    ∃ i, Journey env states events v fd i n ∧
      ∀ j, i ≤ j → j ≤ n → Vouched env states events v i j := by
  obtain ⟨i, hjourney⟩ := exists_journey h hreg
  exact ⟨i, hjourney, fun j hi hj => hjourney.vouched hi hj⟩

/-- A user who has logged in and seen the last picture. -/
theorem session_protocol_of_login : ∃ states events,
    (states 3).badge 0 = some (.gameReady, lit "a") ∧
      ∃ i, Journey Client.env states events 0 10 i 3 ∧
        ∀ j, i ≤ j → j ≤ 3 → Vouched Client.env states events 0 i j := by
  obtain ⟨states, events, hist, _, _, _, _, hend⟩ := Client.history_after
    (fun _ _ => True) (fun _ _ => True)
    [.accept 10, .read 0 (Client.login "a"), .read 0 Client.adImageReq] []
    (fun _ => true)
    (fun w => decide (w.badge 0 = some (.gameReady, lit "a")) &&
      decide (w.fdSessionMap[(10 : Int)]? = some 0))
    (by decide +kernel)
  rw [Bool.and_eq_true] at hend
  exact ⟨states, events, of_decide_eq_true hend.1,
    session_protocol hist (of_decide_eq_true hend.2)⟩

end ChessServer
