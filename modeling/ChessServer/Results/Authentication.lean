import ChessServer.Proofs.Auth
import ChessServer.Results.Protocol
import ChessServer.Results.Scores
import ChessServer.Results.Strangers

/-!
# Nothing without a login

A session that has not logged in is seated nowhere, updates nothing, and its
score changes with nothing but its own login, which may be refused and still
leave the score of the row (`nothing_without_login`).
-/

namespace ChessServer

variable {env : Env} {states : Nat → World} {events : Nat → Event}
  {v : SessionId} {n : Nat}

/-- What an event has to do with a session that has not logged in. -/
structure World.Bars (env : Env) (e : Event) (v : SessionId) (w w' : World) :
    Prop where
  /-- it updates nothing -/
  sqlLog : e.session = some v → ∃ new, w'.sqlLog = new ++ w.sqlLog ∧
    ∀ sql ∈ new, isUpdate sql = false
  /-- while the connection is open the score stays, or is the one in the row
  that a login of the session itself looks up -/
  score : ∀ (fd k : Int) (s s' : UserSession), w.fdSessionMap[fd]? = some v →
    w'.fdSessionMap[k]? = some v → w.users v = some s →
    w'.users v = some s' → s'.userInfo.score = s.userInfo.score ∨
      ∃ login row, w.loginOf env e = some (v, login) ∧
        w.userRow env login.account = some row ∧
        row.score.map Int32.toUInt32 = some s'.userInfo.score

/-- The step lemma. -/
theorem step_bars {e : Event} {s : UserSession} {w w' : World}
    (hinv : w.layout.Inv) (henabled : e.Enabled w) (hs : w.users v = some s)
    (hauth : s.state = .auth) (h : World.step env e w = some w') :
    World.Bars env e v w w' := by
  refine ⟨fun hsession => (early_unnoticed hinv henabled hsession hs
    (Or.inl hauth) h).sqlLog, fun fd k t s' hreg hreg' ht hs' => ?_⟩
  rw [hs, Option.some.injEq] at ht
  subst ht
  have hplace : w.layout.place v = some s.place := by simp [World.layout, hs]
  have hboard := early_stands (hinv.settled v _ hplace (by simp))
    (Or.inl hauth)
  by_cases hown : ∃ data, e = .read v data
  · obtain ⟨data, rfl⟩ := hown
    rcases read_score hinv henabled hs hauth hs' hreg' h with
      hsame | ⟨login, hlogin, hsame | ⟨row, hrow, hscore⟩⟩
    · exact Or.inl hsame
    · exact Or.inl hsame
    · exact Or.inr ⟨login, row, hlogin, hrow, hscore⟩
  · -- nobody else has a call for a session without a chair
    have hscore := (step_spec hinv henabled h).scores v fd k s s' hreg hreg' hs
      hs' fun data he => absurd ⟨data, he⟩ hown
    rw [World.scoreCalls, actCalls_standing (chair_none hs hboard)] at hscore
    exact Or.inl (UInt32.toBitVec_inj.mp hscore)

/-- In every run every open connection has moved along the protocol since it
was accepted, past its first state by a login alone; and a session in the first
state has no seat, updates nothing, and keeps its score but for its own
logins. -/
theorem nothing_without_login (h : (server env).History states events n) :
    (∀ m fd v, m ≤ n → (states m).fdSessionMap[fd]? = some v →
      ∃ i, Journey env states events v fd i m ∧
        ∀ j, i ≤ j → j ≤ m → Vouched env states events v i j) ∧
    ∀ m v s, m ≤ n → (states m).users v = some s → s.state = .auth →
      (∀ b seat, ((states m).boards b).seat seat ≠ some v) ∧
      (m < n → World.Bars env (events m) v (states m) (states (m + 1))) := by
  refine ⟨fun m fd v hm hreg => ?_, fun m v s hm hs hauth => ?_⟩
  · have hprefix : (server env).History states events m :=
      ⟨h.start, fun j hj => h.next j (by omega)⟩
    obtain ⟨i, hjourney⟩ := exists_journey hprefix hreg
    exact ⟨i, hjourney, fun j hi hj => hjourney.vouched hi hj⟩
  · have hinv := reachable_inv (h.reachable hm)
    refine ⟨early_seatless hinv hs (Or.inl hauth), fun hlt => ?_⟩
    obtain ⟨henabled, hstep⟩ := h.next m hlt
    exact step_bars hinv henabled hs hauth hstep

/-- A login as `a` with a wrong password. -/
def wrongPassword : Bytes :=
  Client.message .login [(1, .bytes (lit "a")), (2, .bytes (lit "q"))]

/-- One user gets to the hall at the second try, while another client sends a
wrong password. -/
theorem nothing_without_login_two : ∃ states events,
    (∃ i, Journey Client.env states events 0 10 i 6 ∧
      ∀ j, i ≤ j → j ≤ 6 → Vouched Client.env states events 0 i j) ∧
    (states 6).badge 0 = some (.gameReady, lit "a") ∧
    (∀ b seat, ((states 5).boards b).seat seat ≠ some 1) ∧
    World.Bars Client.env (events 5) 1 (states 5) (states 6) := by
  obtain ⟨states, events, hist, _, _, _, hauth, hend⟩ := Client.history_after
    (fun _ _ => True) (fun _ _ => True)
    [ .accept 10, .read 0 wrongPassword, .read 0 (Client.login "a")
    , .accept 11, .read 0 Client.adImageReq ]
    [.read 1 wrongPassword]
    (fun w => (w.users 1).any fun s : UserSession => decide (s.state = .auth))
    (fun w => decide (w.badge 0 = some (.gameReady, lit "a")) &&
      decide (w.fdSessionMap[(10 : Int)]? = some 0))
    (by decide +kernel)
  rw [Bool.and_eq_true] at hend
  obtain ⟨s, hs, hauth⟩ := (Option.any_eq_true _ _).mp hauth
  obtain ⟨hjourney, hbars⟩ := nothing_without_login hist
  obtain ⟨hseat, hstep⟩ := hbars 5 1 s (by decide) hs (of_decide_eq_true hauth)
  exact ⟨states, events, hjourney 6 10 0 (Nat.le_refl 6)
    (of_decide_eq_true hend.2), of_decide_eq_true hend.1, hseat,
    hstep (by decide)⟩

/-- A wrong password leaves the score of the row in the session. -/
theorem wrong_password_moves_score :
    ¬ ∀ (env : Env) (states : Nat → World) (events : Nat → Event) (n : Nat),
      (server env).History states events n → ∀ j, j < n →
      ∀ (v : SessionId) (s s' : UserSession), (states j).users v = some s →
        (states (j + 1)).users v = some s' → s.state = .auth →
        s'.state = .auth → s'.userInfo.score = s.userInfo.score := by
  intro hall
  obtain ⟨states, events, hist, _, _, _, hbefore, hafter⟩ :=
    Client.history_after (fun _ _ => True) (fun _ _ => True)
      [.accept 10] [.read 0 wrongPassword]
      (fun w => (w.users 0).any fun s : UserSession =>
        decide (s.state = .auth) && s.userInfo.score == 0)
      (fun w => (w.users 0).any fun s : UserSession =>
        decide (s.state = .auth) && s.userInfo.score == 100)
      (by decide +kernel)
  obtain ⟨s, hs, hbefore⟩ := (Option.any_eq_true _ _).mp hbefore
  obtain ⟨s', hs', hafter⟩ := (Option.any_eq_true _ _).mp hafter
  simp only [Bool.and_eq_true, decide_eq_true_eq, beq_iff_eq] at hbefore hafter
  have hsame := hall Client.env states events 2 hist 1 (by decide) 0 s s' hs hs'
    hbefore.1 hafter.1
  rw [hbefore.2, hafter.2] at hsame
  exact absurd hsame (by decide)

end ChessServer
