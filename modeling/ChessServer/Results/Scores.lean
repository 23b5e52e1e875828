import ChessServer.Model.Client
import ChessServer.Proofs.Step

/-!
# Scores

`ReduceScore` takes its amount from an unsigned score without looking whether
it is there.  A score and the row of `users_info` grow by what
`IncreaseScore` adds and by nothing else exactly as long as every
`ReduceScore` finds its amount (`scores_never_wrap`).
-/

namespace ChessServer

open Ledger (balance booked credits Covered)

/-! ## One call -/

theorem score_sub_le_iff {score amount : UInt32} :
    score - amount ≤ score ↔ amount ≤ score := by
  rw [UInt32.le_iff_toBitVec_le, UInt32.le_iff_toBitVec_le,
    UInt32.toBitVec_sub]
  exact Ledger.debit_le_iff

/-- What is persisted is the new score. -/
theorem reduceScore_writes {env : Env} {u : SessionId} {amount : UInt32}
    {s : UserSession} {w w' : World} (hs : w.users u = some s)
    (h : reduceScore env u amount w = some w') :
    ∃ s', w'.users u = some s' ∧
      s'.userInfo.score = s.userInfo.score - amount ∧
      w'.sqlLog =
        updateScoreSql s.userInfo.account s'.userInfo.score :: w.sqlLog := by
  simp only [reduceScore, hs, Option.bind_eq_bind, Option.bind_some,
    Option.bind_eq_some_iff] at h
  obtain ⟨_, _, h⟩ := h
  cases h
  exact ⟨_, Function.update_self u _ _, rfl, rfl⟩

/-! ## The condition -/

/-- Every `ReduceScore` of an event finds its amount in the score. -/
def World.covers (env : Env) (w : World) (e : Event) : Bool :=
  (w.act env e).all fun (b, a) =>
    [Seat.left, Seat.right, Seat.bottom].all fun seat =>
      ((w.table b).players seat).all fun p =>
        decide (Covered p.score.toBitVec (a.calls (w.table b) seat))

theorem covered_of_covers {env : Env} {w : World} {e : Event} {u : SessionId}
    {s : UserSession} (hseating : w.layout.Seating)
    (h : w.covers env e = true) (hs : w.users u = some s) :
    Covered s.userInfo.score.toBitVec (w.scoreCalls env e u) := by
  unfold World.scoreCalls
  unfold World.covers at h
  cases hact : w.act env e with
  | none => trivial
  | some act =>
      obtain ⟨b, a⟩ := act
      by_cases hon : ∃ seat, w.chair u = some (b, seat)
      · obtain ⟨seat, hchair⟩ := hon
        have hplayer := table_players (seat_of_chair hseating hchair) hs
        rw [hact, Option.all_some, List.all_eq_true] at h
        have hseat := h seat (by cases seat <;> simp)
        rw [hplayer, Option.all_some, decide_eq_true_eq] at hseat
        rw [actCalls_here hchair]
        exact hseat
      · simp only [not_exists] at hon
        rw [actCalls_elsewhere hon]
        trivial

/-! ## Ten points each -/

theorem mem_crownCalls {t : Table} {seat : Seat} {call : ScoreCall}
    (h : call ∈ t.crownCalls seat) : call = increase := by
  unfold Table.crownCalls at h
  split at h
  · exact List.mem_singleton.mp h
  · cases h

theorem mem_leaveCalls {t : Table} {gone seat : Seat} {m : BitVec 32}
    (h : .credit m ∈ t.leaveCalls gone seat) : m = 10 := by
  unfold Table.leaveCalls at h
  split at h
  · split at h
    · cases List.mem_singleton.mp h
    · cases h
  · cases mem_crownCalls h
    rfl

/-- `IncreaseScore` is only ever called with 10. -/
theorem Act.calls_credit {t : Table} {a : Act} {seat : Seat} {m : BitVec 32}
    (h : .credit m ∈ a.calls t seat) : m = 10 := by
  have hone : ∀ {c : Prop} [Decidable c] {calls : List ScoreCall},
      .credit m ∈ (if c then calls else []) → .credit m ∈ calls := by
    intro c _ calls h
    split at h
    · exact h
    · cases h
  have hgain : ∀ {call : ScoreCall}, call ∈ [increase] →
      call = .credit m → m = 10 := by
    intro call hcall heq
    rw [List.mem_singleton.mp hcall] at heq
    cases heq
    rfl
  have hlose : ∀ {n : UInt32}, .credit m ∈ [reduce n] → m = 10 := by
    intro n h
    cases List.mem_singleton.mp h
  cases a with
  | leave gone => exact mem_leaveCalls h
  | reject gone => exact mem_leaveCalls h
  | surrender loser =>
      simp only [Act.calls, Table.surrenderCalls] at h
      split at h
      · rcases List.mem_append.mp h with h | h
        · exact hlose (hone h)
        · exact hgain (List.mem_singleton.mpr (mem_crownCalls h)) rfl
      · exact hgain (List.mem_singleton.mpr (mem_crownCalls h)) rfl
  | move m =>
      rcases List.mem_append.mp (hone h) with h | h
      · exact hgain (hone h) rfl
      · exact hlose (hone h)
  | undo =>
      rcases List.mem_append.mp (hone h) with h | h
      · exact hlose (hone h)
      · exact hgain (hone h) rfl
  | _ => cases h

theorem scoreCalls_credit {env : Env} {w : World} {e : Event} {u : SessionId}
    {m : BitVec 32} (h : .credit m ∈ w.scoreCalls env e u) : m = 10 := by
  unfold World.scoreCalls World.actCalls at h
  split at h
  · split at h
    · exact Act.calls_credit h
    · cases h
  · cases h

/-! ## Every run -/

/-- The session has logged in. -/
def World.online (w : World) (u : SessionId) : Bool :=
  (w.users u).any fun s => decide s.LoggedIn

/-- The score of a session. -/
def World.score (w : World) (u : SessionId) : BitVec 32 :=
  ((w.users u).map (·.userInfo.score.toBitVec)).getD 0

theorem online_session {w : World} {u : SessionId} (h : w.online u = true) :
    ∃ s, w.users u = some s ∧ s.LoggedIn ∧
      w.score u = s.userInfo.score.toBitVec := by
  obtain ⟨s, hs, hlogged⟩ := (Option.any_eq_true _ _).mp h
  exact ⟨s, hs, of_decide_eq_true hlogged, by simp [World.score, hs]⟩

/-- Who has logged in has a connection. -/
theorem UserSession.LoggedIn.registered {w : World} {u : SessionId}
    {s : UserSession} (h : s.LoggedIn) (hinv : w.layout.Inv)
    (hs : w.users u = some s) : w.layout.registry s.clifd = some u :=
  hinv.registry.registered_of_online
    (show w.layout.place u = some s.place by simp [World.layout, hs])
    fun hidle => h.1 hidle.stateMachine

/-- One event of the worker changes the scores by its calls. -/
theorem step_score {env : Env} {e : Event} {w w' : World} {u : SessionId}
    (hinv : w.layout.Inv) (henabled : e.Enabled w)
    (hstep : World.step env e w = some w') (hon : w.online u = true)
    (hon' : w'.online u = true) :
    w'.score u = balance (w.score u) (w.scoreCalls env e u) := by
  obtain ⟨s, hs, hlogged, hscore⟩ := online_session hon
  obtain ⟨s', hs', hlogged', hscore'⟩ := online_session hon'
  have hspec := step_spec hinv henabled hstep
  rw [hscore, hscore']
  exact hspec.scores u _ _ s s' (hlogged.registered hinv hs)
    (hlogged'.registered hspec.inv hs') hs hs' fun _ _ => hlogged

/-- The calls for a session at each step of a run. -/
def scoreLog (env : Env) (states : Nat → World) (events : Nat → Event)
    (u : SessionId) (j : Nat) : List ScoreCall :=
  (states j).scoreCalls env (events j) u

/-- A session that stays logged in for `k` steps adds its calls up. -/
theorem History.score_booked {env : Env} {states : Nat → World}
    {events : Nat → Event} {n : Nat} {u : SessionId} {i k : Nat}
    (hist : (server env).History states events n) (hk : i + k ≤ n)
    (hon : ∀ j, j ≤ k → (states (i + j)).online u = true) :
    ∀ j, j < k → (states (i + j + 1)).score u =
      balance ((states (i + j)).score u)
        (scoreLog env states events u (i + j)) := by
  intro j hj
  obtain ⟨henabled, hstep⟩ := hist.next (i + j) (by omega)
  exact step_score (reachable_inv (hist.reachable (by omega))) henabled hstep
    (hon j (by omega)) (hon (j + 1) hj)

/-- The calls of an event that meets the condition find their amounts, also
those of the event that ends the session. -/
theorem History.score_covered {env : Env} {states : Nat → World}
    {events : Nat → Event} {n : Nat} {u : SessionId}
    (hist : (server env).History states events n)
    (hcovers : ∀ j, j < n → (states j).covers env (events j) = true) {j : Nat}
    (hj : j < n) (hon : (states j).online u = true) :
    Covered ((states j).score u) (scoreLog env states events u j) := by
  have hinv := reachable_inv (hist.reachable (i := j) (by omega))
  obtain ⟨s, hs, _, hscore⟩ := online_session hon
  rw [hscore]
  exact covered_of_covers hinv.seating (hcovers j hj) hs

theorem credits_booked {env : Env} {states : Nat → World}
    {events : Nat → Event} {u : SessionId} (i k : Nat) :
    credits (booked (scoreLog env states events u) i k) =
      10 * (booked (scoreLog env states events u) i k).count increase := by
  refine Ledger.credits_eq (n := 10) fun m hm => ?_
  obtain ⟨j, _, hmem⟩ := Ledger.mem_booked hm
  exact scoreCalls_credit hmem

/-- `ReduceScore` makes a score, and what is persisted of it, no larger
exactly when the amount is there; and in a run in which it always is, a
score exceeds the one at login by at most 10 for each `IncreaseScore`, and no
`ReduceScore` makes it larger, up to and with the event that ends the
session. -/
theorem scores_never_wrap (env : Env) :
    (∀ u amount s w w', w.users u = some s →
      reduceScore env u amount w = some w' → ∃ s', w'.users u = some s' ∧
        w'.sqlLog =
          updateScoreSql s.userInfo.account s'.userInfo.score :: w.sqlLog ∧
        (s'.userInfo.score ≤ s.userInfo.score ↔
          amount ≤ s.userInfo.score)) ∧
    ∀ states events n, (server env).History states events n →
      (∀ j, j < n → (states j).covers env (events j) = true) →
      ∀ u i k, i + k ≤ n → (∀ j, j ≤ k → (states (i + j)).online u = true) →
        ((states (i + k)).score u).toNat ≤ ((states i).score u).toNat + 10 *
          (booked (scoreLog env states events u) i k).count increase ∧
        ∀ j, j ≤ k → i + j < n →
          (balance ((states (i + j)).score u)
              (scoreLog env states events u (i + j))).toNat ≤
            ((states i).score u).toNat + 10 *
              (booked (scoreLog env states events u) i (j + 1)).count
                increase ∧
          ∀ calls amount rest, scoreLog env states events u (i + j) =
              calls ++ .debit amount :: rest →
            balance ((states (i + j)).score u) (calls ++ [.debit amount]) ≤
              balance ((states (i + j)).score u) calls := by
  refine ⟨fun u amount s w w' hs h => ?_,
    fun states events n hist hcovers u i k hk hon => ?_⟩
  · obtain ⟨s', hs', hscore, hsql⟩ := reduceScore_writes hs h
    refine ⟨s', hs', hsql, ?_⟩
    rw [hscore]
    exact score_sub_le_iff
  · have hbal := History.score_booked hist hk hon
    have hcov : ∀ j, j ≤ k → i + j < n → Covered ((states (i + j)).score u)
        (scoreLog env states events u (i + j)) :=
      fun j hj hn => History.score_covered hist hcovers hn (hon j hj)
    -- what the score is worth after the calls of the first `j` steps
    have hsum : ∀ j, j ≤ k → (states (i + j)).score u =
        balance ((states i).score u)
          (booked (scoreLog env states events u) i j) := fun j hj =>
      @Ledger.balance_booked 32 (fun j => (states j).score u) _ i j
        fun j' hj' => hbal j' (by omega)
    have hbooked : ∀ j, j ≤ k → Covered ((states i).score u)
        (booked (scoreLog env states events u) i j) := fun j hj =>
      @Ledger.covered_booked 32 (fun j => (states j).score u) _ i j
        (fun j' hj' => hbal j' (by omega))
        fun j' hj' => hcov j' (by omega) (by omega)
    refine ⟨?_, fun j hj hn => ⟨?_, ?_⟩⟩
    · rw [hsum k (Nat.le_refl k), ← credits_booked]
      exact Ledger.toNat_balance_le (hbooked k (Nat.le_refl k))
    · rw [hsum j hj, ← Ledger.balance_append, ← credits_booked]
      refine Ledger.toNat_balance_le
        (Ledger.covered_append.mpr ⟨hbooked j hj, ?_⟩)
      rw [← hsum j hj]
      exact hcov j hj hn
    · exact Ledger.covered_iff.mp (hcov j hj hn)

/-- A capture in a game that has just started, after which the loser of 10
points hangs up and loses 30 more. -/
theorem scores_never_wrap_capture :
    (∃ w' s', reduceScore Client.env 0 10 (World.init.setUser 0
        { thread := some 0, userInfo := { score := 100 } }) = some w' ∧
      w'.users 0 = some s' ∧ (s'.userInfo.score ≤ 100 ↔ (10 : UInt32) ≤ 100)) ∧
    ∃ states events, (server Client.env).History states events 17 ∧
      (states 17).online 1 = false ∧
      ((states 16).score 1).toNat ≤ ((states 6).score 1).toNat +
        10 * (booked (scoreLog Client.env states events 1) 6 10).count
          increase ∧
      (balance ((states 16).score 1)
          (scoreLog Client.env states events 1 16)).toNat ≤
        ((states 6).score 1).toNat +
          10 * (booked (scoreLog Client.env states events 1) 6 11).count
            increase := by
  constructor
  · obtain ⟨w', hw'⟩ : ∃ w', reduceScore Client.env 0 10 (World.init.setUser 0
        { thread := some 0, userInfo := { score := 100 } }) = some w' :=
      ⟨_, rfl⟩
    obtain ⟨s', hs', _, hle⟩ := (scores_never_wrap Client.env).1 0 10
      { thread := some 0, userInfo := { score := 100 } } _ w' rfl hw'
    exact ⟨w', s', hw', hs', hle⟩
  · -- from the login of session 1 on
    obtain ⟨states, events, hist, hok, hok', _, _, hgone⟩ :=
      Client.history_after (fun e w => w.covers Client.env e = true)
        (fun e w => w.covers Client.env e = true ∧ w.online 1 = true)
        (Client.startGame.take 6)
        (Client.startGame.drop 6 ++
          [ .read 0 (Client.capture .left .right)
          , .event 1 ⟨true, false, false, false, false⟩ ])
        (fun _ => true) (fun w => !w.online 1) (by decide +kernel)
    have hcovers : ∀ j, j < 17 →
        (states j).covers Client.env (events j) = true := by
      intro j hj
      by_cases hlt : j < 6
      · exact hok j hlt
      · exact (hok' j (Nat.le_of_not_lt hlt) hj).1
    have hon : ∀ j, j ≤ 10 → (states (6 + j)).online 1 = true := by
      intro j hj
      refine (hok' (6 + j) (Nat.le_add_right 6 j) ?_).2
      show 6 + j < 17
      omega
    have hgone : (states 17).online 1 = false := Bool.not_eq_true' _ ▸ hgone
    obtain ⟨hsum, hrest⟩ := (scores_never_wrap Client.env).2 states events 17
      hist hcovers 1 6 10 (by omega) hon
    exact ⟨states, events, hist, hgone, hsum,
      (hrest 10 (Nat.le_refl 10) (by omega)).1⟩

/-- Eleven captures take a newcomer from 100 points to 4294967286. -/
theorem scores_wrap_around :
    ¬ ∀ (env : Env) (states : Nat → World) (events : Nat → Event) (n : Nat),
      (server env).History states events n →
      ∀ u i k, i + k ≤ n → (∀ j, j ≤ k → (states (i + j)).online u = true) →
        ((states (i + k)).score u).toNat ≤ ((states i).score u).toNat +
          10 * (booked (scoreLog env states events u) i k).count increase := by
  intro hall
  -- from the login of session 1 on
  obtain ⟨states, events, hist, _, hok, _, htest, htest'⟩ :=
    Client.history_after (fun _ _ => True)
      (fun e w => w.online 1 = true ∧ increase ∉ w.scoreCalls Client.env e 1)
      (Client.startGame.take 6)
      (Client.startGame.drop 6 ++
        List.replicate 11 (.read 0 (Client.capture .left .right)))
      (fun w => w.score 1 == 100)
      (fun w => w.online 1 && w.score 1 == 4294967286) (by decide +kernel)
  simp only [Bool.and_eq_true, beq_iff_eq] at htest htest'
  have hle := hall Client.env states events 26 hist 1 6 20 (Nat.le_refl 26)
    fun j hj => by
      by_cases hlast : j = 20
      · exact hlast ▸ htest'.1
      · exact (hok (6 + j) (Nat.le_add_right 6 j) (by
          show 6 + j < 26
          omega)).1
  have hnone : (booked (scoreLog Client.env states events 1) 6 20).count
      increase = 0 := by
    refine List.count_eq_zero.mpr fun hmem => ?_
    obtain ⟨j, hj, hmem⟩ := Ledger.mem_booked hmem
    exact (hok (6 + j) (Nat.le_add_right 6 j) (by
      show 6 + j < 26
      omega)).2 hmem
  have hfirst : (states 6).score 1 = 100 := htest
  have hlast : (states 26).score 1 = 4294967286 := htest'.2
  rw [hnone, hfirst, show 6 + 20 = 26 from rfl, hlast] at hle
  exact absurd hle (by decide)

end ChessServer
