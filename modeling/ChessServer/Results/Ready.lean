import ChessServer.Model.Client
import ChessServer.Proofs.Ready
import ChessServer.Proofs.Step

/-!
# The owner's clocks and the start of a game

What a ready request may do to the clocks and to the statuses at a board, and
what follows for the runs whose ready requests are all in order
(`owner_sets_clocks`, `ready_respects_lifecycle`).
-/

namespace ChessServer

/-! ## The clocks -/

/-- A ready request is handled, and the table after it has a property. -/
def ReadyHandled (env : Env) (b : BoardPtr) (msg : Bytes) (w : World)
    (P : Table → Prop) : Prop :=
  ∃ w', gameReadyHandle env b msg w = some (true, w') ∧ P (w'.table b)

theorem readyHandled_iff {env : Env} {w : World} (hinv : w.layout.Inv)
    (b : BoardPtr) {msg : Bytes} {m : GameReadyReq}
    (hmsg : env.proto.gameReadyReq msg = some m) (P : Table → Prop) :
    ReadyHandled env b msg w P ↔ P ((w.table b).ready m) := by
  obtain ⟨w', hw'⟩ := gameReadyHandle_completes env (b := b) hinv hmsg
  obtain ⟨_, p⟩ := gameReadyHandle_plays hinv.seating.distinct hmsg hw'
  rw [← p.table]
  constructor
  · rintro ⟨w₁, hw₁, h⟩
    rw [hw'] at hw₁
    cases hw₁
    exact h
  · intro h
    exact ⟨w', hw', h⟩

/-- The event is a ready request that meddles with the clocks. -/
def World.meddles (env : Env) (w : World) (e : Event) : Bool :=
  (w.act env e).any fun (b, a) => a.meddles (w.table b)

/-- The clocks after an event that does not meddle. -/
theorem limits_step {t : Table} {act : Option Act}
    (hfair : ∀ a, act = some a → a.meddles t = false) :
    (((act.map (·.apply t)).getD t).limits ≠ t.limits → ∃ m,
      act = some (.ready m) ∧
      t.OwnersClocks m ((act.map (·.apply t)).getD t)) ∧
    ((∃ seat, t.isPlaying seat = true) →
      ((act.map (·.apply t)).getD t).limits = t.limits) := by
  cases act with
  | none => exact ⟨fun h => absurd rfl h, fun _ => rfl⟩
  | some a =>
      simp only [Option.map_some, Option.getD_some]
      by_cases hready : ∃ m, a = .ready m
      · obtain ⟨m, rfl⟩ := hready
        have hclocks := (Table.ownersClocks_ready t m).mpr
          (of_decide_eq_false (hfair _ rfl))
        exact ⟨fun _ => ⟨m, rfl, hclocks⟩, hclocks.running⟩
      · have hsame := Table.limits_apply (t := t) (a := a)
          fun m h => hready ⟨m, h⟩
        exact ⟨fun h => absurd hsame h, fun _ => hsame⟩

/-- A ready request leaves the clocks to the owner, and a running game alone,
exactly when it does not repeat the owner's mark for an empty seat or for a
seat in a running game with other values; and in a run without such requests
the clocks are set by ready requests of the owner's seat only, and stay as
they are for as long as somebody is PLAYING. -/
theorem owner_sets_clocks (env : Env) :
    (∀ w, (server env).Reachable w → ∀ b msg m,
      env.proto.gameReadyReq msg = some m →
      (ReadyHandled env b msg w ((w.table b).OwnersClocks m) ↔
        ¬ (w.table b).Meddles m)) ∧
    ∀ states events n, (server env).History states events n →
      (∀ j, j < n → (states j).meddles env (events j) = false) → ∀ b,
      (∀ j, j < n →
        ((states (j + 1)).table b).limits ≠ ((states j).table b).limits →
        ∃ m, (states j).act env (events j) = some (b, .ready m) ∧
          ((states j).table b).OwnersClocks m ((states (j + 1)).table b)) ∧
      ∀ i k, i ≤ k → k ≤ n →
        (∀ j, i ≤ j → j < k →
          ∃ seat, ((states j).table b).isPlaying seat = true) →
        ((states k).table b).limits = ((states i).table b).limits := by
  refine ⟨fun w h b msg m hmsg => ?_, fun states events n hist hfair b => ?_⟩
  · rw [readyHandled_iff (reachable_inv h) b hmsg]
    exact Table.ownersClocks_ready _ m
  · have hstep : ∀ j, j < n →
        (((states (j + 1)).table b).limits ≠ ((states j).table b).limits →
          ∃ m, (states j).actAt env b (events j) = some (.ready m) ∧
            ((states j).table b).OwnersClocks m ((states (j + 1)).table b)) ∧
        ((∃ seat, ((states j).table b).isPlaying seat = true) →
          ((states (j + 1)).table b).limits =
            ((states j).table b).limits) := by
      intro j hj
      rw [step_table hist hj b]
      refine limits_step fun a ha => ?_
      have hone := hfair j hj
      unfold World.meddles at hone
      rwa [act_of_actAt ha, Option.any_some] at hone
    refine ⟨fun j hj hchange => ?_, fun i k hik hk hplaying => ?_⟩
    · obtain ⟨m, hact, hclocks⟩ := (hstep j hj).1 hchange
      exact ⟨m, act_of_actAt hact, hclocks⟩
    · induction k, hik using Nat.le_induction with
      | base => rfl
      | succ k hik ih =>
          rw [(hstep k (by omega)).2 (hplaying k hik (Nat.lt_succ_self k))]
          exact ih (by omega) fun j hj hjk => hplaying j hj (by omega)

/-- The owner of a board sets its clocks, and they stay as they are in the
game. -/
theorem owner_sets_clocks_left :
    (∃ w m, (server Client.env).Reachable w ∧
      ReadyHandled Client.env ⟨1, 1⟩
        (Client.body (Client.setClocks locationLeft 600 60)) w
        ((w.table ⟨1, 1⟩).OwnersClocks m)) ∧
    ∃ states events, (server Client.env).History states events 16 ∧
      ((states 16).table ⟨1, 1⟩).limits =
        ((states 15).table ⟨1, 1⟩).limits := by
  constructor
  · obtain ⟨w, hreach, htest⟩ := Client.reachable_after (fun _ _ => True)
      (Client.enter 0 "a" 1 .left) (fun w =>
        (Client.env.proto.gameReadyReq (Client.body
          (Client.setClocks locationLeft 600 60))).any fun m =>
        !decide ((w.table ⟨1, 1⟩).Meddles m)) (by decide +kernel)
    obtain ⟨m, hm, hfair⟩ := (Option.any_eq_true _ _).mp htest
    rw [Bool.not_eq_true', decide_eq_false_iff_not] at hfair
    exact ⟨w, m, hreach, ((owner_sets_clocks Client.env).1 w hreach ⟨1, 1⟩ _ m
      hm).mpr hfair⟩
  · obtain ⟨states, events, hist, hok, hok', _, htest, _⟩ :=
      Client.history_after (fun e w => w.meddles Client.env e = false)
        (fun e w => w.meddles Client.env e = false) Client.startGame
        [.read 0 (Client.capture .left .right)]
        (fun w => (w.table ⟨1, 1⟩).isPlaying .left) (fun _ => true)
        (by decide +kernel)
    refine ⟨states, events, hist, ((owner_sets_clocks Client.env).2 states
      events 16 hist (fun j hj => ?_) ⟨1, 1⟩).2 15 16 (by decide)
      (by decide) fun j hj hlt => ?_⟩
    · by_cases hlt : j < 15
      · exact hok j hlt
      · exact hok' j (Nat.le_of_not_lt hlt) hj
    · obtain rfl : j = 15 := by omega
      exact ⟨.left, htest⟩

/-- The owner leaves the board, and the user who stays sets the clocks with
the location that stands for nobody. -/
theorem clocks_without_owner :
    ¬ ∀ (env : Env) (w : World), (server env).Reachable w →
      ∀ (b : BoardPtr) (msg : Bytes) (m : GameReadyReq),
        env.proto.gameReadyReq msg = some m →
        ReadyHandled env b msg w ((w.table b).OwnersClocks m) := by
  intro hclaim
  obtain ⟨w, hreach, htest⟩ := Client.reachable_after (fun _ _ => True)
    (Client.enter 0 "a" 1 .left ++ Client.enter 1 "b" 1 .right ++
      [.read 0 (Client.exit .left)]) (fun w =>
        (Client.env.proto.gameReadyReq (Client.body
          (Client.setClocks locationMax 600 60))).any fun m =>
        m.srcUserLocate == locationMax &&
        (gameReadyHandle Client.env ⟨1, 1⟩ (Client.body
          (Client.setClocks locationMax 600 60)) w).any fun r =>
        (r.2.table ⟨1, 1⟩).limits != (w.table ⟨1, 1⟩).limits)
    (by decide +kernel)
  obtain ⟨m, hm, hchange⟩ := (Option.any_eq_true _ _).mp htest
  rw [Bool.and_eq_true, beq_iff_eq] at hchange
  obtain ⟨w', hw', hclocks⟩ := hclaim Client.env w hreach ⟨1, 1⟩ _ m hm
  have hnew := hchange.2
  rw [hw', Option.any_some, bne_iff_ne] at hnew
  obtain ⟨⟨seat, hseat, _⟩, _⟩ := hclocks.owner hnew
  exact seat.location_ne_max (hseat.symm.trans hchange.1)

/-! ## The lifecycle -/

/-- The ready request of an event, if it is one, is in order. -/
def World.eligible (env : Env) (w : World) (e : Event) : Bool :=
  (w.act env e).all fun (b, a) => a.eligible (w.table b)

/-- The statuses after an event whose ready request, if it is one, is in
order. -/
theorem status_step {t : Table} {act : Option Act}
    (hfair : ∀ a, act = some a → a.eligible t = true) :
    (∀ seat, ((act.map (·.apply t)).getD t).status seat = some .began →
      t.status seat = some .ready ∨ t.status seat = some .began) ∧
    (∀ m, act = some (.ready m) →
      t.Lifecycle m ((act.map (·.apply t)).getD t)) ∧
    ((∀ seat, ((act.map (·.apply t)).getD t).status seat = some .playing) →
      (∀ seat, t.status seat ≠ some .playing) → ∃ m, act = some (.ready m) ∧
        ∀ seat, (t.marked m).status seat = some .began) := by
  cases act with
  | none =>
      refine ⟨fun seat h => Or.inr h, fun m h => ?_,
        fun h hnot => absurd (h .left) (hnot .left)⟩
      cases h
  | some a =>
      simp only [Option.map_some, Option.getD_some, Option.some.injEq]
      by_cases hready : ∃ m, a = .ready m
      · obtain ⟨m, rfl⟩ := hready
        have hlife := (Table.lifecycle_ready t m).mpr
          (of_decide_eq_true (hfair _ rfl))
        refine ⟨hlife.began, fun m' h => ?_, fun h hnot => ⟨m, rfl, ?_⟩⟩
        · cases h
          exact hlife
        · exact hlife.starts .left (h .left) (hnot .left)
      · have hstatus := Table.status_apply (t := t) (a := a)
          fun m h => hready ⟨m, h⟩
        refine ⟨fun seat h => ?_, fun m h => absurd ⟨m, h⟩ hready,
          fun h hnot => ?_⟩
        · rcases hstatus seat with hs | hs | hs | hs | ⟨_, hs⟩
          · exact Or.inr (hs ▸ h)
          all_goals
            rw [h] at hs
            cases hs
        · -- an undo reaches one seat only
          have hundo : ∀ seat, t.recentLoserLocate = Seat.location seat := by
            intro seat
            rcases hstatus seat with hs | hs | hs | hs | ⟨hloser, _⟩
            · exact absurd (hs ▸ h seat) (hnot seat)
            case inr.inr.inr.inr => exact hloser
            all_goals
              rw [h seat] at hs
              cases hs
          have hsame := (hundo .left).symm.trans (hundo .right)
          exact absurd (Seat.location_injective hsame) (by decide)

/-- A ready request respects the lifecycle exactly when its seat is empty or
its user may begin; and in a run without other ready requests BEGAN comes
after READY only, no ready request takes a player out of the game or brings
back one whose game is over, and three users become PLAYING in one step only
by a ready request that finds all three BEGAN. -/
theorem ready_respects_lifecycle (env : Env) :
    (∀ w, (server env).Reachable w → ∀ b msg m,
      env.proto.gameReadyReq msg = some m →
      (ReadyHandled env b msg w ((w.table b).Lifecycle m) ↔
        (w.table b).Eligible m)) ∧
    ∀ states events n, (server env).History states events n →
      (∀ j, j < n → (states j).eligible env (events j) = true) →
      ∀ b j, j < n →
      (∀ seat, ((states (j + 1)).table b).status seat = some .began →
        ((states j).table b).status seat = some .ready ∨
        ((states j).table b).status seat = some .began) ∧
      (∀ m, (states j).act env (events j) = some (b, .ready m) →
        ((states j).table b).Lifecycle m ((states (j + 1)).table b)) ∧
      ((∀ seat, ((states (j + 1)).table b).status seat = some .playing) →
        (∀ seat, ((states j).table b).status seat ≠ some .playing) →
        ∃ m, (states j).act env (events j) = some (b, .ready m) ∧
          ∀ seat, (((states j).table b).marked m).status seat =
            some .began) := by
  refine ⟨fun w h b msg m hmsg => ?_, fun states events n hist hfair b j hj => ?_⟩
  · rw [readyHandled_iff (reachable_inv h) b hmsg]
    exact Table.lifecycle_ready _ m
  · rw [step_table hist hj b]
    have hone : ∀ a, (states j).actAt env b (events j) = some a →
        a.eligible ((states j).table b) = true := by
      intro a ha
      have hone := hfair j hj
      unfold World.eligible at hone
      rwa [act_of_actAt ha, Option.all_some] at hone
    obtain ⟨hbegan, hlife, hstart⟩ := status_step hone
    refine ⟨hbegan, fun m hact => hlife m ?_, fun h hnot => ?_⟩
    · simp [World.actAt, hact]
    · obtain ⟨m, hact, hall⟩ := hstart h hnot
      exact ⟨m, act_of_actAt hact, hall⟩

/-- The third user is ready, and the game starts. -/
theorem ready_respects_lifecycle_start :
    (∃ w m, (server Client.env).Reachable w ∧
      ReadyHandled Client.env ⟨1, 1⟩
        (Client.body (Client.gameReady .bottom)) w
        ((w.table ⟨1, 1⟩).Lifecycle m)) ∧
    ∃ states events m, (server Client.env).History states events 15 ∧
      (states 14).act Client.env (events 14) = some (⟨1, 1⟩, .ready m) := by
  constructor
  · obtain ⟨w, hreach, htest⟩ := Client.reachable_after (fun _ _ => True)
      (Client.startGame.take 14) (fun w =>
        (Client.env.proto.gameReadyReq (Client.body
          (Client.gameReady .bottom))).any fun m =>
        decide ((w.table ⟨1, 1⟩).Eligible m)) (by decide +kernel)
    obtain ⟨m, hm, hfair⟩ := (Option.any_eq_true _ _).mp htest
    exact ⟨w, m, hreach, ((ready_respects_lifecycle Client.env).1 w hreach
      ⟨1, 1⟩ _ m hm).mpr (of_decide_eq_true hfair)⟩
  · obtain ⟨states, events, hist, hok, hok', _, htest, htest'⟩ :=
      Client.history_after (fun e w => w.eligible Client.env e = true)
        (fun e w => w.eligible Client.env e = true)
        (Client.startGame.take 14) (Client.startGame.drop 14)
        (fun w => decide (∀ seat, (w.table ⟨1, 1⟩).status seat ≠ some .playing))
        (fun w => decide (∀ seat, (w.table ⟨1, 1⟩).status seat = some .playing))
        (by decide +kernel)
    obtain ⟨m, hact, _⟩ := ((ready_respects_lifecycle Client.env).2 states
      events 15 hist (fun j hj => by
        by_cases hlt : j < 14
        · exact hok j hlt
        · exact hok' j (Nat.le_of_not_lt hlt) hj) ⟨1, 1⟩ 14
      (by decide)).2.2 (of_decide_eq_true htest') (of_decide_eq_true htest)
    exact ⟨states, events, m, hist, hact⟩

/-- A player declares itself ready in the middle of a game, and is not
PLAYING any more. -/
theorem ready_leaves_the_game :
    ¬ ∀ (env : Env) (w : World), (server env).Reachable w →
      ∀ (b : BoardPtr) (msg : Bytes) (m : GameReadyReq),
        env.proto.gameReadyReq msg = some m →
        ReadyHandled env b msg w ((w.table b).Lifecycle m) := by
  intro hclaim
  obtain ⟨w, hreach, htest⟩ := Client.reachable_after (fun _ _ => True)
    Client.startGame (fun w =>
      (w.table ⟨1, 1⟩).status .left == some .playing &&
      (gameReadyHandle Client.env ⟨1, 1⟩
        (Client.body (Client.gameReady .left)) w).any fun r =>
      (r.2.table ⟨1, 1⟩).status .left == some .began) (by decide +kernel)
  obtain ⟨m, hm⟩ := Option.isSome_iff_exists.mp (show
    (Client.env.proto.gameReadyReq (Client.body
      (Client.gameReady .left))).isSome = true by decide +kernel)
  simp only [Bool.and_eq_true, beq_iff_eq] at htest
  obtain ⟨w', hw', hlife⟩ := hclaim Client.env w hreach ⟨1, 1⟩ _ m hm
  have hbegan := htest.2
  rw [hw', Option.any_some, beq_iff_eq,
    hlife.kept .left .playing (Or.inl rfl) htest.1] at hbegan
  cases hbegan

end ChessServer
