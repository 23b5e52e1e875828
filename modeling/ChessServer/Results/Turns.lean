import ChessServer.Model.Client
import ChessServer.Proofs.Turns

/-!
# Fair turns

A game of three in which only the holder of the token moves: the token stays
with the players who are in the game and goes around the table in the order
BOTTOM, RIGHT, LEFT (`fair_turn_order`).
-/

namespace ChessServer

/-! ## A fair game -/

/-- The chair that moves at a board in an event. -/
def World.turn (env : Env) (w : World) (b : BoardPtr) (e : Event) :
    Option Seat :=
  match w.act env e with
  | some (c, a) => if c = b then a.turn else none
  | none => none

/-- The last announced token after an event. -/
def World.tokenAfter (env : Env) (w : World) (b : BoardPtr) (e : Event)
    (w' : World) (token : UInt32) : UInt32 :=
  if (w.turn env b e).isSome then
    ((w.news w').findSome? Sent.token).getD token
  else token

/-- At a board only the holder of the token moves, and players who are out of
the game give up or leave. -/
def World.fair (env : Env) (w : World) (b : BoardPtr) (token : UInt32)
    (e : Event) : Bool :=
  match w.act env e with
  | some (c, a) => decide (c ≠ b) || a.fair token (w.table b)
  | none => true

/-- From state `k` to state `n` of a run a fair game is played at a board;
`token i` is the last announced token in state `i`. -/
structure FairGame (env : Env) (b : BoardPtr) (states : Nat → World)
    (events : Nat → Event) (token : Nat → UInt32) (k n : Nat) : Prop where
  playing : ∀ seat, ((states k).table b).isPlaying seat = true
  bottom : token k = locationBottom
  heard : ∀ i, k ≤ i → i < n → token (i + 1) =
    (states i).tokenAfter env b (events i) (states (i + 1)) (token i)
  fair : ∀ i, k ≤ i → i < n →
    (states i).fair env b (token i) (events i) = true

/-! ## One event -/

@[simp] theorem seatAt_announced (next : Option Seat) :
    seatAt (announced next) = next := by
  cases next with
  | none => rfl
  | some seat => exact seatAt_location seat

/-- The token that is announced in the turn of a chair. -/
theorem step_token {env : Env} {e : Event} {b : BoardPtr} {m : MoveChess}
    {seat : Seat} {w w' : World} (hinv : w.layout.Inv)
    (hact : w.act env e = some (b, .move m))
    (hsrc : m.srcLocate = seat.location)
    (hstep : World.step env e w = some w') :
    (∀ x ∈ w.news w', x.token ≠ none →
      x.token = some (((w.table b).capture m).token seat)) ∧
    (∀ r u, (w.boards b).seat r = some u → ∃ a,
      ⟨u, .announceMove, .moveAction a⟩ ∈ w.news w' ∧
        a.tokenLocate = some (((w.table b).capture m).token seat)) ∧
    ∀ token, w.tokenAfter env b e w' token =
      ((w.table b).capture m).token seat := by
  obtain ⟨news, hnone, hnews⟩ := step_announces hinv hact hsrc hstep
  obtain ⟨seat', v, hsrc', hv⟩ := step_mover hinv hact hstep
  have haudience : ∀ r u, (w.boards b).seat r = some u →
      u ∈ w.audience b locationMax := by
    intro r u hu
    rw [World.audience, List.mem_filterMap]
    refine ⟨r.location, ?_, by rw [getUserByLocation_location, hu]⟩
    cases r <;> decide
  have htokens : ∀ x ∈ w.news w', x.token ≠ none →
      x.token = some (((w.table b).capture m).token seat) := by
    intro x hx hsome
    rw [hnews, List.mem_append, List.mem_reverse, List.mem_map] at hx
    rcases hx with hx | ⟨u, _, rfl⟩
    · exact absurd (hnone x hx) hsome
    · rfl
  have hheard : ∀ r u, (w.boards b).seat r = some u → ∃ a,
      ⟨u, .announceMove, .moveAction a⟩ ∈ w.news w' ∧
        a.tokenLocate = some (((w.table b).capture m).token seat) := by
    intro r u hu
    refine ⟨⟨seat.location, m, some (((w.table b).capture m).token seat)⟩,
      ?_, rfl⟩
    rw [hnews, List.mem_append, List.mem_reverse, List.mem_map]
    exact Or.inr ⟨u, haudience r u hu, rfl⟩
  refine ⟨htokens, hheard, fun token => ?_⟩
  have hturn : (w.turn env b e).isSome = true := by
    simp [World.turn, hact, Act.turn, hsrc]
  rw [World.tokenAfter, if_pos hturn]
  cases hfind : (w.news w').findSome? Sent.token with
  | none =>
      obtain ⟨a, ha, htoken⟩ := hheard seat' v hv
      have hfree := List.findSome?_eq_none_iff.mp hfind _ ha
      exact absurd (htoken.symm.trans hfree) (by simp)
  | some t =>
      obtain ⟨x, hx, hxt⟩ := List.exists_of_findSome?_eq_some hfind
      have := htokens x hx (by simp [hxt])
      rw [hxt, Option.some.injEq] at this
      exact this

/-- A turn in a fair game. -/
theorem step_turn {env : Env} {e : Event} {b : BoardPtr} {seat : Seat}
    {next : Option Seat} {w w' : World} (hinv : w.layout.Inv)
    (henabled : e.Enabled w) (hawaits : (w.table b).Awaits next)
    (hfair : w.fair env b (announced next) e = true)
    (hturn : w.turn env b e = some seat)
    (hstep : World.step env e w = some w') :
    next = some seat ∧
      (∀ token, w.tokenAfter env b e w' token =
        announced ((w'.table b).successor seat)) ∧
      (w'.table b).Awaits ((w'.table b).successor seat) ∧
      (∀ r, (w'.table b).isPlaying r = true →
        (w.table b).isPlaying r = true) ∧
      (∀ x ∈ w.news w', x.token ≠ none →
        x.token = some (announced ((w'.table b).successor seat))) ∧
      ∀ r u, (w.boards b).seat r = some u → ∃ a,
        ⟨u, .announceMove, .moveAction a⟩ ∈ w.news w' ∧
          a.tokenLocate = some (announced ((w'.table b).successor seat)) := by
  have htable := (step_spec hinv henabled hstep).table b
  unfold World.turn at hturn
  unfold World.fair at hfair
  cases hact : w.act env e with
  | none => simp [hact] at hturn
  | some act =>
      obtain ⟨c, a⟩ := act
      rw [hact] at hturn hfair htable
      dsimp only at hturn hfair
      by_cases hc : c = b
      · subst hc
        rw [if_pos rfl] at hturn
        rw [decide_eq_false (by simp), Bool.false_or] at hfair
        cases a with
        | move m =>
            have hsrc := seatAt_eq_some_iff.mp hturn
            obtain ⟨hnext, htoken, hafter⟩ := hawaits.move hsrc hfair
            have htable' : w'.table c = (w.table c).move m := by
              rw [htable, World.tableAfter, if_pos rfl, Act.apply]
            obtain ⟨honly, hheard, hlast⟩ :=
              step_token hinv hact hsrc hstep
            rw [htable', ← htoken]
            exact ⟨hnext, hlast, hafter,
              fun r hr => Table.isPlaying_of_move hr, honly, hheard⟩
        | _ => cases hturn
      · rw [if_neg hc] at hturn
        cases hturn

/-- Anything else in a fair game. -/
theorem step_between {env : Env} {e : Event} {b : BoardPtr}
    {next : Option Seat} {w w' : World} (hinv : w.layout.Inv)
    (henabled : e.Enabled w) (hawaits : (w.table b).Awaits next)
    (hfair : w.fair env b (announced next) e = true)
    (hturn : w.turn env b e = none)
    (hstep : World.step env e w = some w') :
    (∀ r, (w'.table b).isPlaying r = (w.table b).isPlaying r) ∧
      (w'.table b).Awaits next := by
  have htable := (step_spec hinv henabled hstep).table b
  unfold World.turn at hturn
  unfold World.fair at hfair
  cases hact : w.act env e with
  | none =>
      rw [htable, hact]
      exact ⟨fun _ => rfl, hawaits⟩
  | some act =>
      obtain ⟨c, a⟩ := act
      rw [hact] at hturn hfair htable
      dsimp only at hturn hfair
      by_cases hc : c = b
      · subst hc
        rw [if_pos rfl] at hturn
        rw [decide_eq_false (by simp), Bool.false_or] at hfair
        rw [htable, World.tableAfter, if_pos rfl]
        apply hawaits.other _ hfair
        rintro m rfl
        obtain ⟨seat, _, hsrc, _⟩ := step_mover hinv hact hstep
        simp [Act.turn, hsrc] at hturn
      · rw [htable, World.tableAfter, if_neg (Ne.symm hc)]
        exact ⟨fun _ => rfl, hawaits⟩

/-! ## A whole game -/

section

variable {env : Env} {b : BoardPtr} {states : Nat → World}
  {events : Nat → Event} {token : Nat → UInt32} {k n : Nat}

/-- The token is with somebody who can move, until the game is over. -/
theorem FairGame.awaits (hist : (server env).History states events n)
    (hgame : FairGame env b states events token k n) :
    ∀ d, k + d ≤ n → ∃ next, token (k + d) = announced next ∧
      ((states (k + d)).table b).Awaits next := by
  intro d
  induction d with
  | zero =>
      intro _
      refine ⟨some .bottom, hgame.bottom, fun seat _ => hgame.playing seat,
        fun hnone => (by cases hnone), ?_⟩
      show ((states k).table b).active ≠ 1
      rw [Table.active_eq, hgame.playing, hgame.playing, hgame.playing]
      decide
  | succ d ih =>
      intro hd
      obtain ⟨next, htoken, hawaits⟩ := ih (by omega)
      obtain ⟨henabled, hstep⟩ := hist.next (k + d) (by omega)
      have hinv := reachable_inv (hist.reachable (i := k + d) (by omega))
      have hfair := hgame.fair (k + d) (by omega) (by omega)
      have hafter := hgame.heard (k + d) (by omega) (by omega)
      rw [htoken] at hfair
      show ∃ next, token (k + d + 1) = announced next ∧
        ((states (k + d + 1)).table b).Awaits next
      cases hturn : (states (k + d)).turn env b (events (k + d)) with
      | none =>
          refine ⟨next, ?_, (step_between hinv henabled hawaits hfair hturn
            hstep).2⟩
          rw [hafter, World.tokenAfter, hturn]
          exact htoken
      | some seat =>
          obtain ⟨_, hlast, hnext, _⟩ :=
            step_turn hinv henabled hawaits hfair hturn hstep
          exact ⟨_, hafter.trans (hlast _), hnext⟩

/-- The turns of a fair game go around the table. -/
theorem FairGame.rotation (hist : (server env).History states events n)
    (hgame : FairGame env b states events token k n) :
    Rotation.Game Seat.others (fun i => ((states i).table b).isPlaying)
      (fun i => (states i).turn env b (events i))
      (fun i => seatAt (token i)) k n := by
  have hstate : ∀ i, k ≤ i → i < n → ∃ next, token i = announced next ∧
      ((states i).table b).Awaits next ∧
      ((states i).fair env b (announced next) (events i)) = true ∧
      (states i).layout.Inv ∧ (events i).Enabled (states i) ∧
      World.step env (events i) (states i) = some (states (i + 1)) := by
    intro i hk hi
    obtain ⟨d, rfl⟩ : ∃ d, i = k + d := ⟨i - k, by omega⟩
    obtain ⟨next, htoken, hawaits⟩ := hgame.awaits hist d (by omega)
    have hfair := hgame.fair (k + d) (by omega) hi
    obtain ⟨henabled, hstep⟩ := hist.next (k + d) hi
    exact ⟨next, htoken, hawaits, htoken ▸ hfair,
      reachable_inv (hist.reachable (Nat.le_of_lt hi)), henabled, hstep⟩
  constructor
  · intro i a hk hi hturn
    obtain ⟨next, htoken, hawaits, hfair, hinv, henabled, hstep⟩ :=
      hstate i hk hi
    have hnext := (step_turn hinv henabled hawaits hfair hturn hstep).1
    rw [htoken, seatAt_announced]
    exact ⟨hnext, hawaits.holder a hnext⟩
  · intro i a hk hi hturn
    obtain ⟨next, htoken, hawaits, hfair, hinv, henabled, hstep⟩ :=
      hstate i hk hi
    have hlast := (step_turn hinv henabled hawaits hfair hturn hstep).2.1
    show seatAt (token (i + 1)) = _
    rw [hgame.heard i hk hi, hlast, seatAt_announced]
    rfl
  · intro i a hk hi hturn hnone
    obtain ⟨next, htoken, hawaits, hfair, hinv, henabled, hstep⟩ :=
      hstate i hk hi
    exact (step_turn hinv henabled hawaits hfair hturn
      hstep).2.2.1.finished hnone a
  · intro i hk hi hturn
    show seatAt (token (i + 1)) = seatAt (token i)
    rw [hgame.heard i hk hi, World.tokenAfter, if_neg (by simp [hturn])]
  · intro i a hk hi hplaying
    obtain ⟨next, htoken, hawaits, hfair, hinv, henabled, hstep⟩ :=
      hstate i hk hi
    cases hturn : (states i).turn env b (events i) with
    | none =>
        rw [(step_between hinv henabled hawaits hfair hturn hstep).1]
          at hplaying
        exact hplaying
    | some seat =>
        exact (step_turn hinv henabled hawaits hfair hturn
          hstep).2.2.2.1 a hplaying

end

/-- In every fair game, each turn announces one token to everybody at the
board: the chair of another player PLAYING, or nobody's exactly if no other
player is left, and then nobody is PLAYING any more.  Between two turns of a
chair every other player that is still PLAYING has had exactly one, in the
order BOTTOM, RIGHT, LEFT. -/
theorem fair_turn_order {env : Env} {b : BoardPtr} {states : Nat → World}
    {events : Nat → Event} {token : Nat → UInt32} {k n : Nat}
    (hist : (server env).History states events n)
    (hgame : FairGame env b states events token k n) :
    (∀ i seat, k ≤ i → i < n →
      (states i).turn env b (events i) = some seat →
      token i = seat.location ∧
      (∀ r u, ((states i).boards b).seat r = some u → ∃ a,
        ⟨u, .announceMove, .moveAction a⟩ ∈ (states i).news (states (i + 1)) ∧
          a.tokenLocate = some (token (i + 1))) ∧
      (∀ x ∈ (states i).news (states (i + 1)), x.token ≠ none →
        x.token = some (token (i + 1))) ∧
      (token (i + 1) = locationMax ∨ ∃ r, r ≠ seat ∧
        token (i + 1) = r.location ∧
        ((states (i + 1)).table b).isPlaying r = true) ∧
      (token (i + 1) = locationMax ↔ ∀ r, r ≠ seat →
        ((states (i + 1)).table b).isPlaying r = false) ∧
      (token (i + 1) = locationMax →
        ∀ r, ((states (i + 1)).table b).isPlaying r = false)) ∧
    ∀ i j seat, k ≤ i → i < j → j < n →
      (states i).turn env b (events i) = some seat →
      (states j).turn env b (events j) = some seat →
      (∀ l, i < l → l < j → (states l).turn env b (events l) ≠ some seat) →
      (Rotation.turns (fun l => (states l).turn env b (events l)) (i + 1)
        (j - (i + 1))).Sublist [seat.next, seat.next.next] ∧
      ∀ r, r ≠ seat → ((states j).table b).isPlaying r = true →
        r ∈ Rotation.turns (fun l => (states l).turn env b (events l)) (i + 1)
          (j - (i + 1)) := by
  have hrotation := hgame.rotation hist
  constructor
  · intro i seat hk hi hturn
    obtain ⟨d, rfl⟩ : ∃ d, i = k + d := ⟨i - k, by omega⟩
    obtain ⟨next, htoken, hawaits⟩ := hgame.awaits hist d (by omega)
    have hfair := hgame.fair (k + d) hk hi
    rw [htoken] at hfair
    obtain ⟨henabled, hstep⟩ := hist.next (k + d) hi
    have hinv := reachable_inv (hist.reachable (Nat.le_of_lt hi))
    obtain ⟨rfl, hlast, hafter, _, honly, hheard⟩ :=
      step_turn hinv henabled hawaits hfair hturn hstep
    have hnew : token (k + d + 1) =
        announced (((states (k + d + 1)).table b).successor seat) :=
      (hgame.heard (k + d) hk hi).trans (hlast _)
    rw [← hnew] at honly hheard
    refine ⟨htoken, hheard, honly, ?_⟩
    rw [hnew]
    cases hnext : ((states (k + d + 1)).table b).successor seat with
    | none =>
        have hover := hafter.finished hnext
        exact ⟨Or.inl rfl, ⟨fun _ r _ => hover r, fun _ => rfl⟩,
          fun _ => hover⟩
    | some r =>
        obtain ⟨hne, hplaying⟩ := Table.successor_ne hnext
        have hmax : announced (some r) ≠ locationMax := r.location_ne_max
        refine ⟨Or.inr ⟨r, hne, rfl, hplaying⟩,
          ⟨fun h => absurd h hmax, fun h => ?_⟩, fun h => absurd h hmax⟩
        rw [h r hne] at hplaying
        cases hplaying
  · intro i j seat hk hij hj hi hagain hnot
    obtain ⟨hsub, hall⟩ :=
      hrotation.fair Seat.ring hk hij hj hi hagain hnot
    exact ⟨hsub, fun r hr => hall r (Seat.mem_others.mpr hr)⟩

/-- An event of a fair game that takes the token from `token` to `next`. -/
def World.plays (env : Env) (w : World) (b : BoardPtr) (token next : UInt32)
    (e : Event) : Bool :=
  w.fair env b token e && (World.step env e w).any fun w' =>
    w.tokenAfter env b e w' token == next

theorem plays_next {env : Env} {w w' : World} {b : BoardPtr}
    {token next : UInt32} {e : Event}
    (h : w.plays env b token next e = true)
    (hstep : World.step env e w = some w') :
    w.fair env b token e = true ∧
      next = w.tokenAfter env b e w' token := by
  unfold World.plays at h
  rw [hstep, Option.any_some, Bool.and_eq_true, beq_iff_eq] at h
  exact ⟨h.1, h.2.symm⟩

/-- BOTTOM captures RIGHT, which leaves the board; LEFT moves, and it is
BOTTOM's turn again. -/
theorem fair_turn_order_capture :
    ∃ (states : Nat → World) (events : Nat → Event) (token : Nat → UInt32),
      FairGame Client.env ⟨1, 1⟩ states events token 15 19 ∧
      ((states 16).table ⟨1, 1⟩).isPlaying .right = false ∧
      .left ∈ Rotation.turns (fun l =>
        (states l).turn Client.env ⟨1, 1⟩ (events l)) 16 2 := by
  obtain ⟨states, events, hist, _, hok, hevents, hstart, hend⟩ :=
    Client.history_after (fun _ _ => True)
      (fun e w =>
        (e = .read 2 (Client.capture .bottom .right) →
          w.plays Client.env ⟨1, 1⟩ locationBottom locationLeft e = true ∧
          w.turn Client.env ⟨1, 1⟩ e = some .bottom) ∧
        (e = .read 1 (Client.exit .right) →
          (w.table ⟨1, 1⟩).isPlaying .right = false ∧
          w.plays Client.env ⟨1, 1⟩ locationLeft locationLeft e = true) ∧
        (e = .read 0 (Client.move .left) →
          w.plays Client.env ⟨1, 1⟩ locationLeft locationBottom e = true) ∧
        (e = .read 2 (Client.move .bottom) →
          w.plays Client.env ⟨1, 1⟩ locationBottom locationLeft e = true ∧
          w.turn Client.env ⟨1, 1⟩ e = some .bottom ∧
          (w.table ⟨1, 1⟩).isPlaying .left = true))
      Client.startGame
      [ .read 2 (Client.capture .bottom .right), .read 1 (Client.exit .right)
      , .read 0 (Client.move .left), .read 2 (Client.move .bottom) ]
      (fun w => [Seat.left, .right, .bottom].all (w.table ⟨1, 1⟩).isPlaying)
      (fun _ => true) (by decide +kernel)
  have hfirst := (hok 15 (by decide) (by decide)).1 (hevents 0 _ rfl)
  have hsecond := (hok 16 (by decide) (by decide)).2.1 (hevents 1 _ rfl)
  have hthird := (hok 17 (by decide) (by decide)).2.2.1 (hevents 2 _ rfl)
  have hfourth := (hok 18 (by decide) (by decide)).2.2.2 (hevents 3 _ rfl)
  have hist : (server Client.env).History states events 19 := hist
  let token : Nat → UInt32 := fun i =>
    if i ≤ 15 then locationBottom else if i ≤ 17 then locationLeft
    else if i = 18 then locationBottom else locationLeft
  have hplays : ∀ i, 15 ≤ i → i < 19 → (states i).plays Client.env ⟨1, 1⟩
      (token i) (token (i + 1)) (events i) = true := by
    intro i hi hlt
    obtain rfl | rfl | rfl | rfl : i = 15 ∨ i = 16 ∨ i = 17 ∨ i = 18 := by
      omega
    · exact hfirst.1
    · exact hsecond.2
    · exact hthird
    · exact hfourth.1
  have hgame : FairGame Client.env ⟨1, 1⟩ states events token 15 19 := by
    refine ⟨fun seat => ?_, rfl, fun i hi hlt => ?_, fun i hi hlt => ?_⟩
    · apply List.all_eq_true.mp hstart
      cases seat <;> simp
    · exact (plays_next (hplays i hi hlt) (hist.next i hlt).2).2
    · exact (plays_next (hplays i hi hlt) (hist.next i hlt).2).1
  obtain ⟨hturns, hround⟩ := fair_turn_order hist hgame
  refine ⟨states, events, token, hgame, hsecond.1, ?_⟩
  refine (hround 15 18 .bottom (Nat.le_refl 15) (by decide) (by decide)
    hfirst.2 hfourth.2.1 fun l hl hlt hturn => ?_).2 .left (by decide)
    hfourth.2.2
  -- the token is with LEFT in between
  have htoken := (hturns l .bottom (by omega) (by omega) hturn).1
  obtain rfl | rfl : l = 16 ∨ l = 17 := by omega
  · cases htoken
  · cases htoken

end ChessServer
