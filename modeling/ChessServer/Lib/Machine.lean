/-!
# Machines and their runs

A machine has a start state, a guard that says which events can occur, and a
partial step function.  A run is a list of events, each taken in a state
where the guard lets it occur.  `ok` restricts a run to steps that meet a
condition on the event and the state before it; with the trivial condition
the runs are all runs.
-/

/-- A transition system with labelled, partial, deterministic steps. -/
structure Machine (σ ε : Type) where
  start : σ
  enabled : ε → σ → Prop
  step : ε → σ → Option σ

namespace Machine

variable {σ ε : Type} {m : Machine σ ε}

/-- Some event leads from a state to another. -/
def Next (m : Machine σ ε) (a b : σ) : Prop :=
  ∃ e, m.enabled e a ∧ m.step e a = some b

/-- The states that runs reach whose every step meets `ok`. -/
inductive ReachableWith (m : Machine σ ε) (ok : ε → σ → Prop) : σ → Prop where
  | start : ReachableWith m ok m.start
  | step {e : ε} {a b : σ} (ha : ReachableWith m ok a)
      (henabled : m.enabled e a) (hok : ok e a) (hstep : m.step e a = some b) :
      ReachableWith m ok b

/-- The states that runs reach. -/
abbrev Reachable (m : Machine σ ε) : σ → Prop :=
  ReachableWith m fun _ _ => True

/-- Dropping a condition keeps a state reachable. -/
theorem ReachableWith.mono {ok ok' : ε → σ → Prop}
    (himp : ∀ e a, ok e a → ok' e a) {a : σ} (h : ReachableWith m ok a) :
    ReachableWith m ok' a := by
  induction h with
  | start => exact .start
  | step _ henabled hok hstep ih =>
      exact .step ih henabled (himp _ _ hok) hstep

/-- A state reached under a condition is reachable. -/
theorem ReachableWith.reachable {ok : ε → σ → Prop} {a : σ}
    (h : ReachableWith m ok a) : m.Reachable a :=
  h.mono fun _ _ _ => trivial

/-- What holds at the start and is kept by every step that meets the
condition holds in every state reached. -/
theorem ReachableWith.invariant {ok : ε → σ → Prop} {I : σ → Prop}
    (hstart : I m.start)
    (hkeep : ∀ {e a b}, I a → m.enabled e a → ok e a →
      m.step e a = some b → I b) {a : σ} (h : ReachableWith m ok a) : I a := by
  induction h with
  | start => exact hstart
  | step _ henabled hok hstep ih => exact hkeep ih henabled hok hstep

/-- The same rule when a second invariant is already known. -/
theorem ReachableWith.invariant_of {ok : ε → σ → Prop} {I J : σ → Prop}
    (hJ : ∀ {a}, m.Reachable a → J a) (hstart : I m.start)
    (hkeep : ∀ {e a b}, J a → I a → m.enabled e a → ok e a →
      m.step e a = some b → I b) {a : σ} (h : ReachableWith m ok a) : I a := by
  induction h with
  | start => exact hstart
  | step ha henabled hok hstep ih =>
      exact hkeep (hJ ha.reachable) ih henabled hok hstep

/-! ## Runs with their states -/

/-- The first `n` steps of a run, with the states they go through. -/
structure Trace (m : Machine σ ε) (states : Nat → σ) (n : Nat) : Prop where
  start : states 0 = m.start
  next : ∀ i, i < n → ∃ e, m.enabled e (states i) ∧
    m.step e (states i) = some (states (i + 1))

/-- A shorter part of a trace is a trace. -/
theorem Trace.take {states : Nat → σ} {n i : Nat} (h : m.Trace states n)
    (hi : i ≤ n) : m.Trace states i where
  start := h.start
  next := fun j hj => h.next j (by omega)

/-- The states of a trace are reachable. -/
theorem Trace.reachable {states : Nat → σ} {n : Nat} (h : m.Trace states n) :
    m.Reachable (states n) := by
  induction n with
  | zero =>
      rw [h.start]
      exact .start
  | succ n ih =>
      obtain ⟨e, henabled, hstep⟩ := h.next n (Nat.lt_succ_self n)
      exact .step (ih (h.take (Nat.le_succ n))) henabled trivial hstep

/-- Every reachable state is the last one of a trace. -/
theorem ReachableWith.exists_trace {ok : ε → σ → Prop} {a : σ}
    (h : ReachableWith m ok a) :
    ∃ states n, m.Trace states n ∧ states n = a := by
  induction h with
  | start => exact ⟨fun _ => m.start, 0, ⟨rfl, fun _ hi => by omega⟩, rfl⟩
  | @step e a b _ henabled _ hstep ih =>
      obtain ⟨states, n, htrace, hlast⟩ := ih
      refine ⟨fun i => if i ≤ n then states i else b, n + 1, ⟨?_, ?_⟩, ?_⟩
      · rw [if_pos (Nat.zero_le n)]
        exact htrace.start
      · intro i hi
        by_cases hin : i < n
        · rw [if_pos (by omega), if_pos (by omega)]
          exact htrace.next i hin
        · obtain rfl : i = n := by omega
          rw [if_pos (Nat.le_refl i), if_neg (by omega), hlast]
          exact ⟨e, henabled, hstep⟩
      · exact if_neg (Nat.not_succ_le_self n)

/-! ## Runs with their events -/

/-- The first `n` steps of a run, with the states and the events. -/
structure History (m : Machine σ ε) (states : Nat → σ) (events : Nat → ε)
    (n : Nat) : Prop where
  start : states 0 = m.start
  next : ∀ i, i < n → m.enabled (events i) (states i) ∧
    m.step (events i) (states i) = some (states (i + 1))

/-- A history without its events. -/
theorem History.trace {states : Nat → σ} {events : Nat → ε} {n : Nat}
    (h : m.History states events n) : m.Trace states n where
  start := h.start
  next := fun i hi => ⟨events i, h.next i hi⟩

/-- The states of a history are reachable. -/
theorem History.reachable {states : Nat → σ} {events : Nat → ε} {n i : Nat}
    (h : m.History states events n) (hi : i ≤ n) : m.Reachable (states i) :=
  (h.trace.take hi).reachable

/-- Nothing has happened yet; `e` stands for the events that do not count. -/
theorem History.nil (e : ε) : m.History (fun _ => m.start) (fun _ => e) 0 :=
  ⟨rfl, fun _ hi => by omega⟩

/-- One step more. -/
theorem History.snoc {states : Nat → σ} {events : Nat → ε} {n : Nat} {e : ε}
    {b : σ} (h : m.History states events n) (henabled : m.enabled e (states n))
    (hstep : m.step e (states n) = some b) :
    m.History (fun i => if i ≤ n then states i else b)
      (fun i => if i < n then events i else e) (n + 1) := by
  refine ⟨?_, fun i hi => ?_⟩
  · rw [if_pos (Nat.zero_le n)]
    exact h.start
  · by_cases hin : i < n
    · rw [if_pos hin, if_pos (by omega), if_pos (by omega)]
      exact h.next i hin
    · obtain rfl : i = n := by omega
      rw [if_neg hin, if_pos (Nat.le_refl i), if_neg (by omega)]
      exact ⟨henabled, hstep⟩

/-- The states that some events lead through, as long as the steps exist. -/
def follow (m : Machine σ ε) (events : Nat → ε) : Nat → σ
  | 0 => m.start
  | n + 1 => (m.step (events n) (follow m events n)).getD m.start

/-- The states that events lead through are those of a history. -/
theorem history_follow {events : Nat → ε} {n : Nat}
    (h : ∀ i < n, m.enabled (events i) (m.follow events i) ∧
      (m.step (events i) (m.follow events i)).isSome = true) :
    m.History (m.follow events) events n where
  start := rfl
  next := by
    intro i hi
    obtain ⟨henabled, hsome⟩ := h i hi
    obtain ⟨b, hstep⟩ := Option.isSome_iff_exists.mp hsome
    refine ⟨henabled, ?_⟩
    show _ = some ((m.step (events i) (m.follow events i)).getD m.start)
    rw [hstep, Option.getD_some]

/-! ## Running a list of events -/

/-- Run a list of events, checking the guard and the condition. -/
def run (m : Machine σ ε) (ok : ε → σ → Prop)
    [∀ e a, Decidable (m.enabled e a)] [∀ e a, Decidable (ok e a)] :
    List ε → σ → Option σ
  | [], a => some a
  | e :: es, a =>
      if m.enabled e a ∧ ok e a then
        match m.step e a with
        | some b => run m ok es b
        | none => none
      else none

/-- The result of a run from a reachable state is reachable. -/
theorem reachableWith_of_run {ok : ε → σ → Prop}
    [∀ e a, Decidable (m.enabled e a)] [∀ e a, Decidable (ok e a)]
    {es : List ε} {a b : σ} (ha : ReachableWith m ok a)
    (h : m.run ok es a = some b) : ReachableWith m ok b := by
  induction es generalizing a with
  | nil =>
      cases h
      exact ha
  | cons e es ih =>
      unfold run at h
      split at h
      · rename_i hguard
        split at h
        · rename_i hstep
          exact ih (.step ha hguard.1 hguard.2 hstep) h
        · cases h
      · cases h

/-- A history continued by a list of events. -/
theorem History.extend {ok : ε → σ → Prop}
    [∀ e a, Decidable (m.enabled e a)] [∀ e a, Decidable (ok e a)]
    {es : List ε} {states : Nat → σ} {events : Nat → ε} {n : Nat} {b : σ}
    (h : m.History states events n) (hrun : m.run ok es (states n) = some b) :
    ∃ states' events', m.History states' events' (n + es.length) ∧
      (∀ i, i ≤ n → states' i = states i) ∧
      (∀ i, i < n → events' i = events i) ∧
      (∀ i, n ≤ i → i < n + es.length → ok (events' i) (states' i)) ∧
      (∀ i e, es[i]? = some e → events' (n + i) = e) ∧
      states' (n + es.length) = b := by
  induction es generalizing states events n with
  | nil =>
      cases hrun
      refine ⟨states, events, h, fun _ _ => rfl, fun _ _ => rfl,
        fun i hi hlt => ?_, fun i e he => ?_, rfl⟩
      · rw [List.length_nil] at hlt
        omega
      · cases he
  | cons e es ih =>
      unfold run at hrun
      split at hrun
      · rename_i hguard
        split at hrun
        · rename_i a hstep
          have hrest : m.run ok es
              (if n + 1 ≤ n then states (n + 1) else a) = some b := by
            rwa [if_neg (by omega)]
          obtain ⟨states', events', hist, hstates, hevents, hok, hrest,
            hend⟩ := ih (h.snoc hguard.1 hstep) hrest
          have hlen : n + (e :: es).length = n + 1 + es.length := by
            rw [List.length_cons]
            omega
          have hkept : ∀ i, i ≤ n → states' i = states i := fun i hi =>
            (hstates i (by omega)).trans (if_pos hi)
          have hfirst : events' n = e :=
            (hevents n (Nat.lt_succ_self n)).trans (if_neg (Nat.lt_irrefl n))
          refine ⟨states', events', hlen ▸ hist, hkept, fun i hi => ?_,
            fun i hi hlt => ?_, fun i e' he' => ?_, hlen ▸ hend⟩
          · exact (hevents i (by omega)).trans (if_pos hi)
          · by_cases hin : i = n
            · rw [hin, hkept n (Nat.le_refl n), hfirst]
              exact hguard.2
            · exact hok i (by omega) (by omega)
          · cases i with
            | zero =>
                cases he'
                exact hfirst
            | succ i =>
                rw [show n + (i + 1) = n + 1 + i by omega]
                exact hrest i e' he'
        · cases hrun
      · cases hrun

end Machine
