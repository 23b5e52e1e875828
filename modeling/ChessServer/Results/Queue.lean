import ChessServer.Model.Calls
import ChessServer.Model.Workers
import ChessServer.Proofs.Service
import ChessServer.Proofs.TimerThread

/-!
# The queue of timers

Four cases of linking and four of unlinking, each with its own assignments,
keep `timerq` a list in both directions, in the order in which its timers
expire (`queue_well_formed`).
-/

namespace ChessServer.LibTimer

open DList

/-- The library while its functions are called, one after the other, with any
arguments.  `my_gettimeofday` fills in a normalised time. -/
def calls : Machine State Call where
  start := {}
  enabled := fun c _ =>
    match c with
    | .addTimernodeToList now _ _ => now.Normalised
    | .delTimernodeFromList _ | .delAllTimer | .timerExecute _ _
    | .addTimeoutList _ _ _ | .getPendingList => True
  step := fun c s => (c.run s).map Prod.snd

/-- A timer expires before another: its deadline is earlier, or the same and
it was inserted earlier.  The addresses that `malloc` returns increase. -/
def Earlier (x y : Cell) : Prop :=
  x.2.due < y.2.due ∨ x.2.due = y.2.due ∧ x.1 < y.1

theorem Earlier.due_le {x y : Cell} (h : Earlier x y) : x.2.due ≤ y.2.due := by
  rcases h with hlt | ⟨heq, -⟩
  · exact hlt.le
  · exact heq.le

/-- The queue between two calls. -/
structure Queue (s : State) (xs ys : List Cell) : Prop where
  rep : s.Rep xs ys
  deadlines : Deadlines xs
  sorted : xs.Pairwise Earlier
  free : ∀ m, s.held m = false

variable {s : State} {xs ys : List Cell}

theorem queue_start : Queue {} [] [] where
  rep := State.rep_start
  deadlines := nofun
  sorted := List.Pairwise.nil
  free := fun _ => rfl

/-- A new timer is put behind those that do not expire later. -/
theorem sorted_insert (hsorted : xs.Pairwise Earlier) {x : Cell}
    (hnew : ∀ y ∈ xs, y.1 < x.1) :
    (State.insertTimer x xs).Pairwise Earlier := by
  rw [insertTimer_eq]
  apply Agenda.pairwise_orderedInsert hsorted
  · intro y z hyz
    exact hyz.due_le
  · intro y hy hle
    rcases lt_or_eq_of_le hle with hlt | heq
    · exact Or.inl hlt
    · exact Or.inr ⟨heq, hnew y hy⟩
  · intro y hlt
    exact Or.inl hlt

/-- A call returns and keeps the queue. -/
theorem step_queue {c : Call} (h : Queue s xs ys)
    (henabled : calls.enabled c s) :
    ∃ t xs' ys', calls.step c s = some t ∧ Queue t xs' ys' := by
  obtain ⟨failed, t, xs', ys', hrun, rep, hfree, hqueue⟩ :=
    c.run_rep h.rep h.free
  refine ⟨t, xs', ys', ?_, rep, ?_, ?_, hfree⟩
  · show (c.run s).map Prod.snd = some t
    rw [hrun]
    rfl
  · rcases hqueue with hsub | ⟨now, msg, rfl, hvalid, rfl⟩
    · exact h.deadlines.mono hsub.subset
    · apply deadlines_insert _ h.deadlines
      exact (deadline_normalised henabled hvalid.2.1).1
  · rcases hqueue with hsub | ⟨now, msg, rfl, hvalid, rfl⟩
    · exact h.sorted.sublist hsub
    · apply sorted_insert h.sorted
      intro y hy
      exact h.rep.below y.1 (Or.inl (List.mem_map_of_mem hy))

theorem reachable_queue (h : calls.Reachable s) : ∃ xs ys, Queue s xs ys := by
  refine h.invariant (I := fun s => ∃ xs ys, Queue s xs ys) ?_ ?_
  · exact ⟨[], [], queue_start⟩
  · intro c s t hqueue henabled _ hstep
    obtain ⟨xs, ys, hqueue⟩ := hqueue
    obtain ⟨t', xs', ys', hstep', hqueue'⟩ := step_queue hqueue henabled
    rw [hstep', Option.some.injEq] at hstep
    exact ⟨xs', ys', hstep ▸ hqueue'⟩

theorem head_earliest (hsorted : xs.Pairwise Earlier) {x : Cell}
    (hhead : xs.head? = some x) : ∀ y ∈ xs, x.2.due ≤ y.2.due := by
  cases xs with
  | nil => cases hhead
  | cons z zs =>
      cases hhead
      intro y hy
      rcases List.mem_cons.mp hy with rfl | hy
      · exact le_refl _
      · exact ((List.pairwise_cons.mp hsorted).1 y hy).due_le

theorem last_latest (hsorted : xs.Pairwise Earlier) {x : Cell}
    (hlast : xs.getLast? = some x) : ∀ y ∈ xs, y.2.due ≤ x.2.due := by
  cases xs using List.reverseRecOn with
  | nil => cases hlast
  | append_singleton zs z =>
      rw [List.getLast?_concat, Option.some.injEq] at hlast
      subst hlast
      intro y hy
      rcases List.mem_append.mp hy with hy | hy
      · exact ((List.pairwise_append.mp hsorted).2.2 y hy z
          (List.mem_singleton_self z)).due_le
      · rw [List.mem_singleton.mp hy]

/-- After any calls, `timerq` is a list of timers whose pointers agree in both
directions, without a cycle.  Every deadline is normalised, and the list is in
the order of the deadlines, equal ones in the order of insertion.
`get_rest_time` looks at the earliest deadline, `get_waite_interval` at the
latest one, and `del_all_timer` returns and leaves an empty list.  Every
further call returns. -/
theorem queue_well_formed (hreach : calls.Reachable s) :
    (∀ c, calls.enabled c s → ∃ t, calls.step c s = some t) ∧
      ∃ xs : List Cell, Holds s.heap s.timerq xs ∧
        Agree s.heap s.timerq (keys xs) ∧ (keys xs).Nodup ∧
        Deadlines xs ∧ xs.Pairwise Earlier ∧
        (∀ now, s.getRestTime now =
            some (xs.head?.map fun x => State.restTime now x.2.timeout) ∧
          s.getWaiteInterval now = some ((xs.getLast?.map fun x =>
            State.waiteInterval now x.2.timeout).getD 0, s)) ∧
        (∀ x, xs.head? = some x → ∀ y ∈ xs, x.2.due ≤ y.2.due) ∧
        (∀ x, xs.getLast? = some x → ∀ y ∈ xs, y.2.due ≤ x.2.due) ∧
        ∀ needDestrory, ∃ t, s.delAllTimer needDestrory = some (0, t) ∧
          t.timerq = ⟨none, none⟩ := by
  obtain ⟨xs, ys, hqueue⟩ := reachable_queue hreach
  constructor
  · intro c henabled
    obtain ⟨t, xs', ys', hstep, -⟩ := step_queue hqueue henabled
    exact ⟨t, hstep⟩
  · obtain ⟨rep, hdeadlines, hsorted, hfree⟩ := hqueue
    refine ⟨xs, rep.timerq, rep.timerq.agree, rep.timerq.nodup, hdeadlines,
      hsorted, fun now => ⟨?_, ?_⟩, fun x => head_earliest hsorted,
      fun x => last_latest hsorted, fun needDestrory => ?_⟩
    · exact State.getRestTime_rep now rep
    · exact State.getWaiteInterval_rep now rep (hfree _)
    · obtain ⟨q, h, hdel, rep', -⟩ :=
        State.delAllTimer_rep needDestrory rep (hfree _)
      refine ⟨_, hdel, ?_⟩
      have hfirst : q.first = none := rep'.timerq.first
      have hlast : q.last = none := rep'.timerq.last
      cases q
      subst hfirst hlast
      rfl

/-! ## Three timers -/

instance (c : Call) (s : State) : Decidable (calls.enabled c s) :=
  match c with
  | .addTimernodeToList now _ _ => inferInstanceAs (Decidable now.Normalised)
  | .delTimernodeFromList _ | .delAllTimer | .timerExecute _ _
  | .addTimeoutList _ _ _ | .getPendingList => inferInstanceAs (Decidable True)

/-- Three timers, the second and the third due at the same time, and the first
one is removed. -/
def threeTimers : List Call :=
  [.addTimernodeToList ⟨0, 900000⟩ true
      { action := .add, timeout := ⟨1, 0⟩, handler := some 7 },
    .addTimernodeToList ⟨1, 0⟩ true
      { action := .add, timeout := ⟨0, 1500000⟩, handler := some 8 },
    .addTimernodeToList ⟨1, 500000⟩ true
      { action := .add, timeout := ⟨1, 0⟩, handler := some 9 },
    .delTimernodeFromList { action := .del, id := 0 }]

theorem three_timers_well_formed :
    ∃ s t, calls.run (fun _ _ => True) threeTimers calls.start = some s ∧
      s.timerq = ⟨some 1, some 2⟩ ∧
      s.getRestTime ⟨2, 0⟩ = some (some ⟨0, 500000⟩) ∧
      s.delAllTimer false = some (0, t) ∧ t.timerq = ⟨none, none⟩ := by
  have htest : (calls.run (fun _ _ => True) threeTimers calls.start).any
      (fun s => decide (s.timerq = ⟨some 1, some 2⟩ ∧
        s.getRestTime ⟨2, 0⟩ = some (some ⟨0, 500000⟩))) = true := by
    decide +kernel
  simp only [Option.any_eq_true, decide_eq_true_eq] at htest
  obtain ⟨s, hrun, hends, hrest⟩ := htest
  have hreach := Machine.reachableWith_of_run .start hrun
  obtain ⟨-, xs, -, -, -, -, -, -, -, -, hclear⟩ := queue_well_formed hreach
  obtain ⟨t, hdel, hempty⟩ := hclear false
  exact ⟨s, t, hrun, hends, hrest, hdel, hempty⟩

end ChessServer.LibTimer
