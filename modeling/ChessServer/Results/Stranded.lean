import ChessServer.Proofs.Workers

/-!
# A lost signal

The worker counts the handlers on `timeout_list`, computes an interval and
only then waits, in three critical sections; when its wait times out it exits
without another look.  A handler that is put on the list in between has
nobody to call it until the next timer expires (`attended_unless_unheard`).
-/

namespace ChessServer.LibTimer

/-- As long as every signal is heard, every handler on `timeout_list` has a
worker that will look at the list again whenever the timer thread is in
`select`.  A signal that nobody hears can be followed by a state in which no
thread is left for them. -/
theorem attended_unless_unheard (s : Threads) :
    (threads.ReachableWith (fun e s => s.Heard e) s →
      ¬ s.Stranded ∧ (s.task = .select → s.Attended)) ∧
      ∀ e, threads.Reachable s → threads.enabled e s → ¬ s.Heard e →
        ∃ s₁ s₂, threads.step e s = some s₁ ∧
          Relation.ReflTransGen threads.Next s₁ s₂ ∧ s₂.Stranded := by
  constructor
  · intro h
    have hattended : s.task = .select → s.Attended := by
      intro htask
      exact reachable_settled h (by rw [htask]; decide) (by rw [htask]; decide)
    refine ⟨fun hstranded => ?_, hattended⟩
    obtain ⟨htask, hpending, -, hnone⟩ := hstranded
    obtain ⟨w, hw, -⟩ := hattended htask hpending
    rw [hnone] at hw
    cases hw
  · intro e h henabled hunheard
    unfold Threads.Heard at hunheard
    push Not at hunheard
    obtain ⟨rfl, htask, hon, hpending, hdeaf⟩ := hunheard
    obtain ⟨xs, ys, hrun⟩ := reachable_running h
    have hcensus := hrun.census
    rw [htask, hon] at hcensus
    have hone : s.workers.length = 1 := hcensus
    obtain ⟨w, hw⟩ := List.length_eq_one_iff.mp hone
    obtain ⟨hwait, hlooks⟩ := hdeaf w (by rw [hw]; exact List.mem_singleton_self _)
    have hlooks : w.looks = false := by simpa using hlooks
    have hclaim := State.claimWorker_eq (hrun.library.free .timeout)
    rw [hon] at hclaim
    have hsignal : condSignal [w] = [w] := by
      cases w with
      | waiting => exact absurd rfl hwait
      | count | interval | wait | signalled | timedOut | pending | handle => rfl
    have hstep : threads.step .task s = some { s with
        lib := { s.lib with timeoutThreadIsOn := true }
        task := .select, workers := [w] } := by
      show s.taskBlock = _
      simp only [Threads.taskBlock, htask, hclaim, Option.bind_eq_bind,
        Option.bind_some, hw, hsignal]
      rfl
    obtain ⟨s₂, hnext, hstranded⟩ := deaf_strands
      (h.step henabled trivial hstep) rfl hpending rfl hlooks
    exact ⟨_, s₂, hstep, hnext, hstranded⟩

/-! ## Two timers -/

/-- A timer of one microsecond. -/
def oneMicrosecond : Request where
  action := .add
  timeout := ⟨0, 1⟩
  handler := some 0

/-- Two timers are added.  The first expires, its handler is called, and the
worker has counted no more when the second one expires. -/
def secondExpires : List Turn :=
  [.request oneMicrosecond ⟨0, 0⟩, .request oneMicrosecond ⟨0, 0⟩,
    .timeout, .task, .task, .task,
    .worker 0 ⟨0, 1⟩, .worker 0 ⟨0, 1⟩, .worker 0 ⟨0, 1⟩, .worker 0 ⟨0, 1⟩,
    .timeout, .task]

/-- The worker waits before the timer thread signals. -/
def waitsFirst : List Turn :=
  secondExpires ++ [.worker 0 ⟨0, 1⟩, .worker 0 ⟨0, 1⟩, .task]

/-- The timer thread signals before the worker waits, whose wait times out. -/
def signalsFirst : List Turn :=
  secondExpires ++ [.task, .worker 0 ⟨0, 1⟩, .worker 0 ⟨0, 1⟩, .woken 0 true,
    .worker 0 ⟨0, 1⟩]

theorem attended_when_heard : ∃ s, s.task = .select ∧ s.Pending ∧
    threads.Reachable s ∧ ¬ s.Stranded ∧ s.Attended := by
  have htest : (threads.run (fun e s => s.Heard e) waitsFirst
      threads.start).any (fun s => decide (s.task = .select ∧ s.Pending)) =
        true := by
    decide +kernel
  simp only [Option.any_eq_true, decide_eq_true_eq] at htest
  obtain ⟨s, hrun, htask, hpending⟩ := htest
  have hreach : threads.ReachableWith (fun e s => s.Heard e) s :=
    Machine.reachableWith_of_run .start hrun
  obtain ⟨hstranded, hattended⟩ := (attended_unless_unheard s).1 hreach
  exact ⟨s, htask, hpending, hreach.reachable, hstranded, hattended htask⟩

theorem handler_left_behind : ¬ ∀ s, threads.Reachable s → ¬ s.Stranded := by
  intro hclaim
  have htest : (threads.run (fun _ _ => True) signalsFirst
      threads.start).any (fun s => decide s.Stranded) = true := by
    decide +kernel
  simp only [Option.any_eq_true, decide_eq_true_eq] at htest
  obtain ⟨s, hrun, hstranded⟩ := htest
  exact hclaim s (Machine.reachableWith_of_run .start hrun) hstranded

end ChessServer.LibTimer
