import ChessServer.Proofs.TimerThread

/-!
# No timer before its deadline

`get_rest_time` subtracts the clock from the first deadline.  `TV_MINUS`
borrows `MAX_USEC`, which is one microsecond short of a second, so an interval
with a borrow ends one microsecond before the deadline (`timer_due_iff`).
-/

namespace ChessServer.LibTimer

open DList

/-- The timer that `timer_execute` would take off `timerq`. -/
def Task.taken (a : Task) : Option Timer :=
  a.lib.timerq.first.bind fun p => (a.lib.heap p).map Node.val

theorem Waiting.taken {a : Task} {xs ys : List Cell} (h : Waiting a xs ys) :
    a.taken = xs.head?.map Prod.snd := by
  unfold Task.taken
  rw [h.library.rep.timerq.first]
  cases xs with
  | nil => rfl
  | cons x xs =>
      have rep : a.lib.Rep ([] ++ x :: xs) ys := h.library.rep
      show (a.lib.heap x.1).map Node.val = some x.2
      rw [rep.timerq.node]
      rfl

/-- The interval of `get_rest_time` is normalised, and it is the time that is
left if and only if the subtraction does not borrow.  In every run of the
timer thread, whatever it waits for is due when the wait is over, under the
same condition. -/
theorem timer_due_iff {start : Timeval} {a : Task} {t : Timer}
    {timeout : Timeval} (hreach : (timerThread start).Reachable a)
    (htaken : a.taken = some t) (hptr : a.timePtr = some timeout) :
    (∀ now deadline : Timeval, now.Normalised → deadline.Normalised →
      now.lessThan deadline = true →
      (State.restTime now deadline).Normalised ∧
        ((State.restTime now deadline).micros =
            deadline.micros - now.micros ↔ now.tvUsec ≤ deadline.tvUsec)) ∧
      ((∀ now malloc create next,
          (timerThread start).enabled (.timeout now malloc create next) a →
          ¬ now.lessThan t.timeout) ↔
        (a.clock.lessThan t.timeout → a.clock.tvUsec ≤ t.timeout.tvUsec)) := by
  constructor
  · intro now deadline hnow hdeadline hlt
    obtain ⟨hnormal, hmicros⟩ := restTime_future hnow hdeadline hlt
    refine ⟨hnormal, ?_⟩
    rw [hmicros]
    split
    · omega
    · omega
  · obtain ⟨xs, ys, hwait⟩ := reachable_waiting hreach
    obtain ⟨hclock, hhead⟩ := hwait.interval timeout hptr
    rw [hwait.taken] at htaken
    cases xs with
    | nil => cases htaken
    | cons x xs =>
        rw [List.head?_cons, Option.map_some, Option.some.injEq] at htaken hhead
        subst htaken hhead
        have hdeadline : x.2.timeout.Normalised :=
          hwait.library.deadlines x (List.mem_cons_self ..)
        have hrunning : a.lib.running = true := by
          cases hrun : a.lib.running with
          | true => rfl
          | false =>
              have hnil := hwait.library.exited hrun
              cases hnil
        constructor
        · -- a wait that is over as soon as it may
          intro hdue hlt
          obtain ⟨-, hmicros⟩ := restTime_future hclock hdeadline hlt
          have hearly := hdue (Timeval.ofMicros (a.clock.micros +
              (State.restTime a.clock x.2.timeout).micros)) true true
            (Timeval.ofMicros (a.clock.micros +
              (State.restTime a.clock x.2.timeout).micros))
            ⟨hrunning, normalised_ofMicros _, normalised_ofMicros _,
              Int.le_refl _, _, hptr, Int.le_of_eq (micros_ofMicros _).symm⟩
          rw [lessThan_iff (normalised_ofMicros _) hdeadline,
            micros_ofMicros] at hearly
          by_contra hborrow
          rw [if_neg hborrow] at hmicros
          omega
        · intro hborrow now malloc create next henabled
          obtain ⟨-, -, hnow, -, timeout, htimeout, hover⟩ := henabled
          rw [hptr, Option.some.injEq] at htimeout
          subst htimeout
          rw [lessThan_iff hnow hdeadline]
          cases hlt : a.clock.lessThan x.2.timeout with
          | true =>
              obtain ⟨-, hmicros⟩ := restTime_future hclock hdeadline hlt
              rw [if_pos (hborrow hlt)] at hmicros
              omega
          | false =>
              -- the deadline is over already
              have hpast : ¬ a.clock.micros < x.2.timeout.micros := by
                rw [← lessThan_iff hclock hdeadline, hlt]
                decide
              have hrest : State.restTime a.clock x.2.timeout =
                  ⟨0, almostNow⟩ := by
                unfold State.restTime
                rw [hlt]
                rfl
              have hpos : (Timeval.mk 0 almostNow).micros = 1000 := rfl
              rw [hrest, hpos] at hover
              omega

/-! ## Two timers -/

/-- A timer of one second. -/
def oneSecond : Request where
  action := .add
  timeout := ⟨1, 0⟩
  handler := some 0

/-- A timer of a second and a half that is waited for 0.2 seconds after it was
set. -/
theorem timer_due_at_once : ∃ a t, (timerThread ⟨0, 0⟩).Reachable a ∧
    a.taken = some t ∧ a.clock = ⟨0, 200000⟩ ∧
    ∀ now malloc create next,
      (timerThread ⟨0, 0⟩).enabled (.timeout now malloc create next) a →
      ¬ now.lessThan t.timeout := by
  let e : Wake := .request (some { oneSecond with timeout := ⟨1, 500000⟩ })
    ⟨0, 0⟩ true ⟨0, 200000⟩
  have htest : ((timerThread ⟨0, 0⟩).step e (timerThread ⟨0, 0⟩).start).any
      (fun a => a.taken.any (fun t => decide (t.timeout = ⟨1, 500000⟩)) &&
        decide (a.timePtr = some ⟨1, 300000⟩ ∧ a.clock = ⟨0, 200000⟩)) =
      true := by
    decide +kernel
  simp only [Bool.and_eq_true, Option.any_eq_true, decide_eq_true_eq] at htest
  obtain ⟨a, hstep, ⟨t, htaken, ht⟩, hptr, hclock⟩ := htest
  have henabled : (timerThread ⟨0, 0⟩).enabled e (timerThread ⟨0, 0⟩).start :=
    ⟨rfl, ⟨by decide, by decide⟩, ⟨by decide, by decide⟩, by decide, by decide⟩
  have hreach : (timerThread ⟨0, 0⟩).Reachable a :=
    .step .start henabled trivial hstep
  refine ⟨a, t, hreach, htaken, hclock,
    (timer_due_iff hreach htaken hptr).2.mpr ?_⟩
  rw [ht, hclock]
  exact fun _ => by decide

/-- A timer that is waited for one microsecond later expires one microsecond
early. -/
theorem timer_expires_early : ¬ ∀ (start : Timeval) (a : Task) (t : Timer)
    (now next : Timeval) (malloc create : Bool),
    (timerThread start).Reachable a → a.taken = some t →
    (timerThread start).enabled (.timeout now malloc create next) a →
    ¬ now.lessThan t.timeout := by
  intro hclaim
  let e : Wake := .request (some oneSecond) ⟨0, 0⟩ true ⟨0, 1⟩
  have htest : ((timerThread ⟨0, 0⟩).step e (timerThread ⟨0, 0⟩).start).any
      (fun a => a.taken.any (fun t => decide (t.timeout = ⟨1, 0⟩)) &&
        decide (a.timePtr = some ⟨0, 999998⟩ ∧ a.clock = ⟨0, 1⟩ ∧
          a.lib.running = true)) = true := by
    decide +kernel
  simp only [Bool.and_eq_true, Option.any_eq_true, decide_eq_true_eq] at htest
  obtain ⟨a, hstep, ⟨t, htaken, ht⟩, hptr, hclock, hrunning⟩ := htest
  have henabled : (timerThread ⟨0, 0⟩).enabled e (timerThread ⟨0, 0⟩).start :=
    ⟨rfl, ⟨by decide, by decide⟩, ⟨by decide, by decide⟩, by decide, by decide⟩
  have hreach : (timerThread ⟨0, 0⟩).Reachable a :=
    .step .start henabled trivial hstep
  refine hclaim ⟨0, 0⟩ a t ⟨0, 999999⟩ ⟨0, 999999⟩ true true hreach htaken
    ⟨hrunning, ⟨by decide, by decide⟩, ⟨by decide, by decide⟩, by decide, _,
      hptr, ?_⟩ ?_
  · rw [hclock]
    decide
  · rw [ht]
    decide

end ChessServer.LibTimer
