import ChessServer.Model.Timers

/-!
# The timer thread

The times it computes, and what holds whenever it is in
`unix_domain_accept_req`: the lists are well formed, no mutex is held and no
round fails (`reachable_waiting`).  No time leaves the range of a `long`
(`reachable_long`).
-/

namespace ChessServer.LibTimer

open DList

/-! ## Times -/

/-- Normalised times are compared as numbers. -/
theorem lessThan_iff {t1 t2 : Timeval} (h1 : t1.Normalised)
    (h2 : t2.Normalised) :
    t1.lessThan t2 = true ↔ t1.micros < t2.micros := by
  obtain ⟨h1, h1'⟩ := h1
  obtain ⟨h2, h2'⟩ := h2
  simp only [Timeval.lessThan, Timeval.micros, Bool.or_eq_true,
    Bool.and_eq_true, decide_eq_true_eq, beq_iff_eq]
  omega

/-- A difference that borrows is a microsecond short. -/
theorem minus_micros (t1 t2 : Timeval) :
    (t1.minus t2).micros = t1.micros - t2.micros -
      if t2.tvUsec ≤ t1.tvUsec then 0 else 1 := by
  unfold Timeval.minus Timeval.micros maxUsec
  split
  · dsimp only
    omega
  · dsimp only
    omega

/-- Their difference is normalised. -/
theorem minus_normalised {t1 t2 : Timeval} (h1 : t1.Normalised)
    (h2 : t2.Normalised) : (t1.minus t2).Normalised := by
  obtain ⟨h1, h1'⟩ := h1
  obtain ⟨h2, h2'⟩ := h2
  unfold Timeval.minus maxUsec
  split
  · constructor
    · show 0 ≤ t1.tvUsec - t2.tvUsec
      omega
    · show t1.tvUsec - t2.tvUsec < 1000000
      omega
  · constructor
    · show 0 ≤ t1.tvUsec + (999999 - t2.tvUsec)
      omega
    · show t1.tvUsec + (999999 - t2.tvUsec) < 1000000
      omega

/-- The deadline of a timer is what it asks for, and normalised. -/
theorem deadline_normalised {now timeout : Timeval} (hnow : now.Normalised)
    (htimeout : 0 ≤ timeout.tvUsec) :
    (now.deadline timeout).Normalised ∧
      (now.deadline timeout).micros = now.micros + timeout.micros := by
  obtain ⟨hnonneg, -⟩ := hnow
  have hsum : 0 ≤ now.tvUsec + timeout.tvUsec := by omega
  have hdiv := Int.tdiv_eq_ediv_of_nonneg (b := 1000000) hsum
  have hmod := Int.tmod_eq_emod_of_nonneg (b := 1000000) hsum
  constructor
  · constructor
    · exact Int.tmod_nonneg _ hsum
    · exact Int.tmod_lt_of_pos _ (by decide)
  · unfold Timeval.deadline Timeval.micros microPerSec
    dsimp only
    omega

/-- Every number of microseconds is a normalised time. -/
def Timeval.ofMicros (n : Int) : Timeval := ⟨n / 1000000, n % 1000000⟩

theorem micros_ofMicros (n : Int) : (Timeval.ofMicros n).micros = n := by
  unfold Timeval.ofMicros Timeval.micros
  dsimp only
  omega

theorem normalised_ofMicros (n : Int) : (Timeval.ofMicros n).Normalised := by
  constructor
  · exact Int.emod_nonneg _ (by decide)
  · exact Int.emod_lt_of_pos _ (by decide)

/-- The interval of `get_rest_time` is normalised, and right unless the
subtraction borrows. -/
theorem restTime_future {now deadline : Timeval} (hnow : now.Normalised)
    (hdeadline : deadline.Normalised) (h : now.lessThan deadline = true) :
    (State.restTime now deadline).Normalised ∧
      (State.restTime now deadline).micros =
        deadline.micros - now.micros -
          if now.tvUsec ≤ deadline.tvUsec then 0 else 1 := by
  unfold State.restTime
  rw [if_pos h]
  exact ⟨minus_normalised hdeadline hnow, minus_micros deadline now⟩

/-! ## The timer thread -/

/-- All deadlines are normalised. -/
def Deadlines (xs : List Cell) : Prop := ∀ x ∈ xs, x.2.timeout.Normalised

/-- The queue has one timer more. -/
theorem mem_insertTimer {x y : Cell} {xs : List Cell}
    (hy : y ∈ State.insertTimer x xs) : y = x ∨ y ∈ xs := by
  rw [State.insertTimer, List.mem_append, List.mem_cons] at hy
  rcases hy with hy | hy | hy
  · exact Or.inr ((List.takeWhile_prefix _).subset hy)
  · exact Or.inl hy
  · exact Or.inr ((List.dropWhile_suffix _).subset hy)

theorem deadlines_insert {x : Cell} {xs : List Cell}
    (hx : x.2.timeout.Normalised) (h : Deadlines xs) :
    Deadlines (State.insertTimer x xs) := by
  intro y hy
  rcases mem_insertTimer hy with rfl | hy
  · exact hx
  · exact h y hy

/-- The lists of a library that no function is working on. -/
structure Library (s : State) (xs ys : List Cell) : Prop where
  rep : s.Rep xs ys
  deadlines : Deadlines xs
  free : ∀ m, s.held m = false
  exited : s.running = false → xs = []

theorem Deadlines.mono {xs xs' : List Cell} (h : Deadlines xs)
    (hsub : xs' ⊆ xs) : Deadlines xs' :=
  fun x hx => h x (hsub hx)

/-- A mutex that nobody holds is unlocked. -/
theorem Library.unlock {s : State} {xs ys : List Cell} (h : Library s xs ys)
    (m : Mutex) : Library (s.unlock m) xs ys where
  rep := ⟨h.rep.timerq, h.rep.timeoutList, h.rep.apart, h.rep.below⟩
  deadlines := h.deadlines
  free := by
    intro m'
    show Function.update s.held m false m' = false
    by_cases hm : m' = m
    · rw [hm, Function.update_self]
    · rw [Function.update_of_ne hm]
      exact h.free m'
  exited := h.exited

/-- Unlocking moves no timer. -/
theorem keeps_unlock (s : State) (xs ys : List Cell) (m : Mutex) :
    s.Keeps xs ys (s.unlock m) xs ys :=
  fun _ hp => ⟨⟨hp.below, hp.timerq, hp.timeoutList⟩, rfl⟩

/-- The timer is the one that a request asks for at a time. -/
def Request.Adds (msg : Request) (now : Timeval) (t : Timer) : Prop :=
  msg.action = .add ∧ t.handler = msg.handler ∧
    t.handlerArg = msg.handlerArg ∧ msg.Valid ∧
    t.timeout = now.deadline msg.timeout

/-- A request changes `timerq` at most. -/
theorem handleMsg_library {s : State} {xs ys : List Cell} {now : Timeval}
    (malloc : Bool) (msg : Request) (hlib : Library s xs ys)
    (hrunning : s.running = true) (hnow : now.Normalised) :
    ∃ r xs', s.handleMsg now malloc msg = some r ∧
      Library r.2.2 xs' ys ∧ s.Keeps xs ys r.2.2 xs' ys ∧
      r.2.2.timeoutThreadIsOn = s.timeoutThreadIsOn ∧
      ∀ x ∈ xs', x ∈ xs ∨ msg.Adds now x.2 := by
  have hclear : ∀ needDestrory, ∃ q h, s.delAllTimer needDestrory =
      some (0, { s with
        timerq := q, heap := h
        running := s.running && !needDestrory }) ∧
      Library { s with
        timerq := q, heap := h
        running := s.running && !needDestrory } [] ys ∧
      s.Keeps xs ys { s with
        timerq := q, heap := h
        running := s.running && !needDestrory } [] ys := by
    intro needDestrory
    obtain ⟨q, h, hdel, rep, hkeeps⟩ :=
      State.delAllTimer_rep needDestrory hlib.rep (hlib.free _)
    exact ⟨q, h, hdel, ⟨rep, nofun, hlib.free, fun _ => rfl⟩, hkeeps⟩
  unfold State.handleMsg Request.Adds
  cases msg.action with
  | add =>
      by_cases hvalid : msg.Valid ∧ malloc = true
      · obtain ⟨hvalid, rfl⟩ := hvalid
        obtain ⟨q, h, hadd, rep, hkeeps⟩ :=
          State.addTimernodeToList_rep now hlib.rep (hlib.free _) hvalid
        refine ⟨_, _, hadd, ⟨rep, ?_, hlib.free, fun hexit => ?_⟩, hkeeps, rfl,
          fun x hx => ?_⟩
        · apply deadlines_insert _ hlib.deadlines
          exact (deadline_normalised hnow hvalid.2.1).1
        · exact absurd (hrunning.symm.trans hexit) (by decide)
        · rcases mem_insertTimer hx with rfl | hx
          · exact Or.inr ⟨rfl, rfl, rfl, hvalid, rfl⟩
          · exact Or.inl hx
      · exact ⟨_, xs, State.addTimernodeToList_rejected hvalid,
          hlib.unlock .timerq, keeps_unlock s xs ys .timerq, rfl,
          fun x hx => Or.inl hx⟩
  | del =>
      rcases State.delTimernodeFromList_cases msg hlib.rep (hlib.free _) with
        hdel | ⟨front, x, back, q, h, rfl, _, _, hdel, rep, hkeeps⟩
      · exact ⟨_, xs, by rw [hdel]; rfl, hlib, State.Keeps.refl s xs ys, rfl,
          fun x hx => Or.inl hx⟩
      · have hsub : front ++ back ⊆ front ++ x :: back := by
          intro y hy
          rcases List.mem_append.mp hy with hy | hy
          · exact List.mem_append_left _ hy
          · exact List.mem_append_right _ (List.mem_cons_of_mem _ hy)
        refine ⟨_, _, by rw [hdel]; rfl,
          ⟨rep, hlib.deadlines.mono hsub, hlib.free, fun hexit => ?_⟩, hkeeps,
          rfl, fun y hy => Or.inl (hsub hy)⟩
        exact absurd (hrunning.symm.trans hexit) (by decide)
  | delAll =>
      obtain ⟨q, h, hdel, hcleared, hkeeps⟩ := hclear false
      exact ⟨_, [], by rw [hdel]; rfl, hcleared, hkeeps, rfl, nofun⟩
  | destrory =>
      obtain ⟨q, h, hdel, hcleared, hkeeps⟩ := hclear true
      exact ⟨_, [], by rw [hdel]; rfl, hcleared, hkeeps, rfl, nofun⟩
  | max =>
      exact ⟨_, xs, rfl, hlib, State.Keeps.refl s xs ys, rfl,
        fun x hx => Or.inl hx⟩

/-- The timer is asked for in a round. -/
def Wake.Adds (e : Wake) (t : Timer) : Prop :=
  ∃ msg now malloc next, e = .request (some msg) now malloc next ∧
    msg.Adds now t

/-- What a round does before `check:` never fails. -/
theorem handle_library {e : Wake} {s : State} {xs ys : List Cell}
    (hlib : Library s xs ys) (hrunning : s.running = true)
    (hnow : ∀ msg now malloc next, e = .request msg now malloc next →
      now.Normalised) :
    ∃ s' xs' ys', e.handle s = some s' ∧ Library s' xs' ys' ∧
      ∀ x ∈ xs', x ∈ xs ∨ e.Adds x.2 := by
  cases e with
  | timeout now malloc create next =>
      cases xs with
      | nil =>
          exact ⟨s, [], ys, State.timerExecute_nil malloc create hlib.rep,
            hlib, nofun⟩
      | cons x xs =>
          obtain ⟨s', hexec, hheld, _, _, _, hrun, rep⟩ :=
            State.timerExecute_rep malloc create hlib.rep (hlib.free _)
              (hlib.free _)
          refine ⟨s', xs, _, hexec, ⟨rep, ?_, fun m => ?_, fun hexit => ?_⟩,
            fun y hy => Or.inl (List.mem_cons_of_mem x hy)⟩
          · exact hlib.deadlines.mono (List.subset_cons_self x xs)
          · rw [hheld]
            exact hlib.free m
          · rw [hrun, hrunning] at hexit
            cases hexit
  | failed next => exact ⟨s, xs, ys, rfl, hlib, fun x hx => Or.inl hx⟩
  | request msg now malloc next =>
      cases msg with
      | none => exact ⟨s, xs, ys, rfl, hlib, fun x hx => Or.inl hx⟩
      | some msg =>
          obtain ⟨r, xs', hmsg, hlib', -, -, hnew⟩ :=
            handleMsg_library malloc msg hlib hrunning (hnow _ _ _ _ rfl)
          refine ⟨r.2.2, xs', ys, ?_, hlib', fun x hx => ?_⟩
          · show (s.handleMsg now malloc msg).map _ = some _
            rw [hmsg]
            rfl
          · exact (hnew x hx).imp_right fun hadds =>
              ⟨msg, now, malloc, next, rfl, hadds⟩

/-- The timer thread in `unix_domain_accept_req`. -/
structure Waiting (a : Task) (xs ys : List Cell) : Prop where
  library : Library a.lib xs ys
  /-- the interval is that of the first timer -/
  interval : ∀ timeout, a.timePtr = some timeout → a.clock.Normalised ∧
    xs.head?.map (fun x => State.restTime a.clock x.2.timeout) = some timeout

/-- A round never fails, and ends where it began. -/
theorem step_waiting {start : Timeval} {e : Wake} {a : Task}
    {xs ys : List Cell} (hwait : Waiting a xs ys)
    (henabled : (timerThread start).enabled e a) :
    ∃ b xs' ys', (timerThread start).step e a = some b ∧ Waiting b xs' ys' ∧
      b.clock = e.next ∧ ∀ x ∈ xs', x ∈ xs ∨ e.Adds x.2 := by
  obtain ⟨hrunning, hpossible⟩ := henabled
  have hnow : ∀ msg now malloc next, e = .request msg now malloc next →
      now.Normalised := by
    rintro msg now malloc next rfl
    exact hpossible.2.1
  obtain ⟨s, xs', ys', hhandle, hlib, hadded⟩ :=
    handle_library hwait.library hrunning hnow
  have hnext : e.next.Normalised := by
    cases e with
    | timeout now malloc create next => exact hpossible.1
    | failed next => exact hpossible.1
    | request msg now malloc next => exact hpossible.1
  have hrest := State.getRestTime_rep e.next hlib.rep
  refine ⟨⟨s, xs'.head?.map fun x => State.restTime e.next x.2.timeout, e.next⟩,
    xs', ys', ?_, ⟨hlib, fun timeout htimeout => ?_⟩, rfl, hadded⟩
  · show Task.step e a = _
    simp only [Task.step, hhandle, hrest, Option.bind_eq_bind,
      Option.bind_some]
  · exact ⟨hnext, htimeout⟩

/-- The lists are well formed whenever the timer thread waits. -/
theorem reachable_waiting {start : Timeval} {a : Task}
    (h : (timerThread start).Reachable a) : ∃ xs ys, Waiting a xs ys := by
  refine h.invariant (I := fun a => ∃ xs ys, Waiting a xs ys) ?_ ?_
  · exact ⟨[], [], ⟨State.rep_start, nofun, fun _ => rfl, fun _ => rfl⟩, nofun⟩
  · intro e a b hwait henabled _ hstep
    obtain ⟨xs, ys, hwait⟩ := hwait
    obtain ⟨b', xs', ys', hstep', hwait', -⟩ := step_waiting hwait henabled
    rw [hstep', Option.some.injEq] at hstep
    exact ⟨xs', ys', hstep ▸ hwait'⟩

/-! ## The bounds of a `long` -/

/-- The first number that a `long` does not hold, two to the power of 63. -/
def longEnd : Int := 9223372036854775808

/-- Both members are values of a `long`. -/
structure Timeval.Long (t : Timeval) : Prop where
  sec : -longEnd ≤ t.tvSec ∧ t.tvSec < longEnd
  usec : -longEnd ≤ t.tvUsec ∧ t.tvUsec < longEnd

/-- No member is negative or reaches a bound. -/
structure Timeval.Below (n : Int) (t : Timeval) : Prop where
  sec : 0 ≤ t.tvSec ∧ t.tvSec < n
  usec : 0 ≤ t.tvUsec ∧ t.tvUsec < n

/-- What `deadline` adds up fits a `long`, and so does the deadline. -/
theorem deadline_below {now timeout : Timeval}
    (hnow : now.Below (longEnd / 4)) (htimeout : timeout.Below (longEnd / 4)) :
    now.tvUsec + timeout.tvUsec < longEnd ∧
      (now.deadline timeout).Below longEnd := by
  have hend : longEnd = 9223372036854775808 := rfl
  obtain ⟨⟨_, _⟩, ⟨_, _⟩⟩ := hnow
  obtain ⟨⟨_, _⟩, ⟨_, _⟩⟩ := htimeout
  have hsum : 0 ≤ now.tvUsec + timeout.tvUsec := by omega
  have hdiv := Int.tdiv_eq_ediv_of_nonneg (b := 1000000) hsum
  have hmod := Int.tmod_eq_emod_of_nonneg (b := 1000000) hsum
  unfold Timeval.deadline microPerSec
  refine ⟨by omega, ⟨?_, ?_⟩⟩
  · dsimp only
    omega
  · dsimp only
    omega

/-- A difference of times is a time. -/
theorem minus_long {t1 t2 : Timeval} (h1 : t1.Below longEnd)
    (h2 : t2.Below longEnd) : (t1.minus t2).Long := by
  have hend : longEnd = 9223372036854775808 := rfl
  obtain ⟨⟨_, _⟩, ⟨_, _⟩⟩ := h1
  obtain ⟨⟨_, _⟩, ⟨_, _⟩⟩ := h2
  unfold Timeval.minus maxUsec
  split
  · constructor
    · dsimp only
      omega
    · dsimp only
      omega
  · constructor
    · dsimp only
      omega
    · dsimp only
      omega

/-- So is the interval that is waited. -/
theorem restTime_long {now deadline : Timeval}
    (hnow : now.Below (longEnd / 4)) (hdeadline : deadline.Below longEnd) :
    (State.restTime now deadline).Long := by
  have hend : longEnd = 9223372036854775808 := rfl
  have hnow' : now.Below longEnd := by
    obtain ⟨⟨_, _⟩, ⟨_, _⟩⟩ := hnow
    exact ⟨by omega, by omega⟩
  unfold State.restTime
  split
  · exact minus_long hdeadline hnow'
  · exact ⟨by decide, by decide⟩

/-- The clock and the timeouts that are asked for stay below a bound.  No
time has a lower one: a negative timeout is turned down. -/
def Wake.Below (n : Int) : Wake → Prop
  | .timeout _ _ _ next | .failed next | .request none _ _ next =>
      next.Below n
  | .request (some msg) now _ next => now.Below n ∧ next.Below n ∧
      msg.timeout.tvSec < n ∧ msg.timeout.tvUsec < n

theorem Wake.Below.next {n : Int} {e : Wake} (h : e.Below n) :
    e.next.Below n := by
  cases e with
  | timeout now malloc create next => exact h
  | failed next => exact h
  | request msg now malloc next =>
      cases msg with
      | none => exact h
      | some msg => exact h.2.1

/-- A deadline that is added does not overflow. -/
theorem Wake.Below.adds {e : Wake} {t : Timer} (h : e.Below (longEnd / 4))
    (hadds : e.Adds t) : t.timeout.Below longEnd := by
  obtain ⟨msg, now, malloc, next, rfl, -, -, -, hvalid, htimeout⟩ := hadds
  obtain ⟨hnow, -, hsec, husec⟩ := h
  rw [htimeout]
  exact (deadline_below hnow ⟨⟨hvalid.1, hsec⟩, ⟨hvalid.2.1, husec⟩⟩).2

/-- In every run in which they stay below a quarter of what a `long` holds, no
time that the thread computes leaves it. -/
theorem reachable_long {start : Timeval} {a : Task}
    (h : (timerThread start).ReachableWith
      (fun e _ => e.Below (longEnd / 4)) a) :
    ∃ xs ys, Waiting a xs ys ∧ (∀ x ∈ xs, x.2.timeout.Long) ∧
      ∀ timeout, a.timePtr = some timeout → timeout.Long := by
  have hinv : ∃ xs ys, Waiting a xs ys ∧
      (∀ x ∈ xs, x.2.timeout.Below longEnd) ∧
      (a.timePtr ≠ none → a.clock.Below (longEnd / 4)) := by
    refine h.invariant (I := fun a => ∃ xs ys, Waiting a xs ys ∧
      (∀ x ∈ xs, x.2.timeout.Below longEnd) ∧
      (a.timePtr ≠ none → a.clock.Below (longEnd / 4))) ?_ ?_
    · exact ⟨[], [], ⟨⟨State.rep_start, nofun, fun _ => rfl, fun _ => rfl⟩,
        nofun⟩, nofun, fun hptr => absurd rfl hptr⟩
    · intro e a b hbefore henabled hbelow hstep
      obtain ⟨xs, ys, hwait, htimes, -⟩ := hbefore
      obtain ⟨b', xs', ys', hstep', hwait', hclock, hadded⟩ :=
        step_waiting hwait henabled
      rw [hstep', Option.some.injEq] at hstep
      subst hstep
      refine ⟨xs', ys', hwait', fun x hx => ?_, fun _ => ?_⟩
      · rcases hadded x hx with hx | hadds
        · exact htimes x hx
        · exact hbelow.adds hadds
      · rw [hclock]
        exact hbelow.next
  obtain ⟨xs, ys, hwait, htimes, hclock⟩ := hinv
  refine ⟨xs, ys, hwait, fun x hx => ?_, fun timeout htimeout => ?_⟩
  · have hend : longEnd = 9223372036854775808 := rfl
    obtain ⟨⟨_, _⟩, ⟨_, _⟩⟩ := htimes x hx
    exact ⟨by omega, by omega⟩
  · obtain ⟨-, hhead⟩ := hwait.interval timeout htimeout
    obtain ⟨x, hx, rfl⟩ := Option.map_eq_some_iff.mp hhead
    exact restTime_long (hclock (by rw [htimeout]; exact nofun))
      (htimes x (List.mem_of_head? hx))

end ChessServer.LibTimer
