import ChessServer.Model.Calls

/-!
# Mutexes that are given back

Every function of the lists locks and unlocks on its own.  An addition that is
turned down jumps to the unlocking that the accepted ones share, past the
locking (`call_sound_iff`).
-/

namespace ChessServer.LibTimer

open DList

namespace State

variable {s t u : State}

/-- A call that turns the first state into the second one releases the mutexes
that it acquires, and no others. -/
structure Balanced (s t : State) : Prop where
  held : t.held = s.held
  misused : t.misused = s.misused

theorem Balanced.refl (s : State) : s.Balanced s := ⟨rfl, rfl⟩

theorem Balanced.trans (h : s.Balanced t) (h' : t.Balanced u) :
    s.Balanced u where
  held := h'.held.trans h.held
  misused := h'.misused.trans h.misused

theorem lock_some {m : Mutex} (hlock : s.lock m = some t) :
    s.held m = false ∧
      t = { s with held := Function.update s.held m true } := by
  unfold lock at hlock
  split at hlock
  · cases hlock
  · rename_i hfree
    rw [Option.some.injEq] at hlock
    exact ⟨by simpa using hfree, hlock.symm⟩

/-- What lies between a locking and its unlocking is balanced, and so is the
whole. -/
theorem Balanced.unlock {m : Mutex} (hlock : s.lock m = some t)
    (hbody : t.Balanced u) : s.Balanced (u.unlock m) := by
  obtain ⟨hfree, rfl⟩ := lock_some hlock
  rw [unlock_held hfree hbody.held]
  exact ⟨rfl, hbody.misused⟩

theorem timerDequeue_balanced {p : Ptr} (h : s.timerDequeue p = some t) :
    s.Balanced t := by
  simp only [timerDequeue, Option.bind_eq_bind, Option.bind_eq_some_iff,
    Option.some.injEq] at h
  obtain ⟨r, -, rfl⟩ := h
  exact ⟨rfl, rfl⟩

theorem dequeueAll_balanced {fuel : Nat} (h : s.dequeueAll fuel = some t) :
    s.Balanced t := by
  induction fuel generalizing s with
  | zero =>
      unfold dequeueAll at h
      split at h
      · cases h
        exact Balanced.refl _
      · cases h
  | succ fuel ih =>
      unfold dequeueAll at h
      split at h
      · cases h
        exact Balanced.refl _
      · dsimp only [Option.bind_eq_bind] at h
        rw [Option.bind_eq_some_iff] at h
        obtain ⟨u, hdequeue, hrest⟩ := h
        exact (timerDequeue_balanced hdequeue).trans (ih hrest)

/-- An accepted request. -/
theorem addTimernodeToList_balanced {now : Timeval} {msg : Request}
    {r : Int × Request × State} (hvalid : msg.Valid)
    (h : s.addTimernodeToList now true msg = some r) : s.Balanced r.2.2 := by
  unfold addTimernodeToList at h
  rw [if_neg (by unfold Request.Valid at hvalid; omega),
    if_neg (by decide)] at h
  simp only [Option.bind_eq_bind, Option.bind_eq_some_iff,
    Option.some.injEq] at h
  obtain ⟨t, hlock, tmp, -, ends, -, rfl⟩ := h
  exact Balanced.unlock hlock ⟨rfl, rfl⟩

theorem delTimernodeFromList_balanced {msg : Request} {r : Int × State}
    (h : s.delTimernodeFromList msg = some r) : s.Balanced r.2 := by
  unfold delTimernodeFromList at h
  split at h
  · cases h
    exact Balanced.refl s
  · simp only [Option.bind_eq_bind, Option.bind_eq_some_iff] at h
    obtain ⟨t, hlock, p, -, h⟩ := h
    cases p with
    | none =>
        cases h
        exact Balanced.unlock hlock (Balanced.refl t)
    | some p =>
        simp only [Option.bind_eq_some_iff, Option.some.injEq] at h
        obtain ⟨n, -, u, hdequeue, rfl⟩ := h
        apply Balanced.unlock hlock
        refine Balanced.trans ?_ (timerDequeue_balanced hdequeue)
        cases msg.handler with
        | none => exact Balanced.refl t
        | some freeArg => exact ⟨rfl, rfl⟩

theorem delAllTimer_balanced {r : Int × State}
    (h : s.delAllTimer false = some r) : s.Balanced r.2 := by
  simp only [delAllTimer, Option.bind_eq_bind, Option.bind_eq_some_iff,
    Option.some.injEq] at h
  obtain ⟨t, hlock, u, hall, rfl⟩ := h
  exact Balanced.unlock hlock (dequeueAll_balanced hall)

theorem addTimeoutList_balanced {malloc : Bool} {hdl : Handler} {hdlArg : Arg}
    {r : Int × State} (h : s.addTimeoutList malloc hdl hdlArg = some r) :
    s.Balanced r.2 := by
  simp only [addTimeoutList, Option.bind_eq_bind,
    Option.bind_eq_some_iff] at h
  obtain ⟨t, hlock, h⟩ := h
  cases malloc with
  | false =>
      cases h
      exact Balanced.unlock hlock (Balanced.refl t)
  | true =>
      rw [if_pos rfl, Option.bind_eq_some_iff] at h
      obtain ⟨ends, -, h⟩ := h
      cases h
      exact Balanced.unlock hlock ⟨rfl, rfl⟩

theorem wakeWorker_balanced {create : Bool}
    (h : s.wakeWorker create = some t) : s.Balanced t := by
  simp only [wakeWorker, Option.bind_eq_bind, Option.bind_eq_some_iff] at h
  obtain ⟨u, hlock, h⟩ := h
  split at h
  · cases h
    exact Balanced.unlock hlock (Balanced.refl u)
  · have hfirst : s.Balanced
        ({ u with timeoutThreadIsOn := true }.unlock .timeout) :=
      Balanced.unlock hlock ⟨rfl, rfl⟩
    cases create with
    | true =>
        cases h
        exact hfirst.trans ⟨rfl, rfl⟩
    | false =>
        rw [if_neg (by decide), Option.bind_eq_some_iff] at h
        obtain ⟨v, hlock', h⟩ := h
        cases h
        exact hfirst.trans (Balanced.unlock hlock' ⟨rfl, rfl⟩)

theorem timerExecute_balanced {malloc create : Bool}
    (h : s.timerExecute malloc create = some t) : s.Balanced t := by
  unfold timerExecute at h
  split at h
  · cases h
    exact Balanced.refl s
  · simp only [Option.bind_eq_bind, Option.bind_eq_some_iff] at h
    obtain ⟨n, -, u, hlock, v, hdequeue, h⟩ := h
    have htaken : s.Balanced (v.unlock .timerq) :=
      Balanced.unlock hlock (timerDequeue_balanced hdequeue)
    split at h
    · cases h
      exact htaken
    · rw [Option.bind_eq_some_iff] at h
      obtain ⟨r, hadd, h⟩ := h
      have hqueued := htaken.trans (addTimeoutList_balanced hadd)
      split at h
      · cases h
        exact hqueued
      · exact hqueued.trans (wakeWorker_balanced h)

theorem getPendingList_balanced {r : Option Ptr × State}
    (h : s.getPendingList = some r) : s.Balanced r.2 := by
  simp only [getPendingList, Option.bind_eq_bind, Option.bind_eq_some_iff,
    Option.some.injEq] at h
  obtain ⟨t, hlock, ends, -, rfl⟩ := h
  exact Balanced.unlock hlock ⟨rfl, rfl⟩

/-! ## Failures -/

/-- Both lists are as they were. -/
structure SameLists (s t : State) : Prop where
  heap : t.heap = s.heap
  timerq : t.timerq = s.timerq
  timeoutList : t.timeoutList = s.timeoutList

theorem SameLists.unlock {m : Mutex} (hlock : s.lock m = some t) :
    s.SameLists (t.unlock m) := by
  obtain ⟨-, rfl⟩ := lock_some hlock
  exact ⟨rfl, rfl, rfl⟩

/-- An id never means failure. -/
theorem nextId_ne (curId : Int32) : (nextId curId).1 ≠ -1 := by
  unfold nextId
  split
  · rename_i hcur
    rw [hcur]
    decide
  · rename_i hcur
    exact hcur

theorem addTimernodeToList_failed {now : Timeval} {malloc : Bool}
    {msg : Request} {r : Int × Request × State}
    (h : s.addTimernodeToList now malloc msg = some r)
    (hfailed : r.1 < 0 ∨ r.2.1.id = -1) : s.SameLists r.2.2 := by
  by_cases hvalid : msg.Valid ∧ malloc = true
  · obtain ⟨hvalid, rfl⟩ := hvalid
    unfold addTimernodeToList at h
    rw [if_neg (by unfold Request.Valid at hvalid; omega),
      if_neg (by decide)] at h
    simp only [Option.bind_eq_bind, Option.bind_eq_some_iff,
      Option.some.injEq] at h
    obtain ⟨t, hlock, tmp, -, ends, -, rfl⟩ := h
    rcases hfailed with hneg | hid
    · cases hneg
    · exact absurd hid (nextId_ne t.curId)
  · rw [addTimernodeToList_rejected hvalid, Option.some.injEq] at h
    subst h
    exact ⟨rfl, rfl, rfl⟩

theorem delTimernodeFromList_failed {msg : Request} {r : Int × State}
    (h : s.delTimernodeFromList msg = some r) (hfailed : r.1 < 0) :
    s.SameLists r.2 := by
  unfold delTimernodeFromList at h
  split at h
  · cases h
    exact ⟨rfl, rfl, rfl⟩
  · simp only [Option.bind_eq_bind, Option.bind_eq_some_iff] at h
    obtain ⟨t, hlock, p, -, h⟩ := h
    cases p with
    | none =>
        cases h
        exact SameLists.unlock hlock
    | some p =>
        simp only [Option.bind_eq_some_iff, Option.some.injEq] at h
        obtain ⟨n, -, u, -, rfl⟩ := h
        cases hfailed

theorem addTimeoutList_unchanged {malloc : Bool} {hdl : Handler} {hdlArg : Arg}
    {r : Int × State} (h : s.addTimeoutList malloc hdl hdlArg = some r)
    (hfailed : r.1 < 0) : s.SameLists r.2 := by
  simp only [addTimeoutList, Option.bind_eq_bind,
    Option.bind_eq_some_iff] at h
  obtain ⟨t, hlock, h⟩ := h
  cases malloc with
  | false =>
      cases h
      exact SameLists.unlock hlock
  | true =>
      rw [if_pos rfl, Option.bind_eq_some_iff] at h
      obtain ⟨ends, -, h⟩ := h
      cases h
      cases hfailed

/-- `get_pending_list` has nothing to return. -/
theorem getPendingList_unchanged {r : Option Ptr × State}
    (h : s.getPendingList = some r) (hnone : r.1 = none) :
    s.SameLists r.2 := by
  simp only [getPendingList, Option.bind_eq_bind, Option.bind_eq_some_iff,
    Option.some.injEq] at h
  obtain ⟨t, hlock, ends, hpop, rfl⟩ := h
  have hsame : t.timeoutList = ends.2.1 ∧ t.heap = ends.2.2 := by
    unfold popBack at hpop
    split at hpop
    · cases hpop
      exact ⟨rfl, rfl⟩
    · simp only [Option.bind_eq_bind, Option.bind_eq_some_iff] at hpop
      obtain ⟨n, -, hpop⟩ := hpop
      split at hpop
      · cases hpop
        cases hnone
      · simp only [Option.bind_eq_some_iff, Option.some.injEq] at hpop
        obtain ⟨h, -, rfl⟩ := hpop
        cases hnone
  rw [← hsame.1, ← hsame.2]
  exact SameLists.unlock hlock

end State

/-! ## All functions -/

/-- What is asked of a call.  It returns when no mutex is held.  A mutex that
another thread holds is waited for, and where the call comes back the mutexes
are as it found them; `misused` starts clear.  A failure changes neither
list. -/
structure Call.Sound (c : Call) (s : State) : Prop where
  returns : (∀ m, s.held m = false) → (c.run s).isSome = true
  balanced : ∀ failed t, c.run { s with misused := false } = some (failed, t) →
    t.held = s.held ∧ t.misused = false
  unchanged : ∀ t, c.run s = some (true, t) → s.SameLists t

/-- An addition is accepted: its timeout is in the future, and there is
memory for the timer. -/
def Call.Accepted : Call → Prop
  | .addTimernodeToList _ malloc msg => msg.Valid ∧ malloc = true
  | .delTimernodeFromList _ | .delAllTimer | .timerExecute _ _
  | .addTimeoutList _ _ _ | .getPendingList => True

variable {s : State} {xs ys : List Cell}

theorem Call.balanced (c : Call) (haccepted : c.Accepted) {failed : Bool}
    {t : State} (h : c.run s = some (failed, t)) : s.Balanced t := by
  cases c with
  | addTimernodeToList now malloc msg =>
      obtain ⟨hvalid, rfl⟩ := haccepted
      obtain ⟨r, hrun, heq⟩ := Option.map_eq_some_iff.mp h
      cases heq
      exact State.addTimernodeToList_balanced hvalid hrun
  | delTimernodeFromList msg =>
      obtain ⟨r, hrun, heq⟩ := Option.map_eq_some_iff.mp h
      cases heq
      exact State.delTimernodeFromList_balanced hrun
  | delAllTimer =>
      obtain ⟨r, hrun, heq⟩ := Option.map_eq_some_iff.mp h
      cases heq
      exact State.delAllTimer_balanced hrun
  | timerExecute malloc create =>
      obtain ⟨r, hrun, heq⟩ := Option.map_eq_some_iff.mp h
      cases heq
      exact State.timerExecute_balanced hrun
  | addTimeoutList malloc hdl hdlArg =>
      obtain ⟨r, hrun, heq⟩ := Option.map_eq_some_iff.mp h
      cases heq
      exact State.addTimeoutList_balanced hrun
  | getPendingList =>
      obtain ⟨r, hrun, heq⟩ := Option.map_eq_some_iff.mp h
      cases heq
      exact State.getPendingList_balanced hrun

theorem Call.unchanged (c : Call) {t : State}
    (h : c.run s = some (true, t)) : s.SameLists t := by
  cases c with
  | addTimernodeToList now malloc msg =>
      obtain ⟨r, hrun, heq⟩ := Option.map_eq_some_iff.mp h
      rw [Prod.mk.injEq, decide_eq_true_eq] at heq
      rw [← heq.2]
      exact State.addTimernodeToList_failed hrun heq.1
  | delTimernodeFromList msg =>
      obtain ⟨r, hrun, heq⟩ := Option.map_eq_some_iff.mp h
      rw [Prod.mk.injEq, decide_eq_true_eq] at heq
      rw [← heq.2]
      exact State.delTimernodeFromList_failed hrun heq.1
  | delAllTimer =>
      obtain ⟨r, hrun, heq⟩ := Option.map_eq_some_iff.mp h
      rw [Prod.mk.injEq, decide_eq_true_eq] at heq
      -- it always returns 0
      simp only [State.delAllTimer, Option.bind_eq_bind,
        Option.bind_eq_some_iff, Option.some.injEq] at hrun
      obtain ⟨u, -, v, -, rfl⟩ := hrun
      cases heq.1
  | timerExecute malloc create =>
      obtain ⟨r, hrun, heq⟩ := Option.map_eq_some_iff.mp h
      cases heq
  | addTimeoutList malloc hdl hdlArg =>
      obtain ⟨r, hrun, heq⟩ := Option.map_eq_some_iff.mp h
      rw [Prod.mk.injEq, decide_eq_true_eq] at heq
      rw [← heq.2]
      exact State.addTimeoutList_unchanged hrun heq.1
  | getPendingList =>
      obtain ⟨r, hrun, heq⟩ := Option.map_eq_some_iff.mp h
      rw [Prod.mk.injEq, Option.isNone_iff_eq_none] at heq
      rw [← heq.2]
      exact State.getPendingList_unchanged hrun heq.1

/-- Whatever the lists hold and whoever holds the mutexes, a call is sound if
and only if it is not an addition that is turned down. -/
theorem call_sound_iff (c : Call) (rep : s.Rep xs ys) :
    c.Sound s ↔ c.Accepted := by
  constructor
  · intro hsound
    cases c with
    | addTimernodeToList now malloc msg =>
        by_contra hrejected
        have hadd : (Call.addTimernodeToList now malloc msg).run
            { s with misused := false } =
              some (true, { s with misused := false }.unlock .timerq) := by
          show (State.addTimernodeToList now malloc msg _).map _ = _
          rw [State.addTimernodeToList_rejected hrejected]
          rfl
        obtain ⟨hheld, hmisused⟩ := hsound.balanced _ _ hadd
        have hfree : Function.update s.held .timerq false .timerq =
            s.held .timerq := congrFun hheld .timerq
        rw [Function.update_self] at hfree
        have hlocked : (false || !s.held .timerq) = false := hmisused
        rw [← hfree] at hlocked
        cases hlocked
    | delTimernodeFromList msg => trivial
    | delAllTimer => trivial
    | timerExecute malloc create => trivial
    | addTimeoutList malloc hdl hdlArg => trivial
    | getPendingList => trivial
  · intro haccepted
    refine ⟨fun hfree => ?_, fun failed t hrun => ?_, fun t => c.unchanged⟩
    · obtain ⟨failed, t, xs', ys', hrun, -⟩ := c.run_rep rep hfree
      rw [hrun]
      rfl
    · obtain ⟨hheld, hmisused⟩ := c.balanced haccepted hrun
      exact ⟨hheld, hmisused⟩

/-! ## No memory -/

/-- A timer of a second. -/
def secondTimer : Request where
  action := .add
  timeout := ⟨1, 0⟩
  handler := some 0

/-- One timer waits when another one is added. -/
theorem second_timer_sound : ∃ s x, State.Rep s [x] [] ∧
    (Call.addTimernodeToList ⟨0, 5⟩ true secondTimer).Sound s := by
  have hvalid : secondTimer.Valid := ⟨by decide, by decide, by decide⟩
  obtain ⟨_, _, _, rep, _⟩ :=
    State.addTimernodeToList_rep ⟨0, 0⟩ State.rep_start rfl hvalid
  exact ⟨_, _, rep, (call_sound_iff _ rep).mpr ⟨hvalid, rfl⟩⟩

/-- Without memory for the timer, `timerq.mutex` is unlocked, which nobody has
locked. -/
theorem failed_malloc_unlocks : ¬ ∀ (c : Call) (s : State) (xs ys : List Cell),
    s.Rep xs ys → c.Sound s := by
  intro hclaim
  have hsound := hclaim (.addTimernodeToList ⟨0, 0⟩ false secondTimer) {} [] []
    State.rep_start
  obtain ⟨-, hmisused⟩ := hsound.balanced true
    (State.unlock .timerq {}) rfl
  cases hmisused

end ChessServer.LibTimer
