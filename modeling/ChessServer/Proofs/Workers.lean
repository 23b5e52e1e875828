import ChessServer.Model.Workers
import ChessServer.Proofs.TimerThread

/-!
# The timer thread and the workers

What holds between two blocks, whoever goes on: there is one worker at most,
`timeout_thread_is_on` says whether, and no block fails.  As long as every
signal is heard, the handlers on `timeout_list` have a worker.  With nobody in
between, the blocks of the timer thread are `timer_execute`
(`select_executes`).
-/

namespace ChessServer.LibTimer

open DList

/-- What holds between two blocks. -/
structure Running (s : Threads) (xs ys : List Cell) : Prop where
  library : Library s.lib xs ys
  alive : s.lib.running = false → s.task = .exited
  /-- a worker that is being created counts -/
  census : s.workers.length + (decide (s.task = .create)).toNat =
    s.lib.timeoutThreadIsOn.toNat
  handled : ∀ p, Worker.handle p ∈ s.workers →
    s.lib.Outside xs ys p ∧ ∃ n, s.lib.heap p = some n

/-- Between two handlings of the timer thread, nothing is left alone. -/
def Threads.Settled (s : Threads) : Prop :=
  s.task ≠ .queued → s.task ≠ .create → s.Attended

variable {s : Threads} {xs ys : List Cell}

/-- The first link says whether handlers wait. -/
theorem pending_iff {lib : State} (hlib : Library lib xs ys) :
    lib.timeoutList.first ≠ none ↔ ys ≠ [] := by
  rw [hlib.rep.timeoutList.first]
  cases ys with
  | nil => exact iff_of_false (fun h => h rfl) (fun h => h rfl)
  | cons y ys => exact iff_of_true (Option.some_ne_none _) (List.cons_ne_nil _ _)

/-! ## The timer thread -/

/-- The nodes that workers hold are kept. -/
theorem Running.handled_of_keeps (h : Running s xs ys) {lib : State}
    {xs' ys' : List Cell} (hkeeps : s.lib.Keeps xs ys lib xs' ys')
    {workers : List Worker}
    (hsub : ∀ p, Worker.handle p ∈ workers → Worker.handle p ∈ s.workers) :
    ∀ p, Worker.handle p ∈ workers →
      lib.Outside xs' ys' p ∧ ∃ n, lib.heap p = some n := by
  intro p hp
  obtain ⟨hout, n, hnode⟩ := h.handled p (hsub p hp)
  obtain ⟨hout', hsame⟩ := hkeeps p hout
  exact ⟨hout', n, hsame.trans hnode⟩

theorem Running.running_of (h : Running s xs ys) (htask : s.task ≠ .exited) :
    s.lib.running = true := by
  cases hrun : s.lib.running with
  | true => rfl
  | false => exact absurd (h.alive hrun) htask

/-- A signal starts no thread and ends none. -/
theorem length_condSignal (ws : List Worker) :
    (condSignal ws).length = ws.length := by
  induction ws with
  | nil => rfl
  | cons w ws ih =>
      cases w with
      | waiting => rfl
      | count | interval | wait | signalled | timedOut | pending | handle =>
          exact congrArg Nat.succ ih

/-- A signal changes nothing for the threads that do not wait. -/
theorem mem_condSignal {w : Worker} {ws : List Worker}
    (h : w ∈ condSignal ws) : w = .signalled ∨ w ∈ ws := by
  induction ws with
  | nil => cases h
  | cons v ws ih =>
      cases v with
      | waiting =>
          rcases List.mem_cons.mp h with rfl | h
          · exact Or.inl rfl
          · exact Or.inr (List.mem_cons_of_mem _ h)
      | count | interval | wait | signalled | timedOut | pending | handle =>
          rcases List.mem_cons.mp h with rfl | h
          · exact Or.inr (List.mem_cons_self ..)
          · exact (ih h).imp_right (List.mem_cons_of_mem _)

/-- A signal that is heard leaves a thread that looks. -/
theorem condSignal_looks {ws : List Worker}
    (h : ∃ w ∈ ws, w = .waiting ∨ w.looks = true) :
    ∃ w ∈ condSignal ws, w.looks = true := by
  induction ws with
  | nil => simp at h
  | cons v ws ih =>
      by_cases hv : v = .waiting
      · subst hv
        exact ⟨.signalled, List.mem_cons_self .., rfl⟩
      · have hcons : condSignal (v :: ws) = v :: condSignal ws := by
          cases v with
          | waiting => exact absurd rfl hv
          | count | interval | wait | signalled | timedOut | pending | handle =>
              rfl
        rw [hcons]
        obtain ⟨w, hw, hor⟩ := h
        rcases List.mem_cons.mp hw with rfl | hw
        · exact ⟨w, List.mem_cons_self .., hor.resolve_left hv⟩
        · obtain ⟨w', hw', hlooks⟩ := ih ⟨w, hw, hor⟩
          exact ⟨w', List.mem_cons_of_mem _ hw', hlooks⟩

/-- A request leaves the workers alone. -/
theorem step_request {msg : Request} {now : Timeval} (h : Running s xs ys)
    (henabled : s.enabled (.request msg now)) :
    ∃ s' xs' ys', s.step (.request msg now) = some s' ∧ Running s' xs' ys' ∧
      (s.Settled → s'.Settled) := by
  obtain ⟨htask, hnow⟩ := henabled
  have hrunning := h.running_of (by rw [htask]; decide)
  obtain ⟨r, xs', hmsg, hlib, hkeeps, hon, -⟩ :=
    handleMsg_library true msg h.library hrunning hnow
  have hcensus := h.census
  rw [htask] at hcensus
  refine ⟨{ s with
      lib := r.2.2
      task := if r.2.2.running then .select else .exited },
    xs', ys, ?_, ⟨hlib, fun hrun => ?_, ?_, ?_⟩, fun hsettled _ _ hpending => ?_⟩
  · simp only [Threads.step, hmsg, Option.bind_eq_bind, Option.bind_some]
  · exact if_neg (by rw [hrun]; decide)
  · show s.workers.length + (decide ((if r.2.2.running = true then
      TimerTask.select else .exited) = .create)).toNat =
        r.2.2.timeoutThreadIsOn.toNat
    rw [hon]
    cases r.2.2.running with
    | true => exact hcensus
    | false => exact hcensus
  · exact h.handled_of_keeps hkeeps fun _ hp => hp
  · have hs : s.Attended := hsettled (by rw [htask]; decide)
      (by rw [htask]; decide)
    exact hs ((pending_iff h.library).mpr ((pending_iff hlib).mp hpending))

/-- An expiry takes one timer off the queue. -/
theorem step_timeout (h : Running s xs ys) (htask : s.task = .select) :
    ∃ s' xs' ys', s.step .timeout = some s' ∧ Running s' xs' ys' ∧
      (s.Settled → s'.Settled) := by
  have hrunning := h.running_of (by rw [htask]; decide)
  cases xs with
  | nil =>
      refine ⟨s, [], ys, ?_, h, fun hsettled => hsettled⟩
      simp only [Threads.step, State.takeFirst_nil h.library.rep,
        Option.bind_eq_bind, Option.bind_some]
  | cons x xs =>
      obtain ⟨q, hp, htake, rep, hkeeps⟩ :=
        State.takeFirst_rep h.library.rep (h.library.free _)
      have hlib : Library { s.lib with timerq := q, heap := hp } xs ys := by
        refine ⟨rep, ?_, h.library.free, fun hexit => ?_⟩
        · exact h.library.deadlines.mono (List.subset_cons_self x xs)
        · exact absurd (hrunning.symm.trans hexit) (by decide)
      have hattended : s.Settled →
          Threads.Attended { s with lib := { s.lib with timerq := q, heap := hp } } :=
        fun hsettled => hsettled (by rw [htask]; decide) (by rw [htask]; decide)
      have hhandled := h.handled_of_keeps hkeeps fun _ hp => hp
      have hcensus := h.census
      cases hhandler : x.2.handler with
      | none =>
          refine ⟨{ s with lib := { s.lib with timerq := q, heap := hp } },
            xs, ys, ?_, ⟨hlib, h.alive, hcensus, hhandled⟩,
            fun hsettled _ _ => hattended hsettled⟩
          simp only [Threads.step, htake, hhandler, Option.bind_eq_bind,
            Option.bind_some, Option.map_none]
      | some hdl =>
          rw [htask] at hcensus
          refine ⟨{ s with
              lib := { s.lib with timerq := q, heap := hp }
              task := .expired hdl x.2.handlerArg },
            xs, ys, ?_, ⟨hlib, fun hrun => ?_, hcensus, hhandled⟩,
            fun hsettled _ _ => hattended hsettled⟩
          · simp only [Threads.step, htake, hhandler, Option.bind_eq_bind,
              Option.bind_some, Option.map_some]
          · exact absurd (hrunning.symm.trans hrun) (by decide)

/-- The timer thread goes on; if its signal is heard, nothing is left alone. -/
theorem step_task (h : Running s xs ys) (henabled : s.enabled .task) :
    ∃ s' xs' ys', s.step .task = some s' ∧ Running s' xs' ys' ∧
      (s.Settled → s.Heard .task → s'.Settled) := by
  obtain ⟨hselect, hexited⟩ := henabled
  have hrunning := h.running_of hexited
  have hcensus := h.census
  cases htask : s.task with
  | select => exact absurd htask hselect
  | exited => exact absurd htask hexited
  | expired hdl hdlArg =>
      obtain ⟨q, hp, hadd, rep, hkeeps⟩ :=
        State.addTimeoutList_rep hdl hdlArg h.library.rep (h.library.free _)
      rw [htask] at hcensus
      refine ⟨{ s with
          lib := { s.lib with
            timeoutList := q, heap := hp, top := s.lib.top + 1 }
          task := .queued }, xs, _, ?_,
        ⟨⟨rep, h.library.deadlines, h.library.free, h.library.exited⟩,
          fun hrun => ?_, hcensus, ?_⟩, fun _ _ hqueued _ => ?_⟩
      · simp only [Threads.step, Threads.taskBlock, htask, hadd,
          Option.bind_eq_bind, Option.bind_some]
        rfl
      · exact absurd (hrunning.symm.trans hrun) (by decide)
      · exact h.handled_of_keeps hkeeps fun _ hp => hp
      · exact absurd rfl hqueued
  | queued =>
      have hclaim := State.claimWorker_eq (h.library.free .timeout)
      have hlib : Library { s.lib with timeoutThreadIsOn := true } xs ys :=
        ⟨⟨h.library.rep.timerq, h.library.rep.timeoutList,
          h.library.rep.apart, h.library.rep.below⟩,
          h.library.deadlines, h.library.free, h.library.exited⟩
      have hkeeps : s.lib.Keeps xs ys
          { s.lib with timeoutThreadIsOn := true } xs ys :=
        fun _ hp => ⟨⟨hp.below, hp.timerq, hp.timeoutList⟩, rfl⟩
      rw [htask] at hcensus
      cases hon : s.lib.timeoutThreadIsOn with
      | true =>
          rw [hon] at hclaim hcensus
          refine ⟨{ s with
              lib := { s.lib with timeoutThreadIsOn := true }
              task := .select, workers := condSignal s.workers }, xs, ys, ?_,
            ⟨hlib, fun hrun => ?_, ?_, ?_⟩, fun _ hheard _ _ hpending => ?_⟩
          · simp only [Threads.step, Threads.taskBlock, htask, hclaim,
              Option.bind_eq_bind, Option.bind_some]
            rfl
          · exact absurd (hrunning.symm.trans hrun) (by decide)
          · show (condSignal s.workers).length + 0 = 1
            rw [length_condSignal]
            exact hcensus
          · apply h.handled_of_keeps hkeeps
            intro p hp
            exact (mem_condSignal hp).resolve_left nofun
          · exact condSignal_looks (hheard rfl htask hon hpending)
      | false =>
          rw [hon] at hclaim hcensus
          refine ⟨{ s with
              lib := { s.lib with timeoutThreadIsOn := true }
              task := .create }, xs, ys, ?_,
            ⟨hlib, fun hrun => ?_, ?_, ?_⟩, fun _ _ _ hcreate => ?_⟩
          · simp only [Threads.step, Threads.taskBlock, htask, hclaim,
              Option.bind_eq_bind, Option.bind_some]
            rfl
          · exact absurd (hrunning.symm.trans hrun) (by decide)
          · show s.workers.length + 1 = 1
            have hzero : s.workers.length + 0 = 0 := hcensus
            omega
          · exact h.handled_of_keeps hkeeps fun _ hp => hp
          · exact absurd rfl hcreate
  | create =>
      rw [htask] at hcensus
      refine ⟨{ s with
          lib := { s.lib with workers := s.lib.workers + 1 }
          task := .select, workers := s.workers ++ [.count] }, xs, ys, ?_,
        ⟨⟨⟨h.library.rep.timerq, h.library.rep.timeoutList,
          h.library.rep.apart, h.library.rep.below⟩,
          h.library.deadlines, h.library.free, h.library.exited⟩,
          fun hrun => ?_, ?_, ?_⟩, fun _ _ _ _ _ => ?_⟩
      · simp only [Threads.step, Threads.taskBlock, htask]
      · exact absurd (hrunning.symm.trans hrun) (by decide)
      · show (s.workers ++ [Worker.count]).length + 0 = s.lib.timeoutThreadIsOn.toNat
        rw [List.length_append]
        exact hcensus
      · have hkeeps : s.lib.Keeps xs ys
            { s.lib with workers := s.lib.workers + 1 } xs ys :=
          fun _ hp => ⟨⟨hp.below, hp.timerq, hp.timeoutList⟩, rfl⟩
        apply h.handled_of_keeps hkeeps
        intro p hp
        rcases List.mem_append.mp hp with hp | hp
        · exact hp
        · rw [List.mem_singleton] at hp
          cases hp
      · exact ⟨.count, List.mem_append_right _ (List.mem_singleton_self _), rfl⟩

/-! ## Workers -/

/-- A worker that can be found is the only one. -/
theorem Running.only (h : Running s xs ys) {i : Nat} {w : Worker}
    (hw : s.workers[i]? = some w) :
    i = 0 ∧ s.workers = [w] ∧ s.lib.timeoutThreadIsOn = true ∧
      s.task ≠ .create := by
  have hcensus := h.census
  have hlt : i < s.workers.length := (List.getElem?_eq_some_iff.mp hw).1
  have hle := Bool.toNat_le s.lib.timeoutThreadIsOn
  have hone : s.workers.length = 1 := by omega
  obtain ⟨v, hv⟩ := List.length_eq_one_iff.mp hone
  have hi : i = 0 := by omega
  rw [hv, hi, List.getElem?_cons_zero, Option.some.injEq] at hw
  refine ⟨hi, hw ▸ hv, ?_, fun htask => ?_⟩
  · cases hon : s.lib.timeoutThreadIsOn with
    | true => rfl
    | false =>
        rw [hon, Bool.toNat_false] at hcensus
        omega
  · rw [htask, decide_eq_true rfl, Bool.toNat_true] at hcensus
    omega

/-- A step of the only worker. -/
theorem step_worker_eq {w : Worker} {w' : Option Worker} {now : Timeval}
    {called : Option (Handler × Arg)} {lib : State} (hw : s.workers = [w])
    (hblock : w.block now s.lib = some (w', called, lib)) :
    s.step (.worker 0 now) = some { s with
      lib, workers := w'.toList, called := called.toList ++ s.called } := by
  simp only [Threads.step, hw, List.getElem?_cons_zero, hblock,
    Option.bind_eq_bind, Option.bind_some]
  cases w' with
  | none => rfl
  | some w' => rfl

/-- The only worker goes on. -/
theorem Running.advance (h : Running s xs ys) {w w' : Worker}
    (hw : s.workers = [w]) {lib : State} {xs' ys' : List Cell}
    (called : List (Handler × Arg)) (hlib : Library lib xs' ys')
    (hon : lib.timeoutThreadIsOn = s.lib.timeoutThreadIsOn)
    (hrun : lib.running = s.lib.running)
    (hhandled : ∀ p, w' = .handle p →
      lib.Outside xs' ys' p ∧ ∃ n, lib.heap p = some n) :
    Running { s with lib, workers := [w'], called } xs' ys' := by
  have hcensus := h.census
  rw [hw] at hcensus
  refine ⟨hlib, fun hexit => h.alive (hrun ▸ hexit), ?_, fun p hp => ?_⟩
  · show [w'].length + _ = lib.timeoutThreadIsOn.toNat
    rw [hon]
    exact hcensus
  · rw [List.mem_singleton] at hp
    exact hhandled p hp.symm

/-- A worker that does not look is no help. -/
theorem not_pending {w : Worker} (hw : s.workers = [w])
    (hlooks : w.looks = false) (hattended : s.Attended) : ¬ s.Pending := by
  intro hpending
  obtain ⟨v, hv, hv'⟩ := hattended hpending
  rw [hw, List.mem_singleton] at hv
  rw [hv, hlooks] at hv'
  cases hv'

theorem block_interval (now : Timeval) (h : Running s xs ys) :
    ∃ waiteInterval, Worker.block now s.lib .interval =
      some (some (.wait waiteInterval), none, s.lib) := by
  have hinterval :=
    State.getWaiteInterval_rep now h.library.rep (h.library.free _)
  refine ⟨(xs.getLast?.map fun x =>
    State.waiteInterval now x.2.timeout).getD 0, ?_⟩
  simp only [Worker.block, hinterval, Option.bind_eq_bind, Option.bind_some]

theorem block_wait (now : Timeval) (waiteInterval : Int)
    (h : Running s xs ys) :
    Worker.block now s.lib (.wait waiteInterval) =
      some (some .waiting, none, s.lib) := by
  simp only [Worker.block, State.lock_free (h.library.free .timeout),
    Option.bind_eq_bind, Option.bind_some]
  rw [State.unlock_held (h.library.free .timeout) rfl]

theorem block_timedOut (now : Timeval) (h : Running s xs ys) :
    Worker.block now s.lib .timedOut =
      some (none, none, { s.lib with timeoutThreadIsOn := false }) := by
  simp only [Worker.block, State.lock_free (h.library.free .timeout),
    Option.bind_eq_bind, Option.bind_some]
  rw [State.unlock_held (h.library.free .timeout) rfl]

/-- A block of a worker that does not exit. -/
theorem block_worker {w : Worker} (now : Timeval) (h : Running s xs ys)
    (hw : s.workers = [w]) (hwait : w ≠ .waiting) (hover : w ≠ .timedOut) :
    ∃ w' called lib ys', w.block now s.lib = some (some w', called, lib) ∧
      Library lib xs ys' ∧
      lib.timeoutThreadIsOn = s.lib.timeoutThreadIsOn ∧
      lib.running = s.lib.running ∧
      (∀ p, w' = .handle p →
        lib.Outside xs ys' p ∧ ∃ n, lib.heap p = some n) ∧
      (w.looks = true → ys' ≠ [] → w'.looks = true) ∧
      (w.looks = false → lib = s.lib ∧ w'.looks = false) := by
  have hlib := h.library
  cases w with
  | waiting => exact absurd rfl hwait
  | timedOut => exact absurd rfl hover
  | count =>
      have hcount := State.getPendingListCount_rep hlib.rep (hlib.free _)
      refine ⟨if ys.length = 0 then .interval else .pending, none, s.lib, ys,
        ?_, hlib, rfl, rfl, fun p hp => ?_, fun _ hys => ?_, nofun⟩
      · simp only [Worker.block, hcount, Option.bind_eq_bind, Option.bind_some]
      · split at hp
        · cases hp
        · cases hp
      · rw [if_neg fun hlen => hys (List.length_eq_zero_iff.mp hlen)]
        rfl
  | interval =>
      obtain ⟨interval, hblock⟩ := block_interval now h
      exact ⟨.wait interval, none, s.lib, ys, hblock, hlib, rfl, rfl, nofun,
        nofun, fun _ => ⟨rfl, rfl⟩⟩
  | wait waiteInterval =>
      exact ⟨.waiting, none, s.lib, ys, block_wait now waiteInterval h, hlib,
        rfl, rfl, nofun, nofun, fun _ => ⟨rfl, rfl⟩⟩
  | signalled =>
      refine ⟨.count, none, s.lib, ys, ?_, hlib, rfl, rfl, nofun,
        fun _ _ => rfl, nofun⟩
      simp only [Worker.block, State.lock_free (hlib.free .timeout),
        Option.bind_eq_bind, Option.bind_some]
      rw [State.unlock_held (hlib.free .timeout) rfl]
  | pending =>
      cases ys using List.reverseRecOn with
      | nil =>
          have hnil := State.getPendingList_nil hlib.rep (hlib.free _)
          refine ⟨.count, none, s.lib, [], ?_, hlib, rfl, rfl, nofun,
            fun _ _ => rfl, nofun⟩
          simp only [Worker.block, hnil, Option.bind_eq_bind, Option.bind_some]
      | append_singleton ys y =>
          obtain ⟨q, hp, hpop, rep, -, hout, hnode⟩ :=
            State.getPendingList_rep hlib.rep (hlib.free _)
          refine ⟨.handle y.1, none, { s.lib with timeoutList := q, heap := hp },
            ys, ?_, ⟨rep, hlib.deadlines, hlib.free, hlib.exited⟩, rfl, rfl,
            fun p heq => ?_, fun _ _ => rfl, nofun⟩
          · simp only [Worker.block, hpop, Option.bind_eq_bind,
              Option.bind_some]
          · cases heq
            exact ⟨hout, _, hnode⟩
  | handle p =>
      have hmem : Worker.handle p ∈ s.workers := by
        rw [hw]
        exact List.mem_singleton_self _
      obtain ⟨hout, n, hnode⟩ := h.handled p hmem
      obtain ⟨hp, hcall, rep⟩ := State.callHandler_rep hlib.rep hout hnode
      refine ⟨.count,
        n.val.handler.map fun handler => (handler, n.val.handlerArg),
        { s.lib with heap := hp }, ys, ?_,
        ⟨rep, hlib.deadlines, hlib.free, hlib.exited⟩, rfl, rfl, nofun,
        fun _ _ => rfl, nofun⟩
      simp only [Worker.block, hcall, Option.bind_eq_bind, Option.bind_some]

/-- A worker goes on, or exits. -/
theorem step_worker {i : Nat} {now : Timeval} (h : Running s xs ys)
    (henabled : s.enabled (.worker i now)) :
    ∃ s' xs' ys', s.step (.worker i now) = some s' ∧ Running s' xs' ys' ∧
      (s.Settled → s'.Settled) := by
  obtain ⟨w, hfind, hwait⟩ := henabled
  obtain ⟨rfl, hw, hon, hcreate⟩ := h.only hfind
  by_cases hover : w = .timedOut
  · subst hover
    refine ⟨{ s with
        lib := { s.lib with timeoutThreadIsOn := false }
        workers := [] }, xs, ys, step_worker_eq hw (block_timedOut now h),
      ⟨⟨⟨h.library.rep.timerq, h.library.rep.timeoutList,
        h.library.rep.apart, h.library.rep.below⟩,
        h.library.deadlines, h.library.free, h.library.exited⟩,
        h.alive, ?_, nofun⟩, fun hsettled hq hc hpending => ?_⟩
    · show 0 + (decide (s.task = .create)).toNat = 0
      rw [decide_eq_false hcreate]
      rfl
    · have hpending' : s.Pending := hpending
      exact absurd hpending' (not_pending hw rfl (hsettled hq hc))
  · obtain ⟨w', called, lib, ys', hblock, hlib, hon', hrun, hhandled, hlooks,
      hdeaf⟩ := block_worker now h hw hwait hover
    refine ⟨_, xs, ys', step_worker_eq hw hblock,
      h.advance hw _ hlib hon' hrun hhandled, fun hsettled hq hc hpending => ?_⟩
    cases hw' : w.looks with
    | true =>
        have hys := (pending_iff hlib).mp hpending
        exact ⟨w', List.mem_singleton_self _, hlooks hw' hys⟩
    | false =>
        obtain ⟨hsame, -⟩ := hdeaf hw'
        subst hsame
        have hpending' : s.Pending := hpending
        exact absurd hpending' (not_pending hw hw' (hsettled hq hc))

/-- A wait that is over. -/
theorem step_woken {i : Nat} {timedOut : Bool} (h : Running s xs ys)
    (henabled : s.enabled (.woken i timedOut)) :
    ∃ s' xs' ys', s.step (.woken i timedOut) = some s' ∧ Running s' xs' ys' ∧
      (s.Settled → s'.Settled) := by
  obtain ⟨rfl, hw, -, -⟩ := h.only henabled
  have hpass : (if timedOut then Worker.timedOut else .signalled) = .timedOut ∨
      (if timedOut then Worker.timedOut else .signalled) = .signalled := by
    cases timedOut with
    | true => exact Or.inl rfl
    | false => exact Or.inr rfl
  refine ⟨{ s with workers := [if timedOut then .timedOut else .signalled] },
    xs, ys, ?_, h.advance hw s.called h.library rfl rfl fun p hp => ?_,
    fun hsettled hq hc hpending => ?_⟩
  · simp only [Threads.step, hw, List.set_cons_zero]
  · rw [hp] at hpass
    rcases hpass with hpass | hpass
    · cases hpass
    · cases hpass
  · have hpending' : s.Pending := hpending
    exact absurd hpending' (not_pending hw rfl (hsettled hq hc))

/-! ## Runs -/

/-- No block fails, whoever goes on. -/
theorem step_running {e : Turn} (h : Running s xs ys)
    (henabled : threads.enabled e s) :
    ∃ s' xs' ys', threads.step e s = some s' ∧ Running s' xs' ys' ∧
      (s.Settled → s.Heard e → s'.Settled) := by
  cases e with
  | request msg now =>
      obtain ⟨s', xs', ys', hstep, hrun, hsettled⟩ := step_request h henabled
      exact ⟨s', xs', ys', hstep, hrun, fun hs _ => hsettled hs⟩
  | timeout =>
      obtain ⟨s', xs', ys', hstep, hrun, hsettled⟩ := step_timeout h henabled
      exact ⟨s', xs', ys', hstep, hrun, fun hs _ => hsettled hs⟩
  | task => exact step_task h henabled
  | worker i now =>
      obtain ⟨s', xs', ys', hstep, hrun, hsettled⟩ := step_worker h henabled
      exact ⟨s', xs', ys', hstep, hrun, fun hs _ => hsettled hs⟩
  | woken i timedOut =>
      obtain ⟨s', xs', ys', hstep, hrun, hsettled⟩ := step_woken h henabled
      exact ⟨s', xs', ys', hstep, hrun, fun hs _ => hsettled hs⟩

/-- The lists are well formed between any two blocks. -/
theorem reachable_running (h : threads.Reachable s) :
    ∃ xs ys, Running s xs ys := by
  refine h.invariant (I := fun s => ∃ xs ys, Running s xs ys) ?_ ?_
  · exact ⟨[], [], ⟨State.rep_start, nofun, fun _ => rfl, fun _ => rfl⟩, nofun,
      rfl, nofun⟩
  · intro e a b hrun henabled _ hstep
    obtain ⟨xs, ys, hrun⟩ := hrun
    obtain ⟨b', xs', ys', hstep', hrun', -⟩ := step_running hrun henabled
    rw [hstep', Option.some.injEq] at hstep
    exact ⟨xs', ys', hstep ▸ hrun'⟩

/-- The timer thread goes on. -/
def Threads.Alone (s s' : Threads) : Prop :=
  ∃ e, (e = .timeout ∨ e = .task) ∧ s.enabled e ∧ s.step e = some s'

theorem alone_task {s' : Threads} (hselect : s.task ≠ .select)
    (hexited : s.task ≠ .exited) (h : s.taskBlock = some s') : s.Alone s' :=
  ⟨.task, Or.inr rfl, ⟨hselect, hexited⟩, h⟩

/-- The blocks behind `add_timeout_list`, with nobody in between. -/
theorem queued_executes (h : Library s.lib xs ys) (htask : s.task = .queued) :
    ∃ s', Relation.ReflTransGen Threads.Alone s s' ∧ s'.task = .select ∧
      s.lib.wakeWorker true = some s'.lib := by
  have hclaim := State.claimWorker_eq (h.free .timeout)
  rw [State.wakeWorker_blocks (h.free .timeout), hclaim, Option.map_some]
  cases hon : s.lib.timeoutThreadIsOn with
  | true =>
      rw [hon] at hclaim
      refine ⟨{ s with
          lib := { s.lib with timeoutThreadIsOn := true }
          task := .select, workers := condSignal s.workers },
        .single (alone_task ?_ ?_ ?_), rfl, rfl⟩
      · rw [htask]
        exact nofun
      · rw [htask]
        exact nofun
      · simp only [Threads.taskBlock, htask, hclaim, Option.bind_eq_bind,
          Option.bind_some]
        rfl
  | false =>
      rw [hon] at hclaim
      have hcreate : s.Alone { s with
          lib := { s.lib with timeoutThreadIsOn := true }
          task := .create } := by
        refine alone_task ?_ ?_ ?_
        · rw [htask]
          exact nofun
        · rw [htask]
          exact nofun
        · simp only [Threads.taskBlock, htask, hclaim, Option.bind_eq_bind,
            Option.bind_some]
          rfl
      exact ⟨_, (Relation.ReflTransGen.single hcreate).tail
        (alone_task nofun nofun rfl), rfl, rfl⟩

/-- From `select` on, with nobody in between, the blocks of the timer thread do
what `timer_execute` does. -/
theorem select_executes (h : threads.Reachable s) (htask : s.task = .select) :
    ∃ s', Relation.ReflTransGen Threads.Alone s s' ∧ s'.task = .select ∧
      s.lib.timerExecute true true = some s'.lib := by
  obtain ⟨xs, ys, hrun⟩ := reachable_running h
  obtain ⟨s₁, xs₁, ys₁, hstep, hrun₁, -⟩ := step_timeout hrun htask
  have hfirst : s.Alone s₁ := ⟨.timeout, Or.inl rfl, htask, hstep⟩
  rw [State.timerExecute_blocks hrun.library.rep hrun.library.free]
  simp only [Threads.step, Option.bind_eq_bind, Option.bind_eq_some_iff]
    at hstep
  obtain ⟨⟨hdl, lib⟩, htake, hs₁⟩ := hstep
  rw [htake, Option.bind_some]
  cases hdl with
  | none =>
      cases hs₁
      exact ⟨_, .single hfirst, htask, rfl⟩
  | some hdl =>
      cases hs₁
      have hlib : Library lib xs₁ ys₁ := hrun₁.library
      obtain ⟨q, hp, hadd, rep, -⟩ :=
        State.addTimeoutList_rep hdl.1 hdl.2 hlib.rep (hlib.free _)
      have hadded : Threads.Alone
          { s with lib, task := .expired hdl.1 hdl.2 } { s with
            lib := { lib with timeoutList := q, heap := hp, top := lib.top + 1 }
            task := .queued } := by
        refine alone_task nofun nofun ?_
        simp only [Threads.taskBlock, hadd, Option.bind_eq_bind,
          Option.bind_some]
        rfl
      have hlib₂ : Library { lib with
          timeoutList := q, heap := hp, top := lib.top + 1 } xs₁ _ :=
        ⟨rep, hlib.deadlines, hlib.free, hlib.exited⟩
      obtain ⟨s', hrest, hselect, hwake⟩ := queued_executes (s := { s with
        lib := { lib with timeoutList := q, heap := hp, top := lib.top + 1 }
        task := .queued }) hlib₂ rfl
      refine ⟨s', .head hfirst (.head hadded hrest), hselect, ?_⟩
      dsimp only
      rw [hadd, Option.bind_some, ← hwake, State.wakeWorker_blocks]
      exact hlib.free .timeout

/-- When every signal is heard, nothing is left alone. -/
theorem reachable_settled
    (h : threads.ReachableWith (fun e s => s.Heard e) s) : s.Settled := by
  refine h.invariant_of (I := Threads.Settled) reachable_running ?_ ?_
  · exact fun _ _ hpending => absurd rfl hpending
  · intro e a b hrun hsettled henabled hheard hstep
    obtain ⟨xs, ys, hrun⟩ := hrun
    obtain ⟨b', xs', ys', hstep', -, hsettled'⟩ := step_running hrun henabled
    rw [hstep', Option.some.injEq] at hstep
    exact hstep ▸ hsettled' hsettled hheard

/-! ## A lost signal -/

/-- A worker whose wait has timed out leaves the handlers behind. -/
theorem timedOut_strands (h : threads.Reachable s) (htask : s.task = .select)
    (hpending : s.Pending) (hw : s.workers = [.timedOut]) :
    ∃ s', Relation.ReflTransGen threads.Next s s' ∧ s'.Stranded := by
  obtain ⟨xs, ys, hrun⟩ := reachable_running h
  have hstep := step_worker_eq hw (block_timedOut ⟨0, 0⟩ hrun)
  have henabled : threads.enabled (.worker 0 ⟨0, 0⟩) s :=
    ⟨.timedOut, by rw [hw]; rfl, by decide⟩
  exact ⟨_, .single ⟨_, henabled, hstep⟩, htask, hpending, rfl, rfl⟩

/-- A worker that waits may time out and leave the handlers behind. -/
theorem waiting_strands (h : threads.Reachable s) (htask : s.task = .select)
    (hpending : s.Pending) (hw : s.workers = [.waiting]) :
    ∃ s', Relation.ReflTransGen threads.Next s s' ∧ s'.Stranded := by
  have hstep : threads.step (.woken 0 true) s =
      some { s with workers := [.timedOut] } := by
    show some _ = _
    rw [hw]
    rfl
  have henabled : threads.enabled (.woken 0 true) s := by
    show s.workers[0]? = some .waiting
    rw [hw]
    rfl
  obtain ⟨s', hnext, hstranded⟩ :=
    timedOut_strands (h.step henabled trivial hstep) htask hpending rfl
  exact ⟨s', .head ⟨_, henabled, hstep⟩ hnext, hstranded⟩

/-- So may one that is about to wait. -/
theorem wait_strands {waiteInterval : Int} (h : threads.Reachable s)
    (htask : s.task = .select) (hpending : s.Pending)
    (hw : s.workers = [.wait waiteInterval]) :
    ∃ s', Relation.ReflTransGen threads.Next s s' ∧ s'.Stranded := by
  obtain ⟨xs, ys, hrun⟩ := reachable_running h
  have hstep := step_worker_eq hw (block_wait ⟨0, 0⟩ waiteInterval hrun)
  have henabled : threads.enabled (.worker 0 ⟨0, 0⟩) s :=
    ⟨.wait waiteInterval, by rw [hw]; rfl, nofun⟩
  obtain ⟨s', hnext, hstranded⟩ :=
    waiting_strands (h.step henabled trivial hstep) htask hpending rfl
  exact ⟨s', .head ⟨_, henabled, hstep⟩ hnext, hstranded⟩

/-- A worker that does not look leaves the handlers behind. -/
theorem deaf_strands {w : Worker} (h : threads.Reachable s)
    (htask : s.task = .select) (hpending : s.Pending) (hw : s.workers = [w])
    (hlooks : w.looks = false) :
    ∃ s', Relation.ReflTransGen threads.Next s s' ∧ s'.Stranded := by
  cases w with
  | timedOut => exact timedOut_strands h htask hpending hw
  | waiting => exact waiting_strands h htask hpending hw
  | wait waiteInterval => exact wait_strands h htask hpending hw
  | interval =>
      obtain ⟨xs, ys, hrun⟩ := reachable_running h
      obtain ⟨waiteInterval, hblock⟩ := block_interval ⟨0, 0⟩ hrun
      have hstep := step_worker_eq hw hblock
      have henabled : threads.enabled (.worker 0 ⟨0, 0⟩) s :=
        ⟨.interval, by rw [hw]; rfl, by decide⟩
      obtain ⟨s', hnext, hstranded⟩ :=
        wait_strands (h.step henabled trivial hstep) htask hpending rfl
      exact ⟨s', .head ⟨_, henabled, hstep⟩ hnext, hstranded⟩
  | count | pending | signalled | handle => cases hlooks

end ChessServer.LibTimer
