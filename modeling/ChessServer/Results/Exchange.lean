import ChessServer.Proofs.Exchange

/-!
# What timer_add returns

The timer thread adds the timer before it replies, so a call that fails on the
way back says that there is no timer when there is one (`timer_add_honest`).
-/

namespace ChessServer.LibTimer

/-- As long as everything is in time, `timer_add` returns a negative value
only if no timer was added and none will be, and any other value only if one
timer was added, with that id.  A step that is out of time can be followed by
a return that is wrong. -/
theorem timer_add_honest (sec usec : Int) (hndlr : Option Handler)
    (hndlrArg : Arg) :
    (∀ x, (exchange sec usec hndlr hndlrArg).ReachableWith
        (fun e x => x.InTime e) x → x.Honest hndlr hndlrArg) ∧
      ∀ e x, (exchange sec usec hndlr hndlrArg).Reachable x →
        (exchange sec usec hndlr hndlrArg).enabled e x → ¬ x.InTime e →
        ∃ y z, (exchange sec usec hndlr hndlrArg).step e x = some y ∧
          Relation.ReflTransGen (exchange sec usec hndlr hndlrArg).Next y z ∧
          ¬ z.Honest hndlr hndlrArg := by
  constructor
  · intro x h
    have hfaith := reachable_faithful h
    refine ⟨fun ret hret hneg => ?_, hfaith.nonneg⟩
    have hnil := hfaith.negative ret hret hneg
    refine ⟨hnil, ?_⟩
    rintro ⟨t, ht, hhandler, harg⟩
    cases hmsg : timerAdd sec usec hndlr hndlrArg with
    | none =>
        rw [reachable_idle hmsg h.reachable] at ht
        cases ht
    | some msg =>
        obtain ⟨-, -, -, hhandler', harg'⟩ := timerAdd_some hmsg
        obtain ⟨xs, ys, hunder⟩ := reachable_underway hmsg h.reachable
        rw [waiting_rep hunder.library.rep] at ht
        obtain ⟨c, hc, rfl⟩ := List.mem_map.mp ht
        exact hunder.own hnil c hc
          ⟨hhandler.trans hhandler'.symm, harg.trans harg'.symm⟩
  · intro e x h henabled hlate
    obtain ⟨msg, hmsg, henabled'⟩ := enabled_request henabled
    obtain ⟨haction, hvalid, -⟩ := timerAdd_some hmsg
    obtain ⟨xs, ys, hunder⟩ := reachable_underway hmsg h
    have hminus : (-1 : Int32) < 0 := by decide
    cases e with
    | connect | callerSend | callerRecv | accept | peerRecv | peerSend
    | peerFails | other | pop => exact absurd trivial hlate
    | callerFails =>
        refine ⟨{ x with caller := .returned (-1) },
          { x with caller := .returned (-1) }, exchange_step hmsg _ _, .refl,
          fun hhonest => hlate ?_⟩
        exact (hhonest.negative (-1) rfl hminus).1
    | handle now malloc =>
        obtain ⟨y, xs', ys', hstep, -, hcaller, hadded, -⟩ :=
          step_handle hunder haction hvalid henabled'
        rw [← exchange_step hmsg] at hstep
        unfold Exchange.InTime at hlate
        rw [Classical.not_imp, not_and_or] at hlate
        obtain ⟨hmalloc, hlate⟩ := hlate
        obtain ⟨hinserted, hanswer, hpeer, hreply⟩ := hadded hmalloc
        have hplaced := hunder.caller
        have hhandling := hunder.peer
        rw [henabled'.1] at hhandling
        obtain ⟨hnone, hfull, -⟩ := hhandling
        cases hplace : x.caller with
        | connect =>
            rw [hplace] at hplaced
            exact absurd (henabled'.1.symm.trans hplaced.2) nofun
        | sending sendLen =>
            rw [hplace] at hplaced
            obtain ⟨hsent, hlt⟩ := hplaced
            omega
        | returned ret =>
            rw [hplace] at hplaced
            have hret : ret = -1 := hplaced hnone
            exact ⟨y, y, hstep, .refl, returned_wrong (hcaller.trans hplace)
              (hret ▸ hminus) hinserted⟩
        | receiving recvLen =>
            rw [hplace] at hplaced
            obtain ⟨-, hlt, hle⟩ := hplaced
            have hzero : recvLen = 0 := by
              have hempty := (hunder.unanswered hnone).2
              omega
            rcases hlate with hlate | hneg
            · exact absurd ⟨recvLen, List.mem_range.mpr hlt, hplace⟩ hlate
            · obtain ⟨z, hnext, hwrong⟩ := negative_id_wrong hmsg
                (hcaller.trans (hzero ▸ hplace)) hpeer hreply hinserted
                hanswer (Int32.not_le.mp hneg)
              exact ⟨y, z, hstep, hnext, hwrong⟩

/-! ## Two calls -/

/-- The request goes all the way, and the timer is added. -/
def requestArrives : List Turnover :=
  [.connect true, .callerSend 68, .accept, .peerRecv 68, .handle ⟨0, 0⟩ true]

/-- So does the reply. -/
def replyArrives : List Turnover :=
  requestArrives ++ [.peerSend 68, .callerRecv 68]

/-- The caller's `select` times out before the reply comes. -/
def replyIsLate : List Turnover :=
  requestArrives ++ [.callerFails]

theorem timer_add_returns_id : ∃ x : Exchange, x.caller = .returned 0 ∧
    x.inserted = [0] ∧ (exchange 1 0 (some 7) (some 5)).Reachable x ∧
    x.Honest (some 7) (some 5) := by
  have htest : ((exchange 1 0 (some 7) (some 5)).run (fun e x => x.InTime e)
      replyArrives (exchange 1 0 (some 7) (some 5)).start).any
      (fun x => decide (x.caller = .returned 0 ∧ x.inserted = [0])) = true := by
    decide +kernel
  simp only [Option.any_eq_true, decide_eq_true_eq] at htest
  obtain ⟨x, hrun, hcaller, hinserted⟩ := htest
  have hreach := Machine.reachableWith_of_run .start hrun
  exact ⟨x, hcaller, hinserted, hreach.reachable,
    (timer_add_honest 1 0 (some 7) (some 5)).1 x hreach⟩

theorem failed_timer_add_registers : ¬ ∀ (sec usec : Int)
    (hndlr : Option Handler) (hndlrArg : Arg) (x : Exchange),
    (exchange sec usec hndlr hndlrArg).Reachable x →
    x.Honest hndlr hndlrArg := by
  intro hclaim
  have htest : ((exchange 1 0 (some 7) (some 5)).run (fun _ _ => True)
      replyIsLate (exchange 1 0 (some 7) (some 5)).start).any
      (fun x => decide (x.caller = .returned (-1) ∧ x.inserted = [0])) =
        true := by
    decide +kernel
  simp only [Option.any_eq_true, decide_eq_true_eq] at htest
  obtain ⟨x, hrun, hcaller, hinserted⟩ := htest
  have hhonest := hclaim 1 0 (some 7) (some 5) x
    (Machine.reachableWith_of_run .start hrun)
  exact returned_wrong hcaller (by decide) hinserted hhonest

end ChessServer.LibTimer
