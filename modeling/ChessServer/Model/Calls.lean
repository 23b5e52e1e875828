import ChessServer.Model.Timers

/-!
# Calls

The functions that work on the lists, as calls that all look alike: what a
call needs, whether it says that it failed, and what it does to the lists.
-/

namespace ChessServer.LibTimer

open DList

/-- A call of a function that locks, with the outcomes of the system calls. -/
inductive Call where
  | addTimernodeToList (now : Timeval) (malloc : Bool) (msg : Request)
  | delTimernodeFromList (msg : Request)
  | delAllTimer
  | timerExecute (malloc create : Bool)
  | addTimeoutList (malloc : Bool) (hdl : Handler) (hdlArg : Arg)
  | getPendingList

/-- Whether the call reports a failure, and the state that it leaves. -/
def Call.run (s : State) : Call → Option (Bool × State)
  | .addTimernodeToList now malloc msg =>
      (s.addTimernodeToList now malloc msg).map fun r =>
        (decide (r.1 < 0 ∨ r.2.1.id = -1), r.2.2)
  | .delTimernodeFromList msg =>
      (s.delTimernodeFromList msg).map fun r => (decide (r.1 < 0), r.2)
  | .delAllTimer =>
      (s.delAllTimer false).map fun r => (decide (r.1 < 0), r.2)
  | .timerExecute malloc create =>
      (s.timerExecute malloc create).map fun t => (false, t)
  | .addTimeoutList malloc hdl hdlArg =>
      (s.addTimeoutList malloc hdl hdlArg).map fun r =>
        (decide (r.1 < 0), r.2)
  | .getPendingList =>
      s.getPendingList.map fun r => (r.1.isNone, r.2)

variable {s : State} {xs ys : List Cell}

/-- Unlocking a mutex that nobody holds leaves it so. -/
theorem State.unlock_free (m : Mutex) (hfree : ∀ m, s.held m = false)
    (m' : Mutex) : (s.unlock m).held m' = false := by
  show Function.update s.held m false m' = false
  by_cases hm : m' = m
  · rw [hm, Function.update_self]
  · rw [Function.update_of_ne hm]
    exact hfree m'

/-- When no mutex is held a call returns, and the lists are well formed again:
`timerq` has one timer more, or lost some. -/
theorem Call.run_rep (c : Call) (rep : s.Rep xs ys)
    (hfree : ∀ m, s.held m = false) :
    ∃ failed t xs' ys', c.run s = some (failed, t) ∧ t.Rep xs' ys' ∧
      (∀ m, t.held m = false) ∧
      (xs'.Sublist xs ∨ ∃ now msg,
        c = .addTimernodeToList now true msg ∧ msg.Valid ∧
          xs' = State.insertTimer (s.top, State.newTimer now msg s) xs) := by
  cases c with
  | addTimernodeToList now malloc msg =>
      by_cases hvalid : msg.Valid ∧ malloc = true
      · obtain ⟨hvalid, rfl⟩ := hvalid
        obtain ⟨q, h, hadd, rep', -⟩ :=
          State.addTimernodeToList_rep now rep (hfree _) hvalid
        refine ⟨decide ((0 : Int) < 0 ∨ (nextId s.curId).1 = -1), _, _, ys, ?_,
          rep', hfree, Or.inr ⟨now, msg, rfl, hvalid, rfl⟩⟩
        unfold Call.run
        dsimp only
        rw [hadd]
        rfl
      · refine ⟨true, s.unlock .timerq, xs, ys, ?_,
          ⟨rep.timerq, rep.timeoutList, rep.apart, rep.below⟩,
          State.unlock_free .timerq hfree, Or.inl (List.Sublist.refl xs)⟩
        unfold Call.run
        dsimp only
        rw [State.addTimernodeToList_rejected hvalid]
        rfl
  | delTimernodeFromList msg =>
      rcases State.delTimernodeFromList_cases msg rep (hfree _) with
        hdel | ⟨front, x, back, q, h, rfl, -, -, hdel, rep', -⟩
      · refine ⟨true, s, xs, ys, ?_, rep, hfree,
          Or.inl (List.Sublist.refl xs)⟩
        unfold Call.run
        dsimp only
        rw [hdel]
        rfl
      · refine ⟨false, _, _, ys, ?_, rep', hfree,
          Or.inl ((List.sublist_cons_self x back).append_left front)⟩
        unfold Call.run
        dsimp only
        rw [hdel]
        rfl
  | delAllTimer =>
      obtain ⟨q, h, hdel, rep', -⟩ := State.delAllTimer_rep false rep (hfree _)
      refine ⟨false, _, [], ys, ?_, rep', hfree,
        Or.inl (List.nil_sublist xs)⟩
      unfold Call.run
      dsimp only
      rw [hdel]
      rfl
  | timerExecute malloc create =>
      unfold Call.run
      dsimp only
      cases xs with
      | nil =>
          rw [State.timerExecute_nil malloc create rep]
          exact ⟨false, s, [], ys, rfl, rep, hfree,
            Or.inl (List.Sublist.refl [])⟩
      | cons x xs =>
          obtain ⟨t, hexec, hheld, -, -, -, -, rep'⟩ :=
            State.timerExecute_rep malloc create rep (hfree _) (hfree _)
          rw [hexec]
          exact ⟨false, t, xs, _, rfl, rep', fun m => hheld ▸ hfree m,
            Or.inl (List.sublist_cons_self x xs)⟩
  | addTimeoutList malloc hdl hdlArg =>
      unfold Call.run
      dsimp only
      cases malloc with
      | false =>
          rw [State.addTimeoutList_failed hdl hdlArg (hfree _)]
          exact ⟨true, s, xs, ys, rfl, rep, hfree,
            Or.inl (List.Sublist.refl xs)⟩
      | true =>
          obtain ⟨q, h, hadd, rep', -⟩ :=
            State.addTimeoutList_rep hdl hdlArg rep (hfree _)
          rw [hadd]
          exact ⟨false, _, xs, _, rfl, rep', hfree,
            Or.inl (List.Sublist.refl xs)⟩
  | getPendingList =>
      unfold Call.run
      dsimp only
      cases ys using List.reverseRecOn with
      | nil =>
          rw [State.getPendingList_nil rep (hfree _)]
          exact ⟨true, s, xs, [], rfl, rep, hfree,
            Or.inl (List.Sublist.refl xs)⟩
      | append_singleton ys y =>
          obtain ⟨q, h, hpop, rep', -⟩ :=
            State.getPendingList_rep rep (hfree _)
          rw [hpop]
          exact ⟨false, _, xs, ys, rfl, rep', hfree,
            Or.inl (List.Sublist.refl xs)⟩

end ChessServer.LibTimer
