import ChessServer.Proofs.Service

/-!
# What becomes of the timers

Every timer that was accepted waits in `timerq`, is on `timeout_list`, was
run, was removed or was cleared, and it is so in the lists as the code links
them: none is lost or run twice, and they run in the order of their deadlines
in which they were taken (`timers_conserved`).
-/

namespace ChessServer.LibTimer

/-- Fewer than 2^31 timers are added.  After any uses in any order, every
timer that was accepted is in exactly one of the places of the agenda, and the
library shows them: `timerq` and `timeout_list` hold what they should, each
handler of a timer that is done was called once, and so was each `free_arg`
function of one that was removed.  Nothing that has become of a timer is
undone.  Timers are done in the order in which they were taken, and taken in
the order of their deadlines, oldest first. -/
theorem timers_conserved {states : Nat → Service} {events : Nat → Use}
    {n : Nat} (hist : service.History states events n)
    (hfew : (accountAfter events n).accepted.length < 2 ^ 31) :
    (∀ i ≤ n, (accountAfter events i).places.Perm
        (accountAfter events i).accepted ∧
      ((accountAfter events i).places.map Timer.id).Nodup ∧
      (accountAfter events i).taken =
        (accountAfter events i).done ++ (accountAfter events i).queued ∧
      ∃ xs ys, Shows (states i) (accountAfter events i) xs ys) ∧
      (∀ i j, i ≤ j → j ≤ n →
        Extends (accountAfter events i) (accountAfter events j)) ∧
      ∀ i < n, events i = .expire → ∀ t rest,
        (accountAfter events i).waiting = t :: rest →
        (accountAfter events (i + 1)).taken =
            (accountAfter events i).taken ++ [t] ∧
          ∀ u ∈ rest, (accountAfter events i).Precedes Timer.due t u := by
  refine ⟨fun i hi => ?_, fun i j hij _ => accountAfter_extends events hij,
    fun i hi hexpire t rest hwaiting => ?_⟩
  · obtain ⟨hshows, hkept⟩ := history_shows hist (Nat.le_of_lt hfew) hi
    have hconserved := hkept.conserved
    refine ⟨hconserved.places, ?_, hconserved.taken, hshows⟩
    exact ((hconserved.places.map Timer.id).nodup_iff).mpr hconserved.keys
  · obtain ⟨-, hkept⟩ := history_shows hist (Nat.le_of_lt hfew)
      (Nat.le_of_lt hi)
    constructor
    · show ((events i).account (accountAfter events i)).taken = _
      rw [hexpire]
      show (accountAfter events i).take.taken = _
      unfold Agenda.take
      rw [hwaiting]
    · have hsorted := hkept.conserved.sorted
      rw [hwaiting] at hsorted
      exact (List.pairwise_cons.mp hsorted).1

/-! ## Two timers -/

/-- Two timers are added; the one that is due first expires and its handler is
called, the other one is removed. -/
def twoTimers (i : Nat) : Use :=
  [.add 2 0 (some 7) (some 1) ⟨0, 0⟩, .add 1 0 (some 8) (some 2) ⟨0, 0⟩,
    .expire, .pop, .rem 0 (some 9)].getD i .clear

theorem two_timers_conserved :
    (accountAfter twoTimers 5).done.map Timer.id = [1] ∧
      (accountAfter twoTimers 5).removed.map (fun r => r.1.id) = [0] ∧
      (service.follow twoTimers 5).called = [(8, some 2)] ∧
      (service.follow twoTimers 5).lib.freed = [(9, some 1)] ∧
      ∃ xs ys, Shows (service.follow twoTimers 5) (accountAfter twoTimers 5)
        xs ys := by
  have hist : service.History (service.follow twoTimers) twoTimers 5 :=
    Machine.history_follow (by decide +kernel)
  have hfew : (accountAfter twoTimers 5).accepted.length < 2 ^ 31 := by
    decide +kernel
  obtain ⟨hplaces, -, -⟩ := timers_conserved hist hfew
  obtain ⟨-, -, -, hshows⟩ := hplaces 5 (Nat.le_refl 5)
  refine ⟨?_, ?_, ?_, ?_, hshows⟩
  · decide +kernel
  · decide +kernel
  · decide +kernel
  · decide +kernel

end ChessServer.LibTimer
