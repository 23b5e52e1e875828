import Mathlib.Logic.Relation
import ChessServer.Model.Timers
import ChessServer.Server.Worker

/-!
# What the blocks of the threads do

The blocks of `timer_execute` and of `time_out_task`, each with a lemma about
the lists, and the threads in the order in which they can go through them.
-/

namespace ChessServer.LibTimer

open DList

namespace State

variable {s : State} {xs ys : List Cell}

/-! ## The worker's functions -/

theorem countPending_seg {h : Heap Timer} {prev : Option Ptr} {zs : List Cell}
    (hseg : Seg h prev zs none) {fuel : Nat} (hfuel : zs.length ≤ fuel) :
    countPending h fuel (entry zs none) = some zs.length := by
  induction zs generalizing prev fuel with
  | nil =>
      unfold countPending entry
      rfl
  | cons z zs ih =>
      obtain ⟨hnode, hrest⟩ := hseg
      rw [List.length_cons] at hfuel
      cases fuel with
      | zero => omega
      | succ fuel =>
          have hcount := ih hrest (show zs.length ≤ fuel by omega)
          rw [entry, countPending, hnode]
          dsimp only [Option.bind_eq_bind, Option.bind_some]
          rw [hcount, List.length_cons]
          rfl

theorem getPendingListCount_rep (rep : s.Rep xs ys)
    (hfree : s.held .timeout = false) :
    s.getPendingListCount = some (ys.length, s) := by
  have hcount := countPending_seg rep.timeoutList.links rep.pending_length_le
  rw [← rep.timeoutList.first] at hcount
  unfold getPendingListCount
  rw [lock_free hfree]
  dsimp only [Option.bind_eq_bind, Option.bind_some]
  rw [hcount]
  dsimp only [Option.bind_some]
  rw [unlock_held hfree rfl]

/-- What `get_waite_interval` says of a deadline. -/
def waiteInterval (now deadline : Timeval) : Int :=
  max 0 (min 600 (Int32.ofInt (if now.lessThan deadline then deadline.minus now
    else ⟨0, 0⟩).tvSec).toInt)

/-- The interval is that of the last timer. -/
theorem getWaiteInterval_rep (now : Timeval) (rep : s.Rep xs ys)
    (hfree : s.held .timerq = false) :
    s.getWaiteInterval now = some ((xs.getLast?.map fun x =>
      waiteInterval now x.2.timeout).getD 0, s) := by
  unfold getWaiteInterval
  rw [lock_free hfree]
  dsimp only [Option.bind_eq_bind, Option.bind_some]
  cases xs using List.reverseRecOn with
  | nil =>
      have hlast : s.timerq.last = none := rep.timerq.last
      rw [hlast]
      dsimp only
      rw [unlock_held hfree rfl]
      rfl
  | append_singleton xs x =>
      rw [rep.timerq.last, exit_concat]
      dsimp only
      rw [rep.timerq.node]
      dsimp only [Option.bind_some]
      rw [unlock_held hfree rfl, List.getLast?_concat, Option.map_some,
        Option.getD_some]
      rfl

/-- A node outside the lists is freed, or stays. -/
theorem callHandler_rep {p : Ptr} {n : Node Timer} (rep : s.Rep xs ys)
    (hout : s.Outside xs ys p) (hnode : s.heap p = some n) :
    ∃ h, s.callHandler p =
        some (n.val.handler.map fun handler => (handler, n.val.handlerArg),
          { s with heap := h }) ∧
      Rep { s with heap := h } xs ys := by
  unfold callHandler
  rw [hnode]
  dsimp only [Option.bind_eq_bind, Option.bind_some]
  cases n.val.handler with
  | none => exact ⟨s.heap, rfl, rep⟩
  | some handler =>
      have hsame : ∀ q, q ≠ p → Function.update s.heap p none q = s.heap q :=
        fun q hq => Function.update_of_ne hq _ _
      refine ⟨_, rfl, rep.timerq.congr fun q hq => hsame q ?_,
        rep.timeoutList.congr fun q hq => hsame q ?_, rep.apart, rep.below⟩
      · rintro rfl
        exact hout.timerq hq
      · rintro rfl
        exact hout.timeoutList hq

/-! ## The blocks of `timer_execute` -/

theorem takeFirst_nil (rep : s.Rep [] ys) : s.takeFirst = some (none, s) := by
  have hfirst : s.timerq.first = none := rep.timerq.first
  unfold takeFirst
  rw [hfirst]

theorem takeFirst_rep {x : Cell} (rep : s.Rep (x :: xs) ys)
    (hfree : s.held .timerq = false) :
    ∃ q h, s.takeFirst =
        some (x.2.handler.map fun hdl => (hdl, x.2.handlerArg),
          { s with timerq := q, heap := h }) ∧
      Rep { s with timerq := q, heap := h } xs ys ∧
      s.Keeps (x :: xs) ys { s with timerq := q, heap := h } xs ys := by
  have hfirst : s.timerq.first = some x.1 := rep.timerq.first
  have rep₀ : s.Rep ([] ++ x :: xs) ys := rep
  have hnode := rep₀.timerq.node
  obtain ⟨q, h, hremove, rep', hkeeps⟩ := rep₀.remove
  refine ⟨q, h, ?_, rep', hkeeps⟩
  unfold takeFirst
  rw [hfirst]
  dsimp only [Option.bind_eq_bind]
  rw [hnode, lock_free hfree]
  simp only [timerDequeue, hremove, Option.bind_eq_bind, Option.bind_some]
  rw [unlock_held hfree rfl]

theorem claimWorker_eq (hfree : s.held .timeout = false) :
    s.claimWorker =
      some (!s.timeoutThreadIsOn, { s with timeoutThreadIsOn := true }) := by
  unfold claimWorker
  rw [lock_free hfree]
  dsimp only [Option.bind_eq_bind, Option.bind_some]
  cases hon : s.timeoutThreadIsOn with
  | true =>
      rw [if_pos rfl, unlock_held hfree rfl]
      cases s
      subst hon
      rfl
  | false =>
      rw [if_neg (by decide), unlock_held hfree rfl]
      rfl

theorem wakeWorker_blocks (hfree : s.held .timeout = false) :
    s.wakeWorker true = s.claimWorker.map fun r =>
      if r.1 then { r.2 with workers := r.2.workers + 1 } else r.2 := by
  rw [wakeWorker_eq true hfree, claimWorker_eq hfree]
  cases hon : s.timeoutThreadIsOn with
  | true =>
      cases s
      subst hon
      rfl
  | false => rfl

/-- With nobody in between, the blocks are `timer_execute`. -/
theorem timerExecute_blocks (rep : s.Rep xs ys)
    (hfree : ∀ m, s.held m = false) :
    s.timerExecute true true = s.takeFirst.bind fun r =>
      match r.1 with
      | none => some r.2
      | some hdl => (r.2.addTimeoutList true hdl.1 hdl.2).bind fun r =>
          r.2.claimWorker.map fun r =>
            if r.1 then { r.2 with workers := r.2.workers + 1 } else r.2 := by
  cases xs with
  | nil =>
      rw [takeFirst_nil rep, timerExecute_nil true true rep]
      rfl
  | cons x xs =>
      have hfirst : s.timerq.first = some x.1 := rep.timerq.first
      have rep₀ : s.Rep ([] ++ x :: xs) ys := rep
      have hnode := rep₀.timerq.node
      obtain ⟨q, h, hremove, rep₁, -⟩ := rep₀.remove
      unfold timerExecute takeFirst
      rw [hfirst]
      dsimp only [Option.bind_eq_bind]
      rw [hnode, lock_free (hfree _)]
      simp only [timerDequeue, hremove, Option.bind_eq_bind, Option.bind_some]
      rw [unlock_held (hfree _) rfl]
      cases x.2.handler with
      | none => rfl
      | some hdl =>
          obtain ⟨q', h', hadd, -, -⟩ :=
            addTimeoutList_rep hdl x.2.handlerArg rep₁ (hfree .timeout)
          dsimp only [Option.map_some]
          rw [hadd]
          dsimp only [Option.bind_some]
          rw [if_neg (by decide), wakeWorker_blocks (by exact hfree .timeout)]

end State

/-! ## Workers and `timeout_list` -/

/-- The worker looks at `timeout_list` before it can exit. -/
def Worker.looks : Worker → Bool
  | .count | .pending | .handle _ | .signalled => true
  | .interval | .wait _ | .waiting | .timedOut => false

namespace Threads

/-- A handler is on `timeout_list`. -/
def Pending (s : Threads) : Prop := s.lib.timeoutList.first ≠ none

instance (s : Threads) : Decidable s.Pending :=
  inferInstanceAs (Decidable (_ ≠ _))

/-- The timer thread is in `select`, and no thread is left to look at the
handlers on `timeout_list`. -/
def Stranded (s : Threads) : Prop :=
  s.task = .select ∧ s.Pending ∧ s.lib.timeoutThreadIsOn = false ∧
    s.workers = []

instance (s : Threads) : Decidable s.Stranded :=
  inferInstanceAs (Decidable (_ ∧ _ ∧ _ ∧ _))

/-- A worker will look at the handlers on `timeout_list` before it exits. -/
def Attended (s : Threads) : Prop :=
  s.Pending → ∃ w ∈ s.workers, w.looks = true

/-- If the timer thread is about to signal that a handler is on
`timeout_list`, the worker waits for that, or looks anyway. -/
def Heard (e : Turn) (s : Threads) : Prop :=
  e = .task → s.task = .queued → s.lib.timeoutThreadIsOn = true →
    s.Pending → ∃ w ∈ s.workers, w = .waiting ∨ w.looks = true

instance (e : Turn) (s : Threads) : Decidable (s.Heard e) :=
  inferInstanceAs (Decidable (_ → _ → _ → _ → _))

instance (t : Timeval) : Decidable t.Normalised :=
  decidable_of_iff (0 ≤ t.tvUsec ∧ t.tvUsec < 1000000)
    ⟨fun h => ⟨h.1, h.2⟩, fun h => ⟨h.nonneg, h.lt⟩⟩

instance (e : Turn) (s : Threads) : Decidable (s.enabled e) :=
  match e with
  | .request _ _ => inferInstanceAs (Decidable (_ ∧ _))
  | .timeout => inferInstanceAs (Decidable (_ = _))
  | .task => inferInstanceAs (Decidable (_ ∧ _))
  | .worker i _ =>
      inferInstanceAs (Decidable (∃ w ∈ s.workers[i]?, w ≠ Worker.waiting))
  | .woken _ _ => inferInstanceAs (Decidable (_ = _))

instance (e : Turn) (s : Threads) : Decidable (threads.enabled e s) :=
  inferInstanceAs (Decidable (s.enabled e))

end Threads

end ChessServer.LibTimer
