import Mathlib.Algebra.Group.Nat.Defs
import Mathlib.Data.Prod.Lex
import ChessServer.Lib.Agenda
import ChessServer.Model.Workers
import ChessServer.Server.Service

/-!
# The timers as an agenda

What the library is for: an agenda of timers, which says in every state what
has become of each of them.  The lists in the heap, the calls of handlers and
the calls of `free_arg` functions are those of the agenda, after any uses
(`history_shows`).
-/

namespace ChessServer.LibTimer

open DList

/-! ## The agenda -/

/-- Deadlines in the order of `TV_LESS_THAN`. -/
def Timer.due (t : Timer) : Int ×ₗ Int :=
  toLex (t.timeout.tvSec, t.timeout.tvUsec)

/-- Deadlines are compared as numbers. -/
theorem lessThan_iff_due (t u : Timer) :
    t.timeout.lessThan u.timeout = true ↔ t.due < u.due := by
  simp only [Timeval.lessThan, Timer.due, Prod.Lex.toLex_lt_toLex,
    Bool.or_eq_true, Bool.and_eq_true, decide_eq_true_eq, beq_iff_eq]

/-- Timers, and for those that were removed the `free_arg` function. -/
abbrev Account := Agenda Timer (Option Handler)

/-- The timer of a request is accepted.  The ids are 0, 1, 2 and so on. -/
def addTimer (now : Timeval) (msg : Request) (a : Account) : Account :=
  a.accept Timer.due {
    timeout := now.deadline msg.timeout
    handler := msg.handler
    handlerArg := msg.handlerArg
    id := Int32.ofNat a.accepted.length }

/-- What a use does to the timers. -/
def Use.account (e : Use) (a : Account) : Account :=
  match e with
  | .add sec usec hndlr hndlrArg now =>
      match timerAdd sec usec hndlr hndlrArg with
      | none => a
      | some msg => addTimer now msg a
  | .rem id freeArg =>
      match timerRem id freeArg with
      | none => a
      | some msg => a.remove Timer.id msg.id msg.handler
  | .clear => a.clear
  | .expire => a.take
  | .pop => a.finish

/-- What has become of the timers after some uses. -/
def accountAfter (events : Nat → Use) : Nat → Account
  | 0 => {}
  | n + 1 => (events n).account (accountAfter events n)

/-- What is left of a timer on `timeout_list`. -/
def Timer.pending (t : Timer) : Timer :=
  { handler := t.handler, handlerArg := t.handlerArg }

/-- The call of a timer's handler. -/
def Timer.call (t : Timer) : Option (Handler × Arg) :=
  t.handler.map fun handler => (handler, t.handlerArg)

/-- The call of a `free_arg` function. -/
def freeCall (r : Timer × Option Handler) : Option (Handler × Arg) :=
  r.2.map fun freeArg => (freeArg, r.1.handlerArg)

/-- The library shows an account: `timerq` holds the timers that wait,
`timeout_list` those that were taken, and the functions were called that the
account says. -/
structure Shows (s : Service) (a : Account) (xs ys : List Cell) : Prop where
  rep : s.lib.Rep xs ys
  waiting : xs.map Prod.snd = a.waiting
  queued : ys.map Prod.snd = (a.queued.map Timer.pending).reverse
  called : s.called = a.done.filterMap Timer.call
  freed : s.lib.freed = (a.removed.filterMap freeCall).reverse

/-- The rest of what holds between two uses. -/
structure Kept (s : Service) (a : Account) : Prop where
  conserved : a.Conserved Timer.id Timer.due
  ids : a.accepted.map Timer.id =
    (List.range a.accepted.length).map Int32.ofNat
  handlers : ∀ t ∈ a.accepted, t.handler ≠ none
  curId : s.lib.curId = Int32.ofNat a.accepted.length
  free : ∀ m, s.lib.held m = false

variable {s : Service} {a : Account} {xs ys : List Cell}

/-! ## Requests -/

/-- A timer is inserted by its deadline. -/
theorem insertTimer_eq (x : Cell) (xs : List Cell) :
    State.insertTimer x xs =
      xs.orderedInsert (fun y z => y.2.due < z.2.due) x := by
  have hpred : (fun y : Cell => !x.2.timeout.lessThan y.2.timeout) =
      fun y => decide (¬ x.2.due < y.2.due) := by
    funext y
    by_cases hlt : x.2.due < y.2.due
    · rw [(lessThan_iff_due x.2 y.2).mpr hlt, decide_eq_false (not_not.mpr hlt)]
      rfl
    · have hfalse : x.2.timeout.lessThan y.2.timeout = false := by
        rw [← Bool.not_eq_true, lessThan_iff_due]
        exact hlt
      rw [hfalse, decide_eq_true hlt]
      rfl
  rw [List.orderedInsert_eq_take_drop, State.insertTimer, hpred]

/-- The new timer goes behind those that are due no later. -/
theorem insertTimer_map (x : Cell) (xs : List Cell) :
    (State.insertTimer x xs).map Prod.snd =
      (xs.map Prod.snd).orderedInsert (fun t u => t.due < u.due) x.2 := by
  rw [insertTimer_eq]
  exact List.map_orderedInsert _ _ Prod.snd xs x (fun _ _ => Iff.rfl)
    (fun _ _ => Iff.rfl)

/-- What `timer_add` asks for. -/
theorem timerAdd_some {sec usec : Int} {hndlr : Option Handler}
    {hndlrArg : Arg} {msg : Request}
    (h : timerAdd sec usec hndlr hndlrArg = some msg) :
    msg.action = .add ∧ msg.Valid ∧ hndlr ≠ none ∧ msg.handler = hndlr ∧
      msg.handlerArg = hndlrArg := by
  unfold timerAdd at h
  split at h
  · cases h
  · rename_i hhandler
    split at h
    · cases h
    · rename_i hvalid
      cases h
      refine ⟨rfl, ?_, hhandler, rfl, rfl⟩
      show 0 ≤ sec ∧ 0 ≤ usec ∧ ¬ (sec = 0 ∧ usec = 0)
      omega

/-- The ids are fresh until there are too many of them. -/
theorem id_fresh {n : Nat} (hfew : n < 2 ^ 31) :
    Int32.ofNat n ∉ (List.range n).map Int32.ofNat := by
  intro hmem
  obtain ⟨m, hm, heq⟩ := List.mem_map.mp hmem
  have hlt := List.mem_range.mp hm
  have hint := congrArg Int32.toInt heq
  rw [Int32.toInt_ofNat_of_lt hfew, Int32.toInt_ofNat_of_lt (by omega)] at hint
  omega

/-- The first `2 ^ 31` ids are the numbers in turn. -/
theorem nextId_ofNat {n : Nat} (hfew : n < 2 ^ 31) :
    nextId (Int32.ofNat n) = (Int32.ofNat n, Int32.ofNat (n + 1)) := by
  have hne : Int32.ofNat n ≠ -1 := by
    intro heq
    have hint := congrArg Int32.toInt heq
    rw [Int32.toInt_ofNat_of_lt hfew] at hint
    have hneg : (-1 : Int32).toInt = -1 := by decide
    omega
  rw [nextId, if_neg hne, Int32.ofNat_add]
  rfl

/-- An addition keeps the library and its account in step. -/
theorem Shows.add (hshows : Shows s a xs ys) (hkept : Kept s a)
    {msg : Request} (now : Timeval) (haction : msg.action = .add)
    (hvalid : msg.Valid) (hhandler : msg.handler ≠ none)
    (hfew : a.accepted.length < 2 ^ 31) :
    ∃ s' xs', s.request now msg = some s' ∧
      Shows s' (addTimer now msg a) xs' ys ∧ Kept s' (addTimer now msg a) := by
  obtain ⟨q, h, hadd, rep, -⟩ := State.addTimernodeToList_rep now hshows.rep
    (hkept.free _) hvalid
  have hnext := nextId_ofNat hfew
  rw [hkept.curId, hnext] at hadd rep
  have hnew : State.newTimer now msg s.lib = {
      timeout := now.deadline msg.timeout
      handler := msg.handler
      handlerArg := msg.handlerArg
      id := Int32.ofNat a.accepted.length } := by
    unfold State.newTimer
    rw [hkept.curId, hnext]
  rw [hnew] at rep
  refine ⟨{ s with lib := { s.lib with
      curId := Int32.ofNat (a.accepted.length + 1)
      timerq := q, heap := h, top := s.lib.top + 1 } }, _, ?_,
    ⟨rep, ?_, hshows.queued, hshows.called, hshows.freed⟩,
    ⟨hkept.conserved.accept ?_, ?_, fun t ht => ?_, ?_, hkept.free⟩⟩
  · simp only [Service.request, State.handleMsg, haction, hadd,
      Option.bind_eq_bind, Option.bind_some]
  · rw [insertTimer_map, hshows.waiting]
    rfl
  · rw [hkept.ids]
    exact id_fresh hfew
  · show (a.accepted ++ [_]).map Timer.id = _
    rw [List.map_append, hkept.ids]
    show _ = (List.range (a.accepted ++ [_]).length).map Int32.ofNat
    rw [List.length_append, List.length_singleton, List.range_succ,
      List.map_append]
    rfl
  · rcases List.mem_append.mp ht with ht | ht
    · exact hkept.handlers t ht
    · rw [List.mem_singleton] at ht
      rw [ht]
      exact hhandler
  · show Int32.ofNat (a.accepted.length + 1) =
      Int32.ofNat (a.accepted ++ [_]).length
    rw [List.length_append, List.length_singleton]

/-- So does a removal, -/
theorem Shows.remove (hshows : Shows s a xs ys) (hkept : Kept s a)
    {msg : Request} (now : Timeval) (haction : msg.action = .del)
    (hid : msg.id ≠ -1) :
    ∃ s' xs', s.request now msg = some s' ∧
      Shows s' (a.remove Timer.id msg.id msg.handler) xs' ys ∧
      Kept s' (a.remove Timer.id msg.id msg.handler) := by
  have hconserved := hkept.conserved.remove msg.id msg.handler
  by_cases hmem : ∃ x ∈ xs, x.2.id = msg.id
  · obtain ⟨front, x, back, rfl, hx, hfront⟩ := State.exists_first hmem
    obtain ⟨q, h, hdel, rep, -⟩ :=
      State.delTimernodeFromList_rep hshows.rep (hkept.free _) hid hfront hx
    have hwaiting : a.waiting =
        front.map Prod.snd ++ x.2 :: back.map Prod.snd := by
      rw [← hshows.waiting, List.map_append, List.map_cons]
    have hpass : ∀ t ∈ front.map Prod.snd, t.id ≠ msg.id := by
      intro t ht
      obtain ⟨y, hy, rfl⟩ := List.mem_map.mp ht
      exact hfront y hy
    rw [Agenda.remove_first hwaiting hpass hx] at hconserved ⊢
    refine ⟨{ s with lib := { s.lib with
        freed := State.freedBy msg x ++ s.lib.freed, timerq := q, heap := h } },
      front ++ back, ?_,
      ⟨rep, List.map_append, hshows.queued, hshows.called, ?_⟩,
      ⟨hconserved, hkept.ids, hkept.handlers, hkept.curId, hkept.free⟩⟩
    · simp only [Service.request, State.handleMsg, haction, hdel,
        Option.bind_eq_bind, Option.bind_some]
    · show State.freedBy msg x ++ s.lib.freed = _
      rw [List.filterMap_append, List.reverse_append, hshows.freed]
      unfold State.freedBy
      cases hhandler : msg.handler with
      | none => rfl
      | some freeArg => rfl
  · have hnone : ∀ x ∈ xs, x.2.id ≠ msg.id := fun x hx heq =>
      hmem ⟨x, hx, heq⟩
    have hdel := State.delTimernodeFromList_missing hshows.rep (hkept.free _)
      hid hnone
    have hwaiting : ∀ t ∈ a.waiting, t.id ≠ msg.id := by
      intro t ht
      rw [← hshows.waiting] at ht
      obtain ⟨x, hx, rfl⟩ := List.mem_map.mp ht
      exact hnone x hx
    rw [Agenda.remove_missing hwaiting]
    refine ⟨s, xs, ?_, hshows, hkept⟩
    simp only [Service.request, State.handleMsg, haction, hdel,
      Option.bind_eq_bind, Option.bind_some]

/-- clearing the queue, -/
theorem Shows.clear (hshows : Shows s a xs ys) (hkept : Kept s a)
    (now : Timeval) :
    ∃ s', s.request now timerClear = some s' ∧ Shows s' a.clear [] ys ∧
      Kept s' a.clear := by
  obtain ⟨q, h, hdel, rep, -⟩ :=
    State.delAllTimer_rep false hshows.rep (hkept.free _)
  refine ⟨{ s with lib := { s.lib with
      timerq := q, heap := h, running := s.lib.running && !false } }, ?_,
    ⟨rep, rfl, hshows.queued, hshows.called, hshows.freed⟩,
    ⟨hkept.conserved.clear, hkept.ids, hkept.handlers, hkept.curId,
      hkept.free⟩⟩
  simp only [Service.request, State.handleMsg, timerClear, hdel,
    Option.bind_eq_bind, Option.bind_some]

/-! ## Expiry -/

/-- an expiry, -/
theorem Shows.expire (hshows : Shows s a xs ys) (hkept : Kept s a) :
    ∃ s' xs' ys', s.step .expire = some s' ∧ Shows s' a.take xs' ys' ∧
      Kept s' a.take := by
  have hconserved := hkept.conserved.take
  cases xs with
  | nil =>
      have htake : a.take = a := by
        unfold Agenda.take
        rw [← hshows.waiting]
        rfl
      rw [htake]
      refine ⟨s, [], ys, ?_, hshows, hkept⟩
      simp only [Service.step, State.timerExecute_nil true true hshows.rep,
        Option.bind_eq_bind, Option.bind_some]
  | cons x xs =>
      have hwaiting : a.waiting = x.2 :: xs.map Prod.snd :=
        hshows.waiting.symm
      have htake : a.take = { a with
          waiting := xs.map Prod.snd
          taken := a.taken ++ [x.2]
          queued := a.queued ++ [x.2] } := by
        unfold Agenda.take
        rw [hwaiting]
      have hx : x.2 ∈ a.accepted := hkept.conserved.mem_accepted (by
        rw [hwaiting]
        exact List.mem_cons_self ..)
      obtain ⟨lib, hexec, hheld, -, hfreed, hcur, -, rep⟩ :=
        State.timerExecute_rep true true hshows.rep (hkept.free _)
          (hkept.free _)
      cases hhandler : x.2.handler with
      | none => exact absurd hhandler (hkept.handlers _ hx)
      | some hdl =>
          rw [hhandler] at rep
          rw [htake] at hconserved ⊢
          refine ⟨{ s with lib }, xs, _, ?_,
            ⟨rep, rfl, ?_, hshows.called, hfreed.trans hshows.freed⟩,
            ⟨hconserved, hkept.ids, hkept.handlers, hcur.trans hkept.curId,
              fun m => hheld ▸ hkept.free m⟩⟩
          · simp only [Service.step, hexec, Option.bind_eq_bind,
              Option.bind_some]
          · rw [List.map_append, List.reverse_append, ← hshows.queued]
            show State.pending hdl x.2.handlerArg :: _ = x.2.pending :: _
            unfold Timer.pending
            rw [hhandler]
            rfl

/-- and the call of a handler. -/
theorem Shows.pop (hshows : Shows s a xs ys) (hkept : Kept s a) :
    ∃ s' ys', s.step .pop = some s' ∧ Shows s' a.finish xs ys' ∧
      Kept s' a.finish := by
  have hconserved := hkept.conserved.finish
  cases hqueued : a.queued with
  | nil =>
      have hfinish : a.finish = a := by
        unfold Agenda.finish
        rw [hqueued]
      have hnil : ys = [] := by
        have hmap := hshows.queued
        rw [hqueued] at hmap
        exact List.map_eq_nil_iff.mp hmap
      subst hnil
      rw [hfinish]
      refine ⟨s, [], ?_, hshows, hkept⟩
      simp only [Service.step, Service.pop,
        State.getPendingList_nil hshows.rep (hkept.free _),
        Option.bind_eq_bind, Option.bind_some]
  | cons t rest =>
      have hfinish : a.finish =
          { a with queued := rest, done := a.done ++ [t] } := by
        unfold Agenda.finish
        rw [hqueued]
      have hmap := hshows.queued
      rw [hqueued, List.map_cons, List.reverse_cons] at hmap
      obtain ⟨ys', ly, rfl, hys', hy⟩ := List.map_eq_append_iff.mp hmap
      obtain ⟨y, rfl, hval⟩ := List.map_eq_singleton_iff.mp hy
      obtain ⟨q, h, hpop, rep, -, hout, hnode⟩ :=
        State.getPendingList_rep hshows.rep (hkept.free _)
      have ht : t ∈ a.accepted := by
        apply hkept.conserved.places.subset
        unfold Agenda.places
        rw [hqueued]
        simp
      obtain ⟨h', hcall, rep'⟩ := State.callHandler_rep rep hout hnode
      rw [hfinish] at hconserved ⊢
      refine ⟨{ s with
          lib := { s.lib with timeoutList := q, heap := h' }
          called := s.called ++ t.call.toList }, ys', ?_,
        ⟨rep', hshows.waiting, hys', ?_, hshows.freed⟩,
        ⟨hconserved, hkept.ids, hkept.handlers, hkept.curId, hkept.free⟩⟩
      · simp only [Service.step, Service.pop, hpop, hcall, Option.bind_eq_bind,
          Option.bind_some, hval]
        rfl
      · rw [List.filterMap_append, hshows.called]
        show _ ++ t.call.toList = _
        cases hhandler : t.call with
        | none => simp [hhandler]
        | some call => simp [hhandler]

/-! ## Runs -/

/-- A use never fails, and the library shows the agenda after it. -/
theorem use_shows {e : Use} (hshows : Shows s a xs ys) (hkept : Kept s a)
    (henabled : service.enabled e s)
    (hfew : (e.account a).accepted.length ≤ 2 ^ 31) :
    ∃ s' xs' ys', service.step e s = some s' ∧
      Shows s' (e.account a) xs' ys' ∧ Kept s' (e.account a) := by
  cases e with
  | add sec usec hndlr hndlrArg now =>
      cases hreq : timerAdd sec usec hndlr hndlrArg with
      | none =>
          have haccount :
              (Use.add sec usec hndlr hndlrArg now).account a = a := by
            simp only [Use.account, hreq]
          rw [haccount]
          refine ⟨s, xs, ys, ?_, hshows, hkept⟩
          simp only [service, Service.step, hreq]
      | some msg =>
          have haccount : (Use.add sec usec hndlr hndlrArg now).account a =
              addTimer now msg a := by
            simp only [Use.account, hreq]
          rw [haccount] at hfew ⊢
          obtain ⟨haction, hvalid, hsome, hhandler, -⟩ := timerAdd_some hreq
          have hlt : a.accepted.length < 2 ^ 31 := by
            dsimp only [addTimer, Agenda.accept] at hfew
            rw [List.length_append, List.length_singleton] at hfew
            omega
          obtain ⟨s', xs', hstep, hshows', hkept'⟩ :=
            hshows.add hkept now haction hvalid (hhandler ▸ hsome) hlt
          refine ⟨s', xs', ys, ?_, hshows', hkept'⟩
          simp only [service, Service.step, hreq, hstep]
  | rem id freeArg =>
      cases hreq : timerRem id freeArg with
      | none =>
          have haccount : (Use.rem id freeArg).account a = a := by
            simp only [Use.account, hreq]
          rw [haccount]
          refine ⟨s, xs, ys, ?_, hshows, hkept⟩
          simp only [service, Service.step, hreq]
      | some msg =>
          have haccount : (Use.rem id freeArg).account a =
              a.remove Timer.id msg.id msg.handler := by
            simp only [Use.account, hreq]
          have hmsg : msg.action = .del ∧ msg.id ≠ -1 := by
            unfold timerRem at hreq
            split at hreq
            · cases hreq
            · rename_i hid
              cases hreq
              refine ⟨rfl, ?_⟩
              rintro rfl
              exact hid (by decide)
          rw [haccount]
          obtain ⟨s', xs', hstep, hshows', hkept'⟩ :=
            hshows.remove hkept ⟨0, 0⟩ hmsg.1 hmsg.2
          refine ⟨s', xs', ys, ?_, hshows', hkept'⟩
          simp only [service, Service.step, hreq, hstep]
  | clear =>
      obtain ⟨s', hstep, hshows', hkept'⟩ := hshows.clear hkept ⟨0, 0⟩
      exact ⟨s', [], ys, hstep, hshows', hkept'⟩
  | expire => exact hshows.expire hkept
  | pop =>
      obtain ⟨s', ys', hstep, hshows', hkept'⟩ := hshows.pop hkept
      exact ⟨s', xs, ys', hstep, hshows', hkept'⟩

/-- Nothing that has become of a timer is undone. -/
structure Extends (a b : Account) : Prop where
  accepted : a.accepted <+: b.accepted
  taken : a.taken <+: b.taken
  done : a.done <+: b.done
  removed : a.removed <+: b.removed
  cleared : a.cleared <+: b.cleared

theorem Extends.refl (a : Account) : Extends a a :=
  ⟨List.prefix_rfl, List.prefix_rfl, List.prefix_rfl, List.prefix_rfl,
    List.prefix_rfl⟩

theorem Extends.trans {a b c : Account} (h : Extends a b)
    (h' : Extends b c) : Extends a c where
  accepted := h.accepted.trans h'.accepted
  taken := h.taken.trans h'.taken
  done := h.done.trans h'.done
  removed := h.removed.trans h'.removed
  cleared := h.cleared.trans h'.cleared

/-- An account never forgets an addition. -/
theorem use_extends (e : Use) (a : Account) : Extends a (e.account a) := by
  have hrefl := Extends.refl a
  cases e with
  | add sec usec hndlr hndlrArg now =>
      unfold Use.account
      dsimp only
      cases timerAdd sec usec hndlr hndlrArg with
      | none => exact hrefl
      | some msg =>
          exact { hrefl with accepted := List.prefix_append _ _ }
  | rem id freeArg =>
      unfold Use.account
      dsimp only
      cases timerRem id freeArg with
      | none => exact hrefl
      | some msg =>
          dsimp only
          unfold Agenda.remove
          split
          · exact hrefl
          · exact { hrefl with removed := List.prefix_append _ _ }
  | clear => exact { hrefl with cleared := List.prefix_append _ _ }
  | expire =>
      show Extends a a.take
      unfold Agenda.take
      split
      · exact hrefl
      · exact { hrefl with taken := List.prefix_append _ _ }
  | pop =>
      show Extends a a.finish
      unfold Agenda.finish
      split
      · exact hrefl
      · exact { hrefl with done := List.prefix_append _ _ }

/-- Nor does a history. -/
theorem accountAfter_extends (events : Nat → Use) {i j : Nat} (hij : i ≤ j) :
    Extends (accountAfter events i) (accountAfter events j) := by
  induction j, hij using Nat.le_induction with
  | base => exact Extends.refl _
  | succ j _ ih => exact ih.trans (use_extends (events j) _)

/-- After any uses, the library shows what has become of the timers. -/
theorem history_shows {states : Nat → Service} {events : Nat → Use} {n : Nat}
    (hist : service.History states events n)
    (hfew : (accountAfter events n).accepted.length ≤ 2 ^ 31) {i : Nat}
    (hi : i ≤ n) :
    (∃ xs ys, Shows (states i) (accountAfter events i) xs ys) ∧
      Kept (states i) (accountAfter events i) := by
  induction i with
  | zero =>
      rw [hist.start]
      exact ⟨⟨[], [], State.rep_start, rfl, rfl, rfl, rfl⟩,
        ⟨Agenda.conserved_nil, rfl, nofun, rfl, fun _ => rfl⟩⟩
  | succ i ih =>
      obtain ⟨⟨xs, ys, hshows⟩, hkept⟩ := ih (by omega)
      obtain ⟨henabled, hstep⟩ := hist.next i (by omega)
      have hlen := (accountAfter_extends events hi).accepted.length_le
      obtain ⟨s', xs', ys', hstep', hshows', hkept'⟩ :=
        use_shows hshows hkept henabled (hlen.trans hfew)
      rw [hstep', Option.some.injEq] at hstep
      subst hstep
      exact ⟨⟨xs', ys', hshows'⟩, hkept'⟩

instance (e : Use) (s : Service) : Decidable (service.enabled e s) :=
  match e with
  | .add _ _ _ _ now => inferInstanceAs (Decidable now.Normalised)
  | .rem _ _ | .clear | .expire | .pop => inferInstanceAs (Decidable True)

end ChessServer.LibTimer
