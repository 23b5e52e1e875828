import ChessServer.Model.Exchange
import ChessServer.Proofs.Service

/-!
# The ids of timers

A timer is known by the value of a counter that only passes over -1.  The ids
are 0, 1, 2 and so on until the counter leaves the positive half of an `int`
(`ids_identify_iff`).
-/

namespace ChessServer.LibTimer

open DList

/-- The reply to the request of an addition. -/
def Use.reply (e : Use) (s : Service) : Option Request :=
  match e with
  | .add sec usec hndlr hndlrArg now => do
      let msg ← timerAdd sec usec hndlr hndlrArg
      let r ← s.lib.handleMsg now true msg
      some r.2.1
  | .rem _ _ | .clear | .expire | .pop => none

/-- The timer that an addition stands for, under the id that is given out. -/
def Use.given (e : Use) (s : Service) : Option Timer :=
  match e with
  | .add _ _ _ _ now =>
      (e.reply s).map fun reply => {
        timeout := now.deadline reply.timeout
        handler := reply.handler
        handlerArg := reply.handlerArg
        id := reply.id }
  | .rem _ _ | .clear | .expire | .pop => none

/-- In the first `n` uses, every timer gets an id that is not negative and
that no timer in `timerq` has, and `timer_rem` with this id takes this timer
out of `timerq`, if it is still there, and no other one. -/
structure Identified (states : Nat → Service) (events : Nat → Use)
    (n : Nat) : Prop where
  nonneg : ∀ i < n, ∀ t, (events i).given (states i) = some t → 0 ≤ t.id
  fresh : ∀ i < n, ∀ t, (events i).given (states i) = some t →
    (∀ u ∈ (states i).lib.waiting, u.id ≠ t.id) ∧
      t ∈ (states (i + 1)).lib.waiting
  removed : ∀ i j, i < j → j < n → ∀ t freeArg,
    (events i).given (states i) = some t → events j = .rem t.id freeArg →
      (states (j + 1)).lib.waiting = (states j).lib.waiting.erase t

/-! ## What is given -/

variable {s : Service} {a : Account} {xs ys : List Cell}

theorem given_add {sec usec : Int} {hndlr : Option Handler} {hndlrArg : Arg}
    {now : Timeval} {msg : Request}
    (hreq : timerAdd sec usec hndlr hndlrArg = some msg)
    (rep : s.lib.Rep xs ys) (hfree : s.lib.held .timerq = false) :
    (Use.add sec usec hndlr hndlrArg now).given s =
      some (State.newTimer now msg s.lib) := by
  obtain ⟨haction, hvalid, -⟩ := timerAdd_some hreq
  obtain ⟨q, h, hadd, -⟩ :=
    State.addTimernodeToList_rep now rep hfree hvalid
  simp only [Use.given, Use.reply, hreq, State.handleMsg, haction, hadd,
    Option.bind_eq_bind, Option.bind_some, Option.map_some]
  rfl

/-- A use adds a timer, or leaves those that were accepted as they are. -/
theorem account_accepted (e : Use) (a : Account) :
    (e.account a).accepted = a.accepted ∨
      ∃ sec usec hndlr hndlrArg now msg,
        e = .add sec usec hndlr hndlrArg now ∧
        timerAdd sec usec hndlr hndlrArg = some msg ∧
        e.account a = addTimer now msg a := by
  cases e with
  | add sec usec hndlr hndlrArg now =>
      cases hreq : timerAdd sec usec hndlr hndlrArg with
      | none =>
          left
          simp only [Use.account, hreq]
      | some msg =>
          right
          refine ⟨sec, usec, hndlr, hndlrArg, now, msg, rfl, hreq, ?_⟩
          simp only [Use.account, hreq]
  | rem id freeArg =>
      left
      unfold Use.account
      dsimp only
      cases timerRem id freeArg with
      | none => rfl
      | some msg =>
          dsimp only
          unfold Agenda.remove
          split
          · rfl
          · rfl
  | clear => exact Or.inl rfl
  | expire =>
      left
      show a.take.accepted = a.accepted
      unfold Agenda.take
      split
      · rfl
      · rfl
  | pop =>
      left
      show a.finish.accepted = a.accepted
      unfold Agenda.finish
      split
      · rfl
      · rfl

theorem ofNat_nonneg {n : Nat} (hfew : n < 2 ^ 31) : 0 ≤ Int32.ofNat n := by
  rw [Int32.le_iff_toInt_le, Int32.toInt_ofNat_of_lt hfew]
  exact Int.natCast_nonneg n

/-- As long as there are not too many, the timer that is given is the one that
the account accepts. -/
theorem given_accepted {e : Use} {t : Timer} (hshows : Shows s a xs ys)
    (hkept : Kept s a) (hfew : (e.account a).accepted.length ≤ 2 ^ 31)
    (hgiven : e.given s = some t) :
    ∃ now msg, e.account a = addTimer now msg a ∧
      (addTimer now msg a).accepted = a.accepted ++ [t] ∧
      t.id = Int32.ofNat a.accepted.length ∧
      a.accepted.length < 2 ^ 31 := by
  cases e with
  | add sec usec hndlr hndlrArg now =>
      cases hreq : timerAdd sec usec hndlr hndlrArg with
      | none =>
          simp only [Use.given, Use.reply, hreq, Option.bind_eq_bind,
            Option.bind_none, Option.map_none] at hgiven
          cases hgiven
      | some msg =>
          rw [given_add hreq hshows.rep (hkept.free _),
            Option.some.injEq] at hgiven
          have haccount : (Use.add sec usec hndlr hndlrArg now).account a =
              addTimer now msg a := by
            simp only [Use.account, hreq]
          have hlt : a.accepted.length < 2 ^ 31 := by
            rw [haccount] at hfew
            dsimp only [addTimer, Agenda.accept] at hfew
            rw [List.length_append, List.length_singleton] at hfew
            omega
          have hid : (nextId s.lib.curId).1 =
              Int32.ofNat a.accepted.length := by
            rw [hkept.curId, nextId_ofNat hlt]
          refine ⟨now, msg, haccount, ?_, ?_, hlt⟩
          · rw [← hgiven]
            unfold State.newTimer
            rw [hid]
            rfl
          · rw [← hgiven]
            exact hid
  | rem id freeArg => cases hgiven
  | clear => cases hgiven
  | expire => cases hgiven
  | pop => cases hgiven

theorem Shows.waiting_eq (hshows : Shows s a xs ys) :
    s.lib.waiting = a.waiting :=
  (waiting_rep hshows.rep).trans hshows.waiting

/-! ## Not too many timers -/

variable {states : Nat → Service} {events : Nat → Use} {n : Nat}

/-- A timer that is given in a history. -/
theorem given_at (hist : service.History states events n)
    (hfew : (accountAfter events n).accepted.length ≤ 2 ^ 31) {i : Nat}
    (hi : i < n) {t : Timer} (hgiven : (events i).given (states i) = some t) :
    ∃ now msg, accountAfter events (i + 1) =
        addTimer now msg (accountAfter events i) ∧
      (addTimer now msg (accountAfter events i)).accepted =
        (accountAfter events i).accepted ++ [t] ∧
      t.id = Int32.ofNat (accountAfter events i).accepted.length ∧
      (accountAfter events i).accepted.length < 2 ^ 31 := by
  obtain ⟨⟨xs, ys, hshows⟩, hkept⟩ :=
    history_shows hist hfew (Nat.le_of_lt hi)
  have hlen := (accountAfter_extends events
    (show i + 1 ≤ n by omega)).accepted.length_le
  exact given_accepted hshows hkept (hlen.trans hfew) hgiven

/-- What waits in the library is what waits in the account. -/
theorem waiting_at (hist : service.History states events n)
    (hfew : (accountAfter events n).accepted.length ≤ 2 ^ 31) {i : Nat}
    (hi : i ≤ n) :
    (states i).lib.waiting = (accountAfter events i).waiting := by
  obtain ⟨⟨xs, ys, hshows⟩, -⟩ := history_shows hist hfew hi
  exact hshows.waiting_eq

theorem identified_of_few (hist : service.History states events n)
    (hfew : (accountAfter events n).accepted.length ≤ 2 ^ 31) :
    Identified states events n where
  nonneg := by
    intro i hi t hgiven
    obtain ⟨now, msg, -, -, hid, hlt⟩ := given_at hist hfew hi hgiven
    rw [hid]
    exact ofNat_nonneg hlt
  fresh := by
    intro i hi t hgiven
    obtain ⟨now, msg, haccount, haccepted, hid, hlt⟩ :=
      given_at hist hfew hi hgiven
    obtain ⟨-, hkept⟩ := history_shows hist hfew (Nat.le_of_lt hi)
    rw [waiting_at hist hfew (Nat.le_of_lt hi), waiting_at hist hfew hi]
    constructor
    · intro u hu heq
      have hmem : u.id ∈ (accountAfter events i).accepted.map Timer.id :=
        List.mem_map_of_mem (hkept.conserved.mem_accepted hu)
      rw [hkept.ids, heq, hid] at hmem
      exact id_fresh hlt hmem
    · rw [haccount]
      have hlast := List.append_cancel_left haccepted
      rw [List.cons.injEq] at hlast
      rw [← hlast.1]
      exact (List.mem_orderedInsert _).mpr (Or.inl rfl)
  removed := by
    intro i j hij hj t freeArg hgiven hrem
    obtain ⟨now, msg, haccount, haccepted, hid, hlt⟩ :=
      given_at hist hfew (show i < n by omega) hgiven
    obtain ⟨-, hkept⟩ := history_shows hist hfew (Nat.le_of_lt hj)
    rw [waiting_at hist hfew (Nat.le_of_lt hj), waiting_at hist hfew hj]
    have ht : t ∈ (accountAfter events j).accepted := by
      apply (accountAfter_extends events
        (show i + 1 ≤ j by omega)).accepted.subset
      rw [haccount, haccepted]
      exact List.mem_append_right _ (List.mem_singleton_self t)
    have hnonneg : ¬ t.id < 0 := by
      rw [hid, Int32.not_lt]
      exact ofNat_nonneg hlt
    show ((events j).account (accountAfter events j)).waiting = _
    rw [hrem]
    simp only [Use.account, timerRem, if_neg hnonneg]
    exact hkept.conserved.remove_waiting ht freeArg

/-! ## Too many timers -/

/-- The id after 2^31 timers. -/
theorem nextId_wrapped : (nextId (Int32.ofNat (2 ^ 31))).1 < 0 := by decide

theorem few_of_identified (hist : service.History states events n)
    (hident : Identified states events n) :
    (accountAfter events n).accepted.length ≤ 2 ^ 31 := by
  induction n with
  | zero => exact Nat.zero_le _
  | succ n ih =>
      have hist' : service.History states events n :=
        ⟨hist.start, fun i hi => hist.next i (Nat.lt_succ_of_lt hi)⟩
      have hident' : Identified states events n :=
        ⟨fun i hi => hident.nonneg i (Nat.lt_succ_of_lt hi),
          fun i hi => hident.fresh i (Nat.lt_succ_of_lt hi),
          fun i j hij hj => hident.removed i j hij (Nat.lt_succ_of_lt hj)⟩
      have hfew := ih hist' hident'
      show ((events n).account (accountAfter events n)).accepted.length ≤ _
      rcases account_accepted (events n) (accountAfter events n) with
        hsame | ⟨sec, usec, hndlr, hndlrArg, now, msg, hevent, hreq, hadd⟩
      · rw [hsame]
        exact hfew
      · rw [hadd]
        show ((accountAfter events n).accepted ++ [_]).length ≤ 2 ^ 31
        rw [List.length_append, List.length_singleton]
        by_contra hmany
        have hcount : (accountAfter events n).accepted.length = 2 ^ 31 := by
          omega
        obtain ⟨⟨xs, ys, hshows⟩, hkept⟩ :=
          history_shows hist' hfew (Nat.le_refl n)
        have hgiven : (Use.add sec usec hndlr hndlrArg now).given (states n) =
            some (State.newTimer now msg (states n).lib) :=
          given_add hreq hshows.rep (hkept.free _)
        rw [← hevent] at hgiven
        have hnonneg := hident.nonneg n (Nat.lt_succ_self n) _ hgiven
        have hid : (State.newTimer now msg (states n).lib).id < 0 := by
          show (nextId (states n).lib.curId).1 < 0
          rw [hkept.curId, hcount]
          exact nextId_wrapped
        exact absurd hid (Int32.not_lt.mpr hnonneg)

/-- In every history of the library, the ids identify the timers if and only
if it accepts at most 2^31 of them. -/
theorem ids_identify_iff (hist : service.History states events n) :
    Identified states events n ↔
      (accountAfter events n).accepted.length ≤ 2 ^ 31 := by
  constructor
  · exact few_of_identified hist
  · exact identified_of_few hist

/-! ## One timer after the other -/

/-- A timer of a second is added. -/
def addSecond (_ : Nat) : Use := .add 1 0 (some 0) none ⟨0, 0⟩

/-- The request of such an addition. -/
def secondRequest : Request where
  action := .add
  handler := some 0
  timeout := ⟨1, 0⟩

theorem addSecond_step (rep : s.lib.Rep xs ys)
    (hfree : ∀ m, s.lib.held m = false) (i : Nat) :
    ∃ s' xs', service.step (addSecond i) s = some s' ∧ s'.lib.Rep xs' ys ∧
      ∀ m, s'.lib.held m = false := by
  have hvalid : secondRequest.Valid := ⟨by decide, by decide, by decide⟩
  obtain ⟨q, h, hadd, rep', -⟩ :=
    State.addTimernodeToList_rep ⟨0, 0⟩ rep (hfree _) hvalid
  refine ⟨{ s with lib := { s.lib with
      curId := (nextId s.lib.curId).2
      timerq := q, heap := h, top := s.lib.top + 1 } }, _, ?_, rep', hfree⟩
  show s.request ⟨0, 0⟩ secondRequest = _
  have hmsg : s.lib.handleMsg ⟨0, 0⟩ true secondRequest =
      s.lib.addTimernodeToList ⟨0, 0⟩ true secondRequest := rfl
  unfold Service.request
  rw [hmsg, hadd]
  rfl

theorem addSecond_follow (i : Nat) :
    ∃ xs ys, (service.follow addSecond i).lib.Rep xs ys ∧
      ∀ m, (service.follow addSecond i).lib.held m = false := by
  induction i with
  | zero => exact ⟨[], [], State.rep_start, fun _ => rfl⟩
  | succ i ih =>
      obtain ⟨xs, ys, rep, hfree⟩ := ih
      obtain ⟨s', xs', hstep, rep', hfree'⟩ := addSecond_step rep hfree i
      have hnext : service.follow addSecond (i + 1) = s' := by
        show (service.step (addSecond i) _).getD _ = s'
        rw [hstep, Option.getD_some]
      rw [hnext]
      exact ⟨xs', ys, rep', hfree'⟩

theorem addSecond_history (n : Nat) :
    service.History (service.follow addSecond) addSecond n := by
  apply Machine.history_follow
  intro i _
  obtain ⟨xs, ys, rep, hfree⟩ := addSecond_follow i
  obtain ⟨s', xs', hstep, -⟩ := addSecond_step rep hfree i
  rw [hstep]
  exact ⟨⟨by decide, by decide⟩, rfl⟩

theorem addSecond_accepted (n : Nat) :
    (accountAfter addSecond n).accepted.length = n := by
  induction n with
  | zero => rfl
  | succ n ih =>
      show ((accountAfter addSecond n).accepted ++ [_]).length = n + 1
      rw [List.length_append, List.length_singleton, ih]

/-- Two timers are added, the first is removed, and a third is added. -/
def addAndRemove (i : Nat) : Use :=
  if i = 2 then .rem 0 none else addSecond i

/-- The three timers are told apart by the ids 0, 1 and 2, and the removal
leaves the other one. -/
theorem second_identified :
    Identified (service.follow addAndRemove) addAndRemove 4 ∧
      (service.follow addAndRemove 4).lib.waiting.map Timer.id = [1, 2] := by
  have hist : service.History (service.follow addAndRemove) addAndRemove 4 :=
    Machine.history_follow (by decide +kernel)
  refine ⟨(ids_identify_iff hist).mpr ?_, ?_⟩
  · decide +kernel
  · decide +kernel

/-- After 2^31 timers, an id is negative although the timer was added. -/
theorem id_negative : ¬ ∀ (states : Nat → Service) (events : Nat → Use)
    (n : Nat), service.History states events n →
      Identified states events n := by
  intro hclaim
  have hist := addSecond_history (2 ^ 31 + 1)
  have hfew := few_of_identified hist (hclaim _ _ _ hist)
  rw [addSecond_accepted] at hfew
  exact Nat.not_succ_le_self _ hfew

end ChessServer.LibTimer
