import Mathlib.Data.List.Perm.Subperm
import Mathlib.Data.List.TakeWhile
import ChessServer.Server.Timer

/-!
# The timer lists

What the functions of libtimer do to the two lists that the heap holds.  Each
has a lemma for each of its outcomes, so that nothing further on looks at a
pointer.
-/

namespace ChessServer.LibTimer

open DList

/-- A timer at its address. -/
abbrev Cell := Ptr × Timer

/-- A timeout that is in the future. -/
def Request.Valid (msg : Request) : Prop :=
  0 ≤ msg.timeout.tvSec ∧ 0 ≤ msg.timeout.tvUsec ∧
    ¬ (msg.timeout.tvSec = 0 ∧ msg.timeout.tvUsec = 0)

namespace State

/-- `timerq` holds the timers `xs` and `timeout_list` holds `ys`. -/
structure Rep (s : State) (xs ys : List Cell) : Prop where
  timerq : Holds s.heap s.timerq xs
  timeoutList : Holds s.heap s.timeoutList ys
  apart : ∀ p ∈ keys xs, p ∉ keys ys
  /-- `malloc` has returned their addresses -/
  below : ∀ p, p ∈ keys xs ∨ p ∈ keys ys → p < s.top

theorem rep_start : Rep {} [] [] where
  timerq := holds_nil _
  timeoutList := holds_nil _
  apart := nofun
  below := nofun

variable {s : State} {xs ys : List Cell}

/-- A list is not longer than the addresses that `malloc` has returned. -/
theorem length_le_top {zs : List Cell} {top : Ptr} (hnodup : (keys zs).Nodup)
    (hbelow : ∀ p ∈ keys zs, p < top) : zs.length ≤ top := by
  have hsub : keys zs ⊆ List.range top := by
    intro p hp
    exact List.mem_range.mpr (hbelow p hp)
  have hlen := (hnodup.subperm hsub).length_le
  rwa [List.length_map, List.length_range] at hlen

theorem Rep.length_le (rep : s.Rep xs ys) : xs.length ≤ s.top :=
  length_le_top rep.timerq.nodup fun p hp => rep.below p (Or.inl hp)

theorem Rep.pending_length_le (rep : s.Rep xs ys) : ys.length ≤ s.top :=
  length_le_top rep.timeoutList.nodup fun p hp => rep.below p (Or.inr hp)

theorem Rep.not_mem_top (rep : s.Rep xs ys) :
    s.top ∉ keys xs ∧ s.top ∉ keys ys := by
  constructor
  · intro hmem
    exact Nat.lt_irrefl _ (rep.below s.top (Or.inl hmem))
  · intro hmem
    exact Nat.lt_irrefl _ (rep.below s.top (Or.inr hmem))

/-- A node that was allocated and is on neither list. -/
structure Outside (s : State) (xs ys : List Cell) (p : Ptr) : Prop where
  below : p < s.top
  timerq : p ∉ keys xs
  timeoutList : p ∉ keys ys

/-- The nodes outside the lists stay there, and stay as they are. -/
def Keeps (s : State) (xs ys : List Cell) (s' : State)
    (xs' ys' : List Cell) : Prop :=
  ∀ p, s.Outside xs ys p → s'.Outside xs' ys' p ∧ s'.heap p = s.heap p

theorem Keeps.refl (s : State) (xs ys : List Cell) : s.Keeps xs ys s xs ys :=
  fun _ hp => ⟨hp, rfl⟩

theorem Keeps.trans {s s₁ s₂ : State} {xs ys xs₁ ys₁ xs₂ ys₂ : List Cell}
    (h : s.Keeps xs ys s₁ xs₁ ys₁) (h' : s₁.Keeps xs₁ ys₁ s₂ xs₂ ys₂) :
    s.Keeps xs ys s₂ xs₂ ys₂ := by
  intro p hp
  obtain ⟨hout, hsame⟩ := h p hp
  obtain ⟨hout', hsame'⟩ := h' p hout
  exact ⟨hout', hsame'.trans hsame⟩

/-! ## Mutexes -/

theorem lock_free {m : Mutex} (hfree : s.held m = false) :
    s.lock m = some { s with held := Function.update s.held m true } :=
  if_neg (by simp [hfree])

/-- A mutex that was locked is unlocked. -/
theorem unlock_held {m : Mutex} {held : Mutex → Bool}
    (hfree : held m = false)
    (hheld : s.held = Function.update held m true) :
    s.unlock m = { s with held := held } := by
  have hback : Function.update (Function.update held m true) m false = held := by
    rw [Function.update_idem, ← hfree, Function.update_eq_self]
  rw [unlock, hheld, hback, Function.update_self]
  simp

/-! ## The queue -/

theorem timerDequeue_eq {t : Ptr} {q : Ends} {h : Heap Timer}
    (hremove : remove t s.timerq s.heap = some (q, h)) :
    s.timerDequeue t = some { s with timerq := q, heap := h } := by
  simp only [timerDequeue, hremove, Option.bind_eq_bind, Option.bind_some]

/-- A node is taken off `timerq`. -/
theorem Rep.remove {x : Cell} {front back : List Cell}
    (rep : s.Rep (front ++ x :: back) ys) :
    ∃ q h, DList.remove x.1 s.timerq s.heap = some (q, h) ∧
      Rep { s with timerq := q, heap := h } (front ++ back) ys ∧
      s.Keeps (front ++ x :: back) ys { s with timerq := q, heap := h }
        (front ++ back) ys := by
  obtain ⟨q, h, hremove, hold, -, hframe⟩ := remove_holds rep.timerq
  have hsub : ∀ p ∈ keys (front ++ back), p ∈ keys (front ++ x :: back) := by
    intro p hp
    rw [keys, List.map_append, List.mem_append] at hp ⊢
    rcases hp with hp | hp
    · exact Or.inl hp
    · exact Or.inr (List.mem_cons_of_mem _ hp)
  refine ⟨q, h, hremove, ⟨hold, rep.timeoutList.congr fun p hp => ?_,
    fun p hp => rep.apart p (hsub p hp), fun p hp => ?_⟩, fun p hp => ?_⟩
  · exact hframe p fun hmem => rep.apart p hmem hp
  · exact rep.below p (hp.imp_left (hsub p))
  · exact ⟨⟨hp.below, fun hmem => hp.timerq (hsub p hmem), hp.timeoutList⟩,
      hframe p hp.timerq⟩

/-- Where a timer is put: behind all that do not expire later. -/
def insertTimer (x : Cell) (xs : List Cell) : List Cell :=
  xs.takeWhile (fun y => !x.2.timeout.lessThan y.2.timeout) ++
    x :: xs.dropWhile fun y => !x.2.timeout.lessThan y.2.timeout

/-- The timer that a request asks for. -/
def newTimer (now : Timeval) (msg : Request) (s : State) : Timer where
  timeout := now.deadline msg.timeout
  handler := msg.handler
  handlerArg := msg.handlerArg
  id := (nextId s.curId).1

/-- A request that is turned down. -/
theorem addTimernodeToList_rejected {now : Timeval} {malloc : Bool}
    {msg : Request} (h : ¬ (msg.Valid ∧ malloc = true)) :
    s.addTimernodeToList now malloc msg =
      some (-1, { msg with id := -1 }, s.unlock .timerq) := by
  unfold addTimernodeToList
  split
  · rfl
  · rename_i hvalid
    rw [if_pos]
    cases malloc with
    | false => rfl
    | true =>
        refine absurd ⟨?_, rfl⟩ h
        unfold Request.Valid
        omega

/-- A request that is accepted. -/
theorem addTimernodeToList_rep (now : Timeval) {msg : Request}
    (rep : s.Rep xs ys) (hfree : s.held .timerq = false) (hvalid : msg.Valid) :
    ∃ q h, s.addTimernodeToList now true msg =
        some (0, { msg with id := (nextId s.curId).1 },
          { s with
            curId := (nextId s.curId).2
            timerq := q, heap := h, top := s.top + 1 }) ∧
      Rep { s with
            curId := (nextId s.curId).2
            timerq := q, heap := h, top := s.top + 1 }
        (insertTimer (s.top, newTimer now msg s) xs) ys ∧
      s.Keeps xs ys { s with
            curId := (nextId s.curId).2
            timerq := q, heap := h, top := s.top + 1 }
        (insertTimer (s.top, newTimer now msg s) xs) ys := by
  let x : Cell := (s.top, newTimer now msg s)
  let front := xs.takeWhile fun y => !x.2.timeout.lessThan y.2.timeout
  let back := xs.dropWhile fun y => !x.2.timeout.lessThan y.2.timeout
  have hxs : front ++ back = xs := List.takeWhile_append_dropWhile
  obtain ⟨hnew, hnew'⟩ := rep.not_mem_top
  have hfind : find (fun t => x.2.timeout.lessThan t.timeout) s.heap s.top
      s.timerq.first = some (entry back none) := by
    rw [rep.timerq.first]
    exact find_seg _ rep.timerq.links rep.length_le
  have hold : Holds s.heap s.timerq (front ++ back) := hxs.symm ▸ rep.timerq
  obtain ⟨q, h, hinsert, hold', hframe⟩ :=
    insertBefore_holds hold x.2 (hxs.symm ▸ hnew)
  have hkeys : ∀ p, p ∈ keys (front ++ x :: back) →
      p = s.top ∨ p ∈ keys xs := by
    intro p hp
    rw [← hxs]
    rw [keys, List.map_append, List.map_cons, List.mem_append,
      List.mem_cons] at hp
    rw [keys, List.map_append, List.mem_append]
    rcases hp with hp | hp | hp
    · exact Or.inr (Or.inl hp)
    · exact Or.inl hp
    · exact Or.inr (Or.inr hp)
  refine ⟨q, h, ?_, ⟨hold', rep.timeoutList.congr fun p hp => ?_,
    fun p hp => ?_, fun p hp => ?_⟩, fun p hp => ⟨⟨?_, ?_, ?_⟩, ?_⟩⟩
  · unfold addTimernodeToList
    rw [if_neg (by unfold Request.Valid at hvalid; omega),
      if_neg (by decide), lock_free hfree]
    dsimp only [Option.bind_eq_bind, Option.bind_some]
    have hfind' : find (fun t => (now.deadline msg.timeout).lessThan t.timeout)
        s.heap s.top s.timerq.first = some (entry back none) := hfind
    have hinsert' : insertBefore s.top ⟨now.deadline msg.timeout, msg.handler,
        msg.handlerArg, (nextId s.curId).1⟩ (entry back none) s.timerq s.heap =
        some (q, h) := hinsert
    rw [hfind']
    dsimp only [Option.bind_some]
    rw [hinsert']
    dsimp only [Option.bind_some]
    rw [unlock_held hfree rfl]
  · apply hframe p
    · rintro rfl
      exact hnew' hp
    · rw [hxs]
      exact fun hmem => rep.apart p hmem hp
  · rcases hkeys p hp with rfl | hp
    · exact hnew'
    · exact rep.apart p hp
  · show p < s.top + 1
    rcases hp with hp | hp
    · rcases hkeys p hp with rfl | hp
      · exact Nat.lt_succ_self _
      · exact Nat.lt_succ_of_lt (rep.below p (Or.inl hp))
    · exact Nat.lt_succ_of_lt (rep.below p (Or.inr hp))
  · exact Nat.lt_succ_of_lt hp.below
  · intro hmem
    rcases hkeys p hmem with rfl | hmem
    · exact Nat.lt_irrefl _ hp.below
    · exact hp.timerq hmem
  · exact hp.timeoutList
  · exact hframe p (Nat.ne_of_lt hp.below) (hxs ▸ hp.timerq)

/-- No timer has the id. -/
theorem delTimernodeFromList_missing {msg : Request} (rep : s.Rep xs ys)
    (hfree : s.held .timerq = false) (hid : msg.id ≠ -1)
    (hnone : ∀ x ∈ xs, x.2.id ≠ msg.id) :
    s.delTimernodeFromList msg = some (-1, s) := by
  have hall : (xs.dropWhile fun x => !(x.2.id == msg.id)) = [] := by
    rw [List.dropWhile_eq_nil_iff]
    intro x hx
    simpa using hnone x hx
  have hfind := find_seg (fun t => t.id == msg.id) rep.timerq.links
    rep.length_le
  rw [hall, ← rep.timerq.first] at hfind
  unfold delTimernodeFromList
  rw [if_neg hid, lock_free hfree]
  dsimp only [Option.bind_eq_bind, Option.bind_some]
  rw [hfind]
  dsimp only [Option.bind_some, entry]
  rw [unlock_held hfree rfl]

/-- What `free_arg` is called with. -/
def freedBy (msg : Request) (x : Cell) : List (Handler × Arg) :=
  match msg.handler with
  | some freeArg => [(freeArg, x.2.handlerArg)]
  | none => []

/-- The first timer that has the id goes. -/
theorem delTimernodeFromList_rep {msg : Request} {x : Cell}
    {front back : List Cell} (rep : s.Rep (front ++ x :: back) ys)
    (hfree : s.held .timerq = false) (hid : msg.id ≠ -1)
    (hfront : ∀ y ∈ front, y.2.id ≠ msg.id) (hx : x.2.id = msg.id) :
    ∃ q h, s.delTimernodeFromList msg =
        some (0, { s with
          freed := freedBy msg x ++ s.freed, timerq := q, heap := h }) ∧
      Rep { s with
          freed := freedBy msg x ++ s.freed, timerq := q, heap := h }
        (front ++ back) ys ∧
      s.Keeps (front ++ x :: back) ys { s with
          freed := freedBy msg x ++ s.freed, timerq := q, heap := h }
        (front ++ back) ys := by
  obtain ⟨q, h, hremove, rep', hkeeps⟩ := rep.remove
  have hdrop : ((front ++ x :: back).dropWhile fun y => !(y.2.id == msg.id)) =
      x :: back := by
    rw [List.dropWhile_append_of_pos, List.dropWhile_cons_of_neg]
    · simpa using hx
    · intro y hy
      simpa using hfront y hy
  have hfind := find_seg (fun t => t.id == msg.id) rep.timerq.links
    rep.length_le
  rw [hdrop, ← rep.timerq.first] at hfind
  have hkeeps' : s.Keeps (front ++ x :: back) ys { s with
      freed := freedBy msg x ++ s.freed, timerq := q, heap := h }
      (front ++ back) ys := by
    intro p hp
    obtain ⟨hout, hsame⟩ := hkeeps p hp
    exact ⟨⟨hout.below, hout.timerq, hout.timeoutList⟩, hsame⟩
  refine ⟨q, h, ?_, ⟨rep'.timerq, rep'.timeoutList, rep'.apart, rep'.below⟩,
    hkeeps'⟩
  have hnode := rep.timerq.node
  unfold delTimernodeFromList
  rw [if_neg hid, lock_free hfree]
  dsimp only [Option.bind_eq_bind, Option.bind_some]
  rw [hfind]
  dsimp only [Option.bind_some, entry]
  rw [hnode]
  dsimp only [Option.bind_some]
  unfold freedBy
  cases msg.handler with
  | none =>
      simp only [timerDequeue, hremove, Option.bind_eq_bind, Option.bind_some]
      rw [unlock_held hfree rfl]
      rfl
  | some freeArg =>
      simp only [timerDequeue, hremove, Option.bind_eq_bind, Option.bind_some]
      rw [unlock_held hfree rfl]
      rfl

/-- A list with a member of some kind has a first one. -/
theorem exists_first {P : Cell → Prop} {xs : List Cell}
    (h : ∃ x ∈ xs, P x) : ∃ front x back, xs = front ++ x :: back ∧ P x ∧
      ∀ y ∈ front, ¬ P y := by
  induction xs with
  | nil => simp at h
  | cons x xs ih =>
      by_cases hx : P x
      · exact ⟨[], x, xs, rfl, hx, nofun⟩
      · have hrest : ∃ y ∈ xs, P y := by
          obtain ⟨y, hy, hpy⟩ := h
          rcases List.mem_cons.mp hy with rfl | hy
          · exact absurd hpy hx
          · exact ⟨y, hy, hpy⟩
        obtain ⟨front, y, back, rfl, hpy, hfront⟩ := ih hrest
        refine ⟨x :: front, y, back, rfl, hpy, fun z hz => ?_⟩
        rcases List.mem_cons.mp hz with rfl | hz
        · exact hx
        · exact hfront z hz

/-- A removal does nothing, or takes the first timer that has the id. -/
theorem delTimernodeFromList_cases (msg : Request) (rep : s.Rep xs ys)
    (hfree : s.held .timerq = false) :
    s.delTimernodeFromList msg = some (-1, s) ∨
      ∃ front x back q h, xs = front ++ x :: back ∧ x.2.id = msg.id ∧
        (∀ y ∈ front, y.2.id ≠ msg.id) ∧
        s.delTimernodeFromList msg = some (0, { s with
          freed := freedBy msg x ++ s.freed, timerq := q, heap := h }) ∧
        Rep { s with
          freed := freedBy msg x ++ s.freed, timerq := q, heap := h }
          (front ++ back) ys ∧
        s.Keeps xs ys { s with
          freed := freedBy msg x ++ s.freed, timerq := q, heap := h }
          (front ++ back) ys := by
  by_cases hid : msg.id = -1
  · exact Or.inl (if_pos hid)
  · by_cases hmem : ∃ x ∈ xs, x.2.id = msg.id
    · obtain ⟨front, x, back, rfl, hx, hfront⟩ := exists_first hmem
      obtain ⟨q, h, hdel, rep', hkeeps⟩ :=
        delTimernodeFromList_rep rep hfree hid hfront hx
      exact Or.inr ⟨front, x, back, q, h, rfl, hx, hfront, hdel, rep', hkeeps⟩
    · refine Or.inl (delTimernodeFromList_missing rep hfree hid ?_)
      intro x hx heq
      exact hmem ⟨x, hx, heq⟩

/-- All timers go, one after the other from the end. -/
theorem dequeueAll_rep (rep : s.Rep xs ys) {fuel : Nat}
    (hfuel : xs.length ≤ fuel) :
    ∃ q h, s.dequeueAll fuel = some { s with timerq := q, heap := h } ∧
      Rep { s with timerq := q, heap := h } [] ys ∧
      s.Keeps xs ys { s with timerq := q, heap := h } [] ys := by
  induction xs using List.reverseRecOn generalizing s fuel with
  | nil =>
      refine ⟨s.timerq, s.heap, ?_, rep, Keeps.refl s [] ys⟩
      have hlast : s.timerq.last = none := rep.timerq.last
      unfold dequeueAll
      rw [hlast]
  | append_singleton xs x ih =>
      rw [List.length_append, List.length_singleton] at hfuel
      obtain ⟨q, h, hremove, rep', hkeeps⟩ := rep.remove
      rw [List.append_nil] at rep' hkeeps
      have hlast : s.timerq.last = some x.1 := by
        rw [rep.timerq.last, exit_concat]
      cases fuel with
      | zero => omega
      | succ fuel =>
          obtain ⟨q', h', hall, hempty, hkeeps'⟩ :=
            ih rep' (show xs.length ≤ fuel by omega)
          refine ⟨q', h', ?_, hempty, hkeeps.trans hkeeps'⟩
          unfold dequeueAll
          rw [hlast]
          dsimp only [Option.bind_eq_bind]
          rw [timerDequeue_eq hremove]
          exact hall

/-- Both kinds of clearing empty `timerq`. -/
theorem delAllTimer_rep (needDestrory : Bool) (rep : s.Rep xs ys)
    (hfree : s.held .timerq = false) :
    ∃ q h, s.delAllTimer needDestrory =
        some (0, { s with
          timerq := q, heap := h
          running := s.running && !needDestrory }) ∧
      Rep { s with
          timerq := q, heap := h
          running := s.running && !needDestrory } [] ys ∧
      s.Keeps xs ys { s with
          timerq := q, heap := h
          running := s.running && !needDestrory } [] ys := by
  let s₁ := { s with held := Function.update s.held .timerq true }
  have rep₁ : s₁.Rep xs ys :=
    ⟨rep.timerq, rep.timeoutList, rep.apart, rep.below⟩
  obtain ⟨q, h, hall, rep', hkeeps⟩ := dequeueAll_rep rep₁ rep.length_le
  have hkeeps' : s.Keeps xs ys { s with
      timerq := q, heap := h
      running := s.running && !needDestrory } [] ys := by
    intro p hp
    obtain ⟨hout, hsame⟩ := hkeeps p ⟨hp.below, hp.timerq, hp.timeoutList⟩
    exact ⟨⟨hout.below, hout.timerq, hout.timeoutList⟩, hsame⟩
  refine ⟨q, h, ?_, ⟨rep'.timerq, rep'.timeoutList, rep'.apart, rep'.below⟩,
    hkeeps'⟩
  unfold delAllTimer
  rw [lock_free hfree]
  dsimp only [Option.bind_eq_bind, Option.bind_some]
  rw [hall]
  dsimp only [Option.bind_some]
  rw [unlock_held hfree rfl]
  cases needDestrory with
  | false => simp [s₁]
  | true => simp [s₁]

/-! ## Expiry -/

/-- What `add_timeout_list` makes of a timer. -/
def pending (hdl : Handler) (hdlArg : Arg) : Timer :=
  { handler := some hdl, handlerArg := hdlArg }

/-- A handler is put at the front of `timeout_list`. -/
theorem addTimeoutList_rep (hdl : Handler) (hdlArg : Arg)
    (rep : s.Rep xs ys) (hfree : s.held .timeout = false) :
    ∃ q h, s.addTimeoutList true hdl hdlArg =
        some (0, { s with timeoutList := q, heap := h, top := s.top + 1 }) ∧
      Rep { s with timeoutList := q, heap := h, top := s.top + 1 } xs
        ((s.top, pending hdl hdlArg) :: ys) ∧
      s.Keeps xs ys { s with timeoutList := q, heap := h, top := s.top + 1 } xs
        ((s.top, pending hdl hdlArg) :: ys) := by
  obtain ⟨hnew, hnew'⟩ := rep.not_mem_top
  obtain ⟨q, h, hpush, hold, hframe⟩ :=
    pushFront_holds rep.timeoutList (pending hdl hdlArg) hnew'
  have hne : ∀ {p}, s.Outside xs ys p → p ≠ s.top := fun hp =>
    Nat.ne_of_lt hp.below
  refine ⟨q, h, ?_, ⟨rep.timerq.congr fun p hp => ?_, hold, fun p hp => ?_,
    fun p hp => ?_⟩, fun p hp => ⟨⟨?_, hp.timerq, ?_⟩, ?_⟩⟩
  · have hpush' : pushFront s.top { handler := some hdl, handlerArg := hdlArg }
        s.timeoutList s.heap = some (q, h) := hpush
    unfold addTimeoutList
    rw [lock_free hfree]
    dsimp only [Option.bind_eq_bind, Option.bind_some]
    rw [if_pos rfl, hpush']
    dsimp only [Option.bind_some]
    rw [unlock_held hfree rfl]
  · apply hframe p
    · rintro rfl
      exact hnew hp
    · exact rep.apart p hp
  · rw [keys, List.map_cons, List.mem_cons, not_or]
    constructor
    · rintro rfl
      exact hnew hp
    · exact rep.apart p hp
  · show p < s.top + 1
    rw [keys, keys, List.map_cons, List.mem_cons] at hp
    rcases hp with hp | rfl | hp
    · exact Nat.lt_succ_of_lt (rep.below p (Or.inl hp))
    · exact Nat.lt_succ_self _
    · exact Nat.lt_succ_of_lt (rep.below p (Or.inr hp))
  · exact Nat.lt_succ_of_lt hp.below
  · rw [keys, List.map_cons, List.mem_cons, not_or]
    exact ⟨hne hp, hp.timeoutList⟩
  · exact hframe p (hne hp) hp.timeoutList

theorem addTimeoutList_failed (hdl : Handler) (hdlArg : Arg)
    (hfree : s.held .timeout = false) :
    s.addTimeoutList false hdl hdlArg = some (-1, s) := by
  unfold addTimeoutList
  rw [lock_free hfree]
  dsimp only [Option.bind_eq_bind, Option.bind_some]
  rw [if_neg (by decide), unlock_held hfree rfl]

/-- A worker is on, unless it could not be created. -/
theorem wakeWorker_eq (create : Bool) (hfree : s.held .timeout = false) :
    s.wakeWorker create = some { s with
      timeoutThreadIsOn := s.timeoutThreadIsOn || create
      workers :=
        s.workers + (!s.timeoutThreadIsOn && create).toNat } := by
  unfold wakeWorker
  rw [lock_free hfree]
  dsimp only [Option.bind_eq_bind, Option.bind_some]
  cases hon : s.timeoutThreadIsOn with
  | true =>
      rw [if_pos rfl, unlock_held hfree rfl]
      simp [← hon]
  | false =>
      rw [if_neg (by decide), unlock_held hfree rfl]
      cases create with
      | true => simp
      | false =>
          have hfree₁ : ({ s with timeoutThreadIsOn := true } : State).held
              .timeout = false := hfree
          rw [if_neg (by decide), lock_free hfree₁]
          dsimp only [Option.bind_some]
          rw [unlock_held hfree rfl]
          simp [← hon]

theorem timerExecute_nil (malloc create : Bool) (rep : s.Rep [] ys) :
    s.timerExecute malloc create = some s := by
  have hfirst : s.timerq.first = none := rep.timerq.first
  unfold timerExecute
  rw [hfirst]

/-- The first timer is taken, and its handler is queued. -/
theorem timerExecute_rep (malloc create : Bool) {x : Cell}
    (rep : s.Rep (x :: xs) ys) (htimerq : s.held .timerq = false)
    (htimeout : s.held .timeout = false) :
    ∃ s', s.timerExecute malloc create = some s' ∧
      s'.held = s.held ∧ s'.misused = s.misused ∧ s'.freed = s.freed ∧
      s'.curId = s.curId ∧ s'.running = s.running ∧
      s'.Rep xs (match x.2.handler, malloc with
        | some hdl, true => (s.top, pending hdl x.2.handlerArg) :: ys
        | _, _ => ys) := by
  have hfirst : s.timerq.first = some x.1 := rep.timerq.first
  have rep₀ : s.Rep ([] ++ x :: xs) ys := rep
  have hnode := rep₀.timerq.node
  obtain ⟨q, h, hremove, rep₁, -⟩ := rep₀.remove
  unfold timerExecute
  rw [hfirst]
  dsimp only [Option.bind_eq_bind]
  rw [hnode, lock_free htimerq]
  simp only [timerDequeue, hremove, Option.bind_eq_bind, Option.bind_some]
  rw [unlock_held htimerq rfl]
  cases hhandler : x.2.handler with
  | none => exact ⟨_, rfl, rfl, rfl, rfl, rfl, rfl, rep₁⟩
  | some hdl =>
      have hfree₁ : ({ s with timerq := q, heap := h } : State).held .timeout =
          false := htimeout
      cases malloc with
      | false =>
          dsimp only
          rw [addTimeoutList_failed hdl x.2.handlerArg hfree₁]
          exact ⟨_, rfl, rfl, rfl, rfl, rfl, rfl, rep₁⟩
      | true =>
          obtain ⟨q', h', hadd, rep₂, -⟩ :=
            addTimeoutList_rep hdl x.2.handlerArg rep₁ hfree₁
          dsimp only
          rw [hadd]
          dsimp only [Option.bind_some]
          rw [if_neg (by decide), wakeWorker_eq create (by exact htimeout)]
          exact ⟨_, rfl, rfl, rfl, rfl, rfl, rfl, rep₂.timerq, rep₂.timeoutList,
            rep₂.apart, rep₂.below⟩

theorem getPendingList_nil (rep : s.Rep xs [])
    (hfree : s.held .timeout = false) :
    s.getPendingList = some (none, s) := by
  unfold getPendingList
  rw [lock_free hfree]
  dsimp only [Option.bind_eq_bind, Option.bind_some]
  rw [popBack_nil rep.timeoutList]
  dsimp only [Option.bind_some]
  rw [unlock_held hfree rfl]

/-- The handler that waits the longest is taken off `timeout_list`. -/
theorem getPendingList_rep {y : Cell} (rep : s.Rep xs (ys ++ [y]))
    (hfree : s.held .timeout = false) :
    ∃ q h, s.getPendingList =
        some (some y.1, { s with timeoutList := q, heap := h }) ∧
      Rep { s with timeoutList := q, heap := h } xs ys ∧
      s.Keeps xs (ys ++ [y]) { s with timeoutList := q, heap := h } xs ys ∧
      Outside { s with timeoutList := q, heap := h } xs ys y.1 ∧
      h y.1 = some ⟨y.2, none, exit none ys⟩ := by
  obtain ⟨q, h, hpop, hold, hframe⟩ := popBack_holds rep.timeoutList
  have hsub : ∀ p ∈ keys ys, p ∈ keys (ys ++ [y]) := by
    intro p hp
    rw [keys, List.map_append, List.mem_append]
    exact Or.inl hp
  have hy : y.1 ∉ keys ys := by
    have hnodup := rep.timeoutList.nodup
    rw [keys, List.map_append, List.nodup_append] at hnodup
    intro hmem
    exact hnodup.2.2 y.1 hmem y.1 (List.mem_singleton_self _) rfl
  have hmem : y.1 ∈ keys (ys ++ [y]) := by
    rw [keys, List.map_append, List.mem_append]
    exact Or.inr (List.mem_singleton_self _)
  refine ⟨q, h, ?_, ⟨rep.timerq.congr fun p hp => ?_, hold,
    fun p hp hmem => ?_, fun p hp => ?_⟩, fun p hp => ?_,
    ⟨rep.below y.1 (Or.inr hmem), fun hp => rep.apart y.1 hp hmem, hy⟩, ?_⟩
  · unfold getPendingList
    rw [lock_free hfree]
    dsimp only [Option.bind_eq_bind, Option.bind_some]
    rw [hpop]
    dsimp only [Option.bind_some]
    rw [unlock_held hfree rfl]
  · exact hframe p fun hmem => rep.apart p hp (hsub p hmem)
  · exact rep.apart p hp (hsub p hmem)
  · exact rep.below p (hp.imp_right (hsub p))
  · have hout : p ∉ keys ys := fun hmem => hp.timeoutList (hsub p hmem)
    exact ⟨⟨hp.below, hp.timerq, hout⟩, hframe p hout⟩
  · rw [hframe y.1 hy]
    exact rep.timeoutList.node

/-! ## The time that is left -/

/-- What `get_rest_time` says of a deadline. -/
def restTime (now deadline : Timeval) : Timeval :=
  if now.lessThan deadline then deadline.minus now else ⟨0, almostNow⟩

theorem getRestTime_rep (now : Timeval) (rep : s.Rep xs ys) :
    s.getRestTime now =
      some (xs.head?.map fun x => restTime now x.2.timeout) := by
  unfold getRestTime
  cases xs with
  | nil =>
      have hfirst : s.timerq.first = none := rep.timerq.first
      rw [hfirst]
      rfl
  | cons x xs =>
      have hfirst : s.timerq.first = some x.1 := rep.timerq.first
      have rep₀ : s.Rep ([] ++ x :: xs) ys := rep
      rw [hfirst]
      dsimp only [Option.bind_eq_bind]
      rw [rep₀.timerq.node]
      dsimp only [Option.bind_some, List.head?_cons, Option.map_some]
      unfold restTime
      split
      · rfl
      · rfl

end State

end ChessServer.LibTimer
