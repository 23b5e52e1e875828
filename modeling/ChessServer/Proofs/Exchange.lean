import Mathlib.Logic.Relation
import ChessServer.Model.Exchange
import ChessServer.Proofs.Service
import ChessServer.Proofs.TimerThread

/-!
# A call of timer_add, step by step

Neither side is ahead of the other: the timer thread handles the request after
the caller has sent all of it, and the caller returns an id after the timer
thread has sent all of the reply (`reachable_underway`, `reachable_faithful`).
-/

namespace ChessServer.LibTimer

open DList

/-- The caller's place agrees with the bytes on the socket. -/
def Caller.Placed (x : Exchange) : Caller → Prop
  | .connect => x.request = 0 ∧ x.peer = .listening
  | .sending sendLen => x.request = sendLen ∧ sendLen < maxBufSize
  | .receiving recvLen => x.request = maxBufSize ∧ recvLen < maxBufSize ∧
      recvLen ≤ x.reply
  | .returned ret => x.answer = none → ret = -1

/-- So does the timer thread's. -/
def Peer.Placed (x : Exchange) : Peer → Prop
  | .listening => x.answer = none
  | .receiving recvLen => x.answer = none ∧ recvLen < maxBufSize ∧
      recvLen ≤ x.request ∧ x.lib.running = true
  | .handling => x.answer = none ∧ x.request = maxBufSize ∧
      x.lib.running = true
  | .sending sendLen => x.answer ≠ none ∧ x.request = maxBufSize ∧
      x.reply = sendLen ∧ sendLen < maxBufSize
  | .closed => True

/-- What the answer says is so. -/
def Answered (x : Exchange) : Prop :=
  match x.answer with
  | none => x.inserted = [] ∧ x.reply = 0
  | some msg => x.inserted = [] ∧ msg.id = -1 ∨ x.inserted = [msg.id]

/-- What holds between two steps. -/
structure Underway (msg : Request) (x : Exchange) (xs ys : List Cell) :
    Prop where
  library : Library x.lib xs ys
  caller : x.caller.Placed x
  peer : x.peer.Placed x
  bound : x.request ≤ maxBufSize
  answer : Answered x
  /-- nobody else adds the caller's timer -/
  own : x.inserted = [] → ∀ c ∈ xs, ¬ (c.2.handler = msg.handler ∧
    c.2.handlerArg = msg.handlerArg)

/-- What holds as long as everything is in time. -/
structure Faithful (x : Exchange) : Prop where
  ids : ∀ id ∈ x.inserted, 0 ≤ id
  negative : ∀ ret, x.caller = .returned ret → ret < 0 → x.inserted = []
  nonneg : ∀ ret, x.caller = .returned ret → 0 ≤ ret → x.inserted = [ret]

variable {msg : Request} {x : Exchange} {xs ys : List Cell}

/-- A caller that returns without an answer returns -1. -/
theorem Underway.unanswered (h : Underway msg x xs ys)
    (hanswer : x.answer = none) : x.inserted = [] ∧ x.reply = 0 := by
  have hanswered := h.answer
  unfold Answered at hanswered
  rw [hanswer] at hanswered
  exact hanswered

/-- As long as the caller has not returned, it has told no lie. -/
theorem Faithful.of_busy (h : Faithful x) {y : Exchange}
    (hinserted : y.inserted = x.inserted)
    (hbusy : ∀ ret, y.caller ≠ .returned ret) : Faithful y where
  ids := hinserted ▸ h.ids
  negative := fun ret hret => absurd hret (hbusy ret)
  nonneg := fun ret hret => absurd hret (hbusy ret)

theorem Faithful.congr (h : Faithful x) {y : Exchange}
    (hinserted : y.inserted = x.inserted) (hcaller : y.caller = x.caller) :
    Faithful y where
  ids := hinserted ▸ h.ids
  negative := fun ret hret => hinserted ▸ h.negative ret (hcaller ▸ hret)
  nonneg := fun ret hret => hinserted ▸ h.nonneg ret (hcaller ▸ hret)

/-! ## The caller -/

/-- The caller connects, or fails to and returns. -/
theorem step_connect (ok : Bool) (h : Underway msg x xs ys)
    (henabled : x.caller = .connect) :
    ∃ y, x.step msg (.connect ok) = some y ∧ Underway msg y xs ys ∧
      (Faithful x → Faithful y) := by
  have hcaller := h.caller
  rw [henabled] at hcaller
  obtain ⟨hrequest, hpeer⟩ := hcaller
  have hplaced := h.peer
  rw [hpeer] at hplaced
  have hnil := (h.unanswered hplaced).1
  cases ok with
  | true =>
      refine ⟨{ x with caller := .sending 0 }, rfl,
        ⟨h.library, ⟨hrequest, by decide⟩, ?_, h.bound, h.answer, h.own⟩,
        fun hfaith => hfaith.of_busy rfl nofun⟩
      show x.peer.Placed _
      rw [hpeer]
      exact hplaced
  | false =>
      refine ⟨{ x with caller := .returned (-1), peer := .closed }, rfl,
        ⟨h.library, fun _ => rfl, trivial, h.bound, h.answer, h.own⟩,
        fun hfaith => ⟨hfaith.ids, fun _ _ _ => hnil, fun ret hret hle => ?_⟩⟩
      cases hret
      exact absurd hle (by decide)

/-- The bytes that have been sent do not place the timer thread elsewhere. -/
theorem Peer.Placed.mono {p : Peer} (h : p.Placed x) {y : Exchange}
    (hanswer : y.answer = x.answer) (hrequest : x.request ≤ y.request)
    (hmax : y.request ≤ maxBufSize) (hreply : y.reply = x.reply)
    (hlib : y.lib = x.lib) : p.Placed y := by
  cases p with
  | listening => exact hanswer.trans h
  | receiving recvLen =>
      obtain ⟨hnone, hlt, hle, hrun⟩ := h
      exact ⟨hanswer.trans hnone, hlt, hle.trans hrequest, hlib ▸ hrun⟩
  | handling =>
      obtain ⟨hnone, hfull, hrun⟩ := h
      exact ⟨hanswer.trans hnone, by omega, hlib ▸ hrun⟩
  | sending sendLen =>
      obtain ⟨hsome, hfull, hsent, hlt⟩ := h
      exact ⟨hanswer ▸ hsome, by omega, hreply.trans hsent, hlt⟩
  | closed => trivial

/-- Some bytes of the request leave the caller. -/
theorem step_callerSend {n : Nat} (h : Underway msg x xs ys)
    (henabled : x.enabled msg (.callerSend n)) :
    ∃ y, x.step msg (.callerSend n) = some y ∧ Underway msg y xs ys ∧
      (Faithful x → Faithful y) := by
  obtain ⟨hcaller, hpos, hle⟩ := henabled
  refine ⟨_, rfl, ⟨h.library, ?_, ?_, hle, h.answer, h.own⟩, fun hfaith => ?_⟩
  · show Caller.Placed _ (if x.request + n < maxBufSize then _ else _)
    split
    · rename_i hlt
      exact ⟨rfl, hlt⟩
    · rename_i hge
      exact ⟨by show x.request + n = maxBufSize; omega, by decide,
        Nat.zero_le _⟩
  · exact h.peer.mono rfl (Nat.le_add_right _ _) hle rfl rfl
  · refine hfaith.of_busy rfl fun ret => ?_
    show (if x.request + n < maxBufSize then _ else _) ≠ Caller.returned ret
    split
    · nofun
    · nofun

/-- Some bytes of the answer reach the caller, who returns when it has them
all. -/
theorem step_callerRecv {n : Nat} (h : Underway msg x xs ys)
    (henabled : x.enabled msg (.callerRecv n)) :
    ∃ y, x.step msg (.callerRecv n) = some y ∧ Underway msg y xs ys ∧
      (Faithful x → Faithful y) := by
  obtain ⟨recvLen, -, hcaller, hpos, hle⟩ := henabled
  have hplaced := h.caller
  rw [hcaller] at hplaced
  obtain ⟨hrequest, hlt, -⟩ := hplaced
  have hpeer := h.peer
  have hstep : x.step msg (.callerRecv n) = some (x.received (recvLen + n)) := by
    simp only [Exchange.step, hcaller]
  rw [hstep]
  refine ⟨_, rfl, ?_⟩
  unfold Exchange.received
  split
  · rename_i hmore
    refine ⟨⟨h.library, ⟨hrequest, hmore, hle⟩,
      hpeer.mono rfl (Nat.le_refl _) h.bound rfl rfl, h.bound,
      h.answer, h.own⟩, fun hfaith => hfaith.of_busy rfl nofun⟩
  · -- the reply is there, so there is an answer
    have hsome : ∃ reply, x.answer = some reply := by
      cases hanswer : x.answer with
      | none =>
          have hzero := (h.unanswered hanswer).2
          omega
      | some reply => exact ⟨reply, rfl⟩
    obtain ⟨reply, hanswer⟩ := hsome
    have hret : (x.answer.map Request.id).getD (-1) = reply.id := by
      rw [hanswer]
      rfl
    have hanswered := h.answer
    unfold Answered at hanswered
    rw [hanswer] at hanswered
    rw [hret]
    refine ⟨⟨h.library, fun hnone => ?_,
      hpeer.mono rfl (Nat.le_refl _) h.bound rfl rfl, h.bound,
      h.answer, h.own⟩, fun hfaith => ⟨hfaith.ids, ?_, ?_⟩⟩
    · exact absurd (hanswer.symm.trans hnone) (Option.some_ne_none _)
    · intro ret hret hneg
      cases hret
      rcases hanswered with ⟨hnil, -⟩ | hone
      · exact hnil
      · have hid := hfaith.ids reply.id (by
          rw [hone]
          exact List.mem_singleton_self _)
        exact absurd hneg (Int32.not_lt.mpr hid)
    · intro ret hret hnonneg
      cases hret
      rcases hanswered with ⟨-, hid⟩ | hone
      · rw [hid] at hnonneg
        exact absurd hnonneg (by decide)
      · exact hone

/-- A system call of the caller fails, and it returns a failure. -/
theorem step_callerFails (h : Underway msg x xs ys) :
    ∃ y, x.step msg .callerFails = some y ∧ Underway msg y xs ys ∧
      (Faithful x → x.inserted = [] → Faithful y) := by
  refine ⟨{ x with caller := .returned (-1) }, rfl,
    ⟨h.library, fun _ => rfl, h.peer.mono rfl (Nat.le_refl _) h.bound rfl rfl,
      h.bound, h.answer, h.own⟩,
    fun hfaith hnil => ⟨hfaith.ids, fun _ _ _ => hnil, fun ret hret hle => ?_⟩⟩
  cases hret
  exact absurd hle (by decide)

/-! ## The timer thread -/

/-- More of the reply does not place the caller elsewhere. -/
theorem Caller.Placed.mono {c : Caller} (h : c.Placed x) {y : Exchange}
    (hconnect : c ≠ .connect) (hanswer : y.answer = none → x.answer = none)
    (hrequest : y.request = x.request) (hreply : x.reply ≤ y.reply) :
    c.Placed y := by
  cases c with
  | connect => exact absurd rfl hconnect
  | sending sendLen =>
      obtain ⟨hsent, hlt⟩ := h
      exact ⟨hrequest.trans hsent, hlt⟩
  | receiving recvLen =>
      obtain ⟨hfull, hlt, hle⟩ := h
      exact ⟨hrequest.trans hfull, hlt, hle.trans hreply⟩
  | returned ret => exact fun hnone => h (hanswer hnone)

/-- Once the timer thread has accepted, the caller has connected. -/
theorem Underway.connected (h : Underway msg x xs ys)
    (hpeer : x.peer ≠ .listening) : x.caller ≠ .connect := by
  intro hcaller
  have hplaced := h.caller
  rw [hcaller] at hplaced
  exact hpeer hplaced.2

theorem step_accept (h : Underway msg x xs ys)
    (henabled : x.enabled msg .accept) :
    ∃ y, x.step msg .accept = some y ∧ Underway msg y xs ys ∧
      (Faithful x → Faithful y) := by
  obtain ⟨hpeer, hrunning, hconnect⟩ := henabled
  have hplaced := h.peer
  rw [hpeer] at hplaced
  refine ⟨{ x with peer := .receiving 0 }, rfl,
    ⟨h.library, h.caller.mono hconnect id rfl (Nat.le_refl _), ?_, h.bound,
      h.answer, h.own⟩, fun hfaith => hfaith.congr rfl rfl⟩
  exact ⟨hplaced, by decide, Nat.zero_le _, hrunning⟩

/-- Some bytes of the request reach the timer thread. -/
theorem step_peerRecv {n : Nat} (h : Underway msg x xs ys)
    (henabled : x.enabled msg (.peerRecv n)) :
    ∃ y, x.step msg (.peerRecv n) = some y ∧ Underway msg y xs ys ∧
      (Faithful x → Faithful y) := by
  obtain ⟨recvLen, -, hpeer, hpos, hle⟩ := henabled
  have hplaced := h.peer
  rw [hpeer] at hplaced
  obtain ⟨hnone, -, -, hrunning⟩ := hplaced
  have hconnect := h.connected (by rw [hpeer]; nofun)
  refine ⟨{ x with peer := if recvLen + n < maxBufSize
      then .receiving (recvLen + n) else .handling }, ?_,
    ⟨h.library, h.caller.mono hconnect id rfl (Nat.le_refl _), ?_, h.bound,
      h.answer, h.own⟩, fun hfaith => hfaith.congr rfl rfl⟩
  · simp only [Exchange.step, hpeer]
  · show Peer.Placed _ (if recvLen + n < maxBufSize then _ else _)
    split
    · rename_i hmore
      exact ⟨hnone, hmore, hle, hrunning⟩
    · rename_i hfull
      refine ⟨hnone, ?_, hrunning⟩
      show x.request = maxBufSize
      have hbound := h.bound
      omega

/-- Some bytes of the answer leave it. -/
theorem step_peerSend {n : Nat} (h : Underway msg x xs ys)
    (henabled : x.enabled msg (.peerSend n)) :
    ∃ y, x.step msg (.peerSend n) = some y ∧ Underway msg y xs ys ∧
      (Faithful x → Faithful y) := by
  obtain ⟨hpeer, hpos, hle⟩ := henabled
  have hplaced := h.peer
  rw [hpeer] at hplaced
  obtain ⟨hanswer, hfull, -, -⟩ := hplaced
  have hconnect := h.connected (by rw [hpeer]; nofun)
  refine ⟨_, rfl, ⟨h.library,
    h.caller.mono hconnect id rfl (Nat.le_add_right _ _), ?_, h.bound, ?_,
    h.own⟩, fun hfaith => hfaith.congr rfl rfl⟩
  · show Peer.Placed _ (if x.reply + n < maxBufSize then _ else _)
    split
    · rename_i hmore
      exact ⟨hanswer, hfull, rfl, hmore⟩
    · trivial
  · have hanswered := h.answer
    unfold Answered at hanswered ⊢
    dsimp only
    cases hreply : x.answer with
    | none => exact absurd hreply hanswer
    | some reply =>
        rw [hreply] at hanswered
        exact hanswered

/-- A system call of the timer thread fails, and it closes the socket. -/
theorem step_peerFails (h : Underway msg x xs ys)
    (hlistening : x.peer ≠ .listening) :
    ∃ y, x.step msg .peerFails = some y ∧ Underway msg y xs ys ∧
      (Faithful x → Faithful y) :=
  ⟨{ x with peer := .closed }, rfl,
    ⟨h.library,
      h.caller.mono (h.connected hlistening) id rfl (Nat.le_refl _), trivial,
      h.bound, h.answer, h.own⟩, fun hfaith => hfaith.congr rfl rfl⟩

/-- What `handle_msg` makes of the request. -/
theorem handleMsg_add {now : Timeval} (malloc : Bool)
    (haction : msg.action = .add) (hvalid : msg.Valid)
    (hlib : Library x.lib xs ys) (hrunning : x.lib.running = true)
    (hnow : now.Normalised) :
    ∃ r xs', x.lib.handleMsg now malloc msg = some r ∧ Library r.2.2 xs' ys ∧
      (malloc = false → r.1 = -1 ∧ r.2.1.id = -1 ∧ xs' = xs) ∧
      (malloc = true → r.1 = 0 ∧ r.2.1.id = (nextId x.lib.curId).1) := by
  cases malloc with
  | false =>
      have hinvalid : ¬ (msg.Valid ∧ false = true) := fun h =>
        absurd h.2 (by decide)
      have hadd : x.lib.addTimernodeToList now false msg =
          some (-1, { msg with id := -1 }, x.lib.unlock .timerq) :=
        State.addTimernodeToList_rejected hinvalid
      refine ⟨(-1, { msg with id := -1 }, x.lib.unlock .timerq), xs, ?_,
        hlib.unlock .timerq, fun _ => ⟨rfl, rfl, rfl⟩,
        fun hmalloc => absurd hmalloc (by decide)⟩
      simp only [State.handleMsg, haction, hadd]
  | true =>
      obtain ⟨q, h, hadd, rep, -⟩ :=
        State.addTimernodeToList_rep now hlib.rep (hlib.free _) hvalid
      refine ⟨(0, { msg with id := (nextId x.lib.curId).1 }, { x.lib with
          curId := (nextId x.lib.curId).2
          timerq := q, heap := h, top := x.lib.top + 1 }), _, ?_,
        ⟨rep, ?_, hlib.free, fun hexit => ?_⟩,
        fun hmalloc => absurd hmalloc (by decide), fun _ => ⟨rfl, rfl⟩⟩
      · simp only [State.handleMsg, haction, hadd]
      · apply deadlines_insert _ hlib.deadlines
        exact (deadline_normalised hnow hvalid.2.1).1
      · exact absurd (hrunning.symm.trans hexit) (by decide)

/-- The request is handled once it is complete. -/
theorem step_handle {now : Timeval} {malloc : Bool}
    (h : Underway msg x xs ys) (haction : msg.action = .add)
    (hvalid : msg.Valid) (henabled : x.enabled msg (.handle now malloc)) :
    ∃ y xs' ys', x.step msg (.handle now malloc) = some y ∧
      Underway msg y xs' ys' ∧ y.caller = x.caller ∧
      (malloc = true → y.inserted = [(nextId x.lib.curId).1] ∧
        y.answer.map Request.id = some (nextId x.lib.curId).1 ∧
        y.peer = .sending 0 ∧ y.reply = 0) ∧
      (Faithful x → x.InTime (.handle now malloc) → Faithful y) := by
  obtain ⟨hpeer, hnow⟩ := henabled
  have hplaced := h.peer
  rw [hpeer] at hplaced
  obtain ⟨hnone, hfull, hrunning⟩ := hplaced
  obtain ⟨hnil, hreply⟩ := h.unanswered hnone
  have hconnect := h.connected (by rw [hpeer]; nofun)
  obtain ⟨r, xs', hmsg, hlib, hfailed, hadded⟩ :=
    handleMsg_add malloc haction hvalid h.library hrunning hnow
  have hstep : x.step msg (.handle now malloc) = some (x.handled r) := by
    simp only [Exchange.step, hmsg, Option.map_some]
  have hcaller : x.caller.Placed (x.handled r) :=
    h.caller.mono hconnect (fun h => absurd h (Option.some_ne_none _)) rfl
      (Nat.le_refl _)
  have hsending : Peer.Placed (x.handled r) (.sending 0) :=
    ⟨Option.some_ne_none _, hfull, hreply, by decide⟩
  cases malloc with
  | false =>
      obtain ⟨hret, hid, rfl⟩ := hfailed rfl
      have hinserted : (x.handled r).inserted = x.inserted := by
        show (if r.1 = 0 then _ else x.inserted) = x.inserted
        rw [hret, if_neg (by decide)]
      refine ⟨_, xs', ys, hstep, ⟨hlib, hcaller, hsending, h.bound,
        Or.inl ⟨hinserted.trans hnil, hid⟩, fun _ => h.own hnil⟩, rfl, nofun,
        fun hfaith _ => hfaith.congr hinserted rfl⟩
  | true =>
      obtain ⟨hret, hid⟩ := hadded rfl
      have hinserted : (x.handled r).inserted = [(nextId x.lib.curId).1] := by
        show (if r.1 = 0 then x.inserted ++ [r.2.1.id] else _) = _
        rw [if_pos hret, hnil, hid]
        rfl
      refine ⟨_, xs', ys, hstep, ⟨hlib, hcaller, hsending, h.bound, ?_,
        fun hempty => ?_⟩, rfl, fun _ => ⟨hinserted, ?_, rfl, hreply⟩,
        fun hfaith hintime => ?_⟩
      · exact Or.inr (hinserted.trans (by rw [hid]))
      · exact absurd (hinserted.symm.trans hempty) (List.cons_ne_nil _ _)
      · show some r.2.1.id = _
        rw [hid]
      · obtain ⟨⟨recvLen, -, hreceiving⟩, hnonneg⟩ := hintime rfl
        have hbusy : ∀ ret, x.caller ≠ .returned ret := by
          rw [hreceiving]
          nofun
        refine ⟨fun id hmem => ?_, fun ret hret => absurd hret (hbusy ret),
          fun ret hret => absurd hret (hbusy ret)⟩
        rw [hinserted, List.mem_singleton] at hmem
        rw [hmem]
        exact hnonneg

theorem Caller.Placed.with_lib {c : Caller} (h : c.Placed x) (lib : State) :
    c.Placed { x with lib } := by
  cases c with
  | connect => exact h
  | sending sendLen => exact h
  | receiving recvLen => exact h
  | returned ret => exact h

/-- The library changes under an exchange that the timer thread is not at. -/
theorem Underway.with_lib (h : Underway msg x xs ys) {lib : State}
    {xs' ys' : List Cell} (hlib : Library lib xs' ys')
    (hpeer : x.peer = .listening ∨ x.peer = .closed ∨
      lib.running = x.lib.running)
    (hown : x.inserted = [] → ∀ c ∈ xs', ¬ (c.2.handler = msg.handler ∧
      c.2.handlerArg = msg.handlerArg)) :
    Underway msg { x with lib } xs' ys' := by
  refine ⟨hlib, h.caller.with_lib lib, ?_, h.bound, h.answer, hown⟩
  · show x.peer.Placed _
    have hplaced := h.peer
    rcases hpeer with hpeer | hpeer | hrun
    · rw [hpeer] at hplaced ⊢
      exact hplaced
    · rw [hpeer]
      trivial
    · cases hplace : x.peer with
      | listening =>
          rw [hplace] at hplaced
          exact hplaced
      | receiving recvLen =>
          rw [hplace] at hplaced
          obtain ⟨hnone, hlt, hle, hrunning⟩ := hplaced
          exact ⟨hnone, hlt, hle, hrun.trans hrunning⟩
      | handling =>
          rw [hplace] at hplaced
          obtain ⟨hnone, hfull, hrunning⟩ := hplaced
          exact ⟨hnone, hfull, hrun.trans hrunning⟩
      | sending sendLen =>
          rw [hplace] at hplaced
          exact hplaced
      | closed => trivial

/-- What the timer thread does for others adds no timer of this call. -/
theorem step_other {e : Wake} (h : Underway msg x xs ys)
    (henabled : x.enabled msg (.other e)) :
    ∃ y xs' ys', x.step msg (.other e) = some y ∧ Underway msg y xs' ys' ∧
      (Faithful x → Faithful y) := by
  obtain ⟨hpeer, hrunning, hforeign⟩ := henabled
  have hnow : ∀ msg' now malloc next, e = .request msg' now malloc next →
      now.Normalised := by
    rintro msg' now malloc next rfl
    exact hforeign.1
  obtain ⟨lib, xs', ys', hhandle, hlib, hnew⟩ :=
    handle_library h.library hrunning hnow
  refine ⟨{ x with lib }, xs', ys', ?_,
    h.with_lib hlib (hpeer.imp_right Or.inl) fun hnil c hc => ?_,
    fun hfaith => hfaith.congr rfl rfl⟩
  · simp only [Exchange.step, hhandle, Option.map_some]
  · rcases hnew c hc with hc | ⟨msg', now, malloc, next, rfl, hadds⟩
    · exact h.own hnil c hc
    · rintro ⟨hhandler, harg⟩
      obtain ⟨haction, hhandler', harg', -⟩ := hadds
      exact hforeign.2 msg' rfl
        ⟨haction, hhandler'.symm.trans hhandler, harg'.symm.trans harg⟩

/-- The worker takes a handler, or finds none. -/
theorem pop_library {lib : State} (hlib : Library lib xs ys) :
    ∃ s ys', Service.pop { lib } = some s ∧ Library s.lib xs ys' ∧
      s.lib.running = lib.running := by
  cases ys using List.reverseRecOn with
  | nil =>
      refine ⟨{ lib }, [], ?_, hlib, rfl⟩
      simp only [Service.pop, State.getPendingList_nil hlib.rep (hlib.free _),
        Option.bind_eq_bind, Option.bind_some]
  | append_singleton ys y =>
      obtain ⟨q, h, hpop, rep, -, hout, hnode⟩ :=
        State.getPendingList_rep hlib.rep (hlib.free _)
      obtain ⟨h', hcall, rep'⟩ := State.callHandler_rep rep hout hnode
      refine ⟨{
          lib := { lib with timeoutList := q, heap := h' }
          called := [] ++ (y.2.handler.map fun handler =>
            (handler, y.2.handlerArg)).toList }, ys, ?_,
        ⟨rep', hlib.deadlines, hlib.free, hlib.exited⟩, rfl⟩
      simp only [Service.pop, hpop, hcall, Option.bind_eq_bind,
        Option.bind_some]

/-- A worker takes a handler. -/
theorem step_pop (h : Underway msg x xs ys) :
    ∃ y ys', x.step msg .pop = some y ∧ Underway msg y xs ys' ∧
      (Faithful x → Faithful y) := by
  obtain ⟨s, ys', hpop, hlib, hrun⟩ := pop_library h.library
  refine ⟨{ x with lib := s.lib }, ys', ?_,
    h.with_lib hlib (Or.inr (Or.inr hrun)) h.own,
    fun hfaith => hfaith.congr rfl rfl⟩
  simp only [Exchange.step, hpop, Option.bind_eq_bind, Option.bind_some]

/-! ## Runs -/

/-- No step fails. -/
theorem step_underway {e : Turnover} (h : Underway msg x xs ys)
    (haction : msg.action = .add) (hvalid : msg.Valid)
    (henabled : x.enabled msg e) :
    ∃ y xs' ys', x.step msg e = some y ∧ Underway msg y xs' ys' ∧
      (Faithful x → x.InTime e → Faithful y) := by
  cases e with
  | connect ok =>
      obtain ⟨y, hstep, hunder, hfaith⟩ := step_connect ok h henabled
      exact ⟨y, xs, ys, hstep, hunder, fun hx _ => hfaith hx⟩
  | callerSend n =>
      obtain ⟨y, hstep, hunder, hfaith⟩ := step_callerSend h henabled
      exact ⟨y, xs, ys, hstep, hunder, fun hx _ => hfaith hx⟩
  | callerRecv n =>
      obtain ⟨y, hstep, hunder, hfaith⟩ := step_callerRecv h henabled
      exact ⟨y, xs, ys, hstep, hunder, fun hx _ => hfaith hx⟩
  | callerFails =>
      obtain ⟨y, hstep, hunder, hfaith⟩ := step_callerFails h
      exact ⟨y, xs, ys, hstep, hunder, hfaith⟩
  | accept =>
      obtain ⟨y, hstep, hunder, hfaith⟩ := step_accept h henabled
      exact ⟨y, xs, ys, hstep, hunder, fun hx _ => hfaith hx⟩
  | peerRecv n =>
      obtain ⟨y, hstep, hunder, hfaith⟩ := step_peerRecv h henabled
      exact ⟨y, xs, ys, hstep, hunder, fun hx _ => hfaith hx⟩
  | peerSend n =>
      obtain ⟨y, hstep, hunder, hfaith⟩ := step_peerSend h henabled
      exact ⟨y, xs, ys, hstep, hunder, fun hx _ => hfaith hx⟩
  | peerFails =>
      obtain ⟨y, hstep, hunder, hfaith⟩ := step_peerFails h henabled.1
      exact ⟨y, xs, ys, hstep, hunder, fun hx _ => hfaith hx⟩
  | handle now malloc =>
      obtain ⟨y, xs', ys', hstep, hunder, -, -, hfaith⟩ :=
        step_handle h haction hvalid henabled
      exact ⟨y, xs', ys', hstep, hunder, hfaith⟩
  | other e =>
      obtain ⟨y, xs', ys', hstep, hunder, hfaith⟩ := step_other h henabled
      exact ⟨y, xs', ys', hstep, hunder, fun hx _ => hfaith hx⟩
  | pop =>
      obtain ⟨y, ys', hstep, hunder, hfaith⟩ := step_pop h
      exact ⟨y, xs, ys', hstep, hunder, fun hx _ => hfaith hx⟩

theorem enabled_request {sec usec : Int} {hndlr : Option Handler}
    {hndlrArg : Arg} {e : Turnover} {x : Exchange}
    (h : (exchange sec usec hndlr hndlrArg).enabled e x) :
    ∃ msg, timerAdd sec usec hndlr hndlrArg = some msg ∧ x.enabled msg e := by
  obtain ⟨msg, hmsg, henabled⟩ := h
  exact ⟨msg, hmsg, henabled⟩

theorem exchange_step {sec usec : Int} {hndlr : Option Handler}
    {hndlrArg : Arg} {msg : Request}
    (hmsg : timerAdd sec usec hndlr hndlrArg = some msg) (e : Turnover)
    (x : Exchange) :
    (exchange sec usec hndlr hndlrArg).step e x = x.step msg e := by
  show (timerAdd sec usec hndlr hndlrArg).bind _ = _
  rw [hmsg, Option.bind_some]

theorem start_underway (msg : Request) : Underway msg {} [] [] where
  library := ⟨State.rep_start, nofun, fun _ => rfl, nofun⟩
  caller := ⟨rfl, rfl⟩
  peer := rfl
  bound := Nat.zero_le _
  answer := ⟨rfl, rfl⟩
  own := nofun

section Runs

variable {sec usec : Int} {hndlr : Option Handler} {hndlrArg : Arg}
  {msg : Request} {x : Exchange}

theorem exchange_start (hmsg : timerAdd sec usec hndlr hndlrArg = some msg) :
    (exchange sec usec hndlr hndlrArg).start = {} := by
  show (if (timerAdd sec usec hndlr hndlrArg).isSome = true then _ else _) = _
  rw [hmsg]
  rfl

/-- Every state of a call is well formed. -/
theorem reachable_underway
    (hmsg : timerAdd sec usec hndlr hndlrArg = some msg)
    (h : (exchange sec usec hndlr hndlrArg).Reachable x) :
    ∃ xs ys, Underway msg x xs ys := by
  obtain ⟨haction, hvalid, -⟩ := timerAdd_some hmsg
  refine h.invariant (I := fun x => ∃ xs ys, Underway msg x xs ys) ?_ ?_
  · rw [exchange_start hmsg]
    exact ⟨[], [], start_underway msg⟩
  · intro e a b hunder henabled _ hstep
    obtain ⟨xs, ys, hunder⟩ := hunder
    obtain ⟨msg', hmsg', henabled⟩ := enabled_request henabled
    obtain rfl : msg = msg' := Option.some.inj (hmsg.symm.trans hmsg')
    obtain ⟨b', xs', ys', hstep', hunder', -⟩ :=
      step_underway hunder haction hvalid henabled
    rw [exchange_step hmsg, hstep', Option.some.injEq] at hstep
    exact ⟨xs', ys', hstep ▸ hunder'⟩

/-- When everything is in time, the caller is told the truth. -/
theorem reachable_faithful
    (h : (exchange sec usec hndlr hndlrArg).ReachableWith
      (fun e x => x.InTime e) x) : Faithful x := by
  induction h with
  | start =>
      show Faithful (if (timerAdd sec usec hndlr hndlrArg).isSome = true
        then _ else _)
      split
      · exact ⟨nofun, nofun, nofun⟩
      · refine ⟨nofun, fun _ _ _ => rfl, fun ret hret hle => ?_⟩
        cases hret
        exact absurd hle (by decide)
  | step ha henabled hok hstep ih =>
      obtain ⟨msg, hmsg, henabled⟩ := enabled_request henabled
      obtain ⟨haction, hvalid, -⟩ := timerAdd_some hmsg
      obtain ⟨xs, ys, hunder⟩ := reachable_underway hmsg ha.reachable
      obtain ⟨b', xs', ys', hstep', -, hfaith⟩ :=
        step_underway hunder haction hvalid henabled
      rw [exchange_step hmsg, hstep', Option.some.injEq] at hstep
      exact hstep ▸ hfaith ih hok

/-- Without a request nothing happens. -/
theorem reachable_idle (hmsg : timerAdd sec usec hndlr hndlrArg = none)
    (h : (exchange sec usec hndlr hndlrArg).Reachable x) :
    x = { caller := .returned (-1), peer := .closed } := by
  induction h with
  | start =>
      show (if (timerAdd sec usec hndlr hndlrArg).isSome = true then _
        else _) = _
      rw [hmsg]
      rfl
  | step _ henabled _ _ _ =>
      obtain ⟨msg, hsome, -⟩ := enabled_request henabled
      rw [hmsg] at hsome
      cases hsome

/-- A caller that fails when a timer was added is wrong. -/
theorem returned_wrong {ret id : Int32} (hcaller : x.caller = .returned ret)
    (hneg : ret < 0) (hinserted : x.inserted = [id]) :
    ¬ x.Honest hndlr hndlrArg := by
  intro hhonest
  have hnil := (hhonest.negative ret hcaller hneg).1
  rw [hinserted] at hnil
  exact List.cons_ne_nil _ _ hnil

/-- An id that is negative means failure to the caller. -/
theorem negative_id_wrong {id : Int32}
    (hmsg : timerAdd sec usec hndlr hndlrArg = some msg)
    (hcaller : x.caller = .receiving 0) (hpeer : x.peer = .sending 0)
    (hreply : x.reply = 0) (hinserted : x.inserted = [id])
    (hanswer : x.answer.map Request.id = some id) (hneg : id < 0) :
    ∃ z, Relation.ReflTransGen (exchange sec usec hndlr hndlrArg).Next x z ∧
      ¬ z.Honest hndlr hndlrArg := by
  let y : Exchange := { x with reply := maxBufSize, peer := .closed }
  let z : Exchange := { y with caller := .returned id }
  have hsend : (exchange sec usec hndlr hndlrArg).Next x y := by
    refine ⟨.peerSend maxBufSize, ⟨msg, hmsg, ?_⟩, ?_⟩
    · show x.peer = .sending x.reply ∧ 0 < maxBufSize ∧
        x.reply + maxBufSize ≤ maxBufSize
      rw [hreply]
      exact ⟨hpeer, by decide, by decide⟩
    · rw [exchange_step hmsg]
      simp only [Exchange.step, hreply]
      rfl
  have hrecv : (exchange sec usec hndlr hndlrArg).Next y z := by
    refine ⟨.callerRecv maxBufSize, ⟨msg, hmsg, ?_⟩, ?_⟩
    · exact ⟨0, by decide, hcaller, by decide,
        Nat.le_of_eq (Nat.zero_add maxBufSize)⟩
    · have hcaller' : y.caller = .receiving 0 := hcaller
      have hanswer' : y.answer.map Request.id = some id := hanswer
      rw [exchange_step hmsg]
      simp only [Exchange.step, hcaller', Exchange.received, hanswer']
      rfl
  exact ⟨z, .tail (.single hsend) hrecv, returned_wrong rfl hneg hinserted⟩

end Runs

end ChessServer.LibTimer
