import ChessServer.Model.Workers
import ChessServer.Server.Exchange

/-!
# What timer_add promises

A negative value says that there is no timer, any other that there is one
with that id.
-/

namespace ChessServer.LibTimer

open DList

/-! ## The timers that wait -/

/-- The timers from a node on. -/
def timersFrom (h : Heap Timer) : Nat → Option Ptr → List Timer
  | 0, _ => []
  | _ + 1, none => []
  | fuel + 1, some p =>
      match h p with
      | none => []
      | some n => n.val :: timersFrom h fuel n.next

/-- The timers in `timerq`. -/
def State.waiting (s : State) : List Timer :=
  timersFrom s.heap s.top s.timerq.first

theorem timersFrom_seg {h : Heap Timer} {prev : Option Ptr} {zs : List Cell}
    (hseg : Seg h prev zs none) {fuel : Nat} (hfuel : zs.length ≤ fuel) :
    timersFrom h fuel (entry zs none) = zs.map Prod.snd := by
  induction zs generalizing prev fuel with
  | nil =>
      cases fuel with
      | zero => rfl
      | succ fuel => rfl
  | cons z zs ih =>
      obtain ⟨hnode, hrest⟩ := hseg
      rw [List.length_cons] at hfuel
      cases fuel with
      | zero => omega
      | succ fuel =>
          rw [entry, timersFrom, hnode]
          dsimp only
          rw [ih hrest (show zs.length ≤ fuel by omega), List.map_cons]

theorem waiting_rep {s : State} {xs ys : List Cell} (rep : s.Rep xs ys) :
    s.waiting = xs.map Prod.snd := by
  rw [State.waiting, rep.timerq.first]
  exact timersFrom_seg rep.timerq.links rep.length_le

namespace Exchange

/-- A timer with a handler and an argument waits. -/
def Registered (hndlr : Option Handler) (hndlrArg : Arg) (x : Exchange) :
    Prop :=
  ∃ t ∈ x.lib.waiting, t.handler = hndlr ∧ t.handlerArg = hndlrArg

/-- If the call has returned, what it promises is so. -/
structure Honest (hndlr : Option Handler) (hndlrArg : Arg) (x : Exchange) :
    Prop where
  negative : ∀ ret, x.caller = .returned ret → ret < 0 →
    x.inserted = [] ∧ ¬ x.Registered hndlr hndlrArg
  nonneg : ∀ ret, x.caller = .returned ret → 0 ≤ ret → x.inserted = [ret]

/-- The caller does not give up after the timer was added, the timer is not
added after the caller has given up, and its id is none of those that mean
failure. -/
def InTime (e : Turnover) (x : Exchange) : Prop :=
  match e with
  | .callerFails => x.inserted = []
  | .handle _ malloc => malloc = true →
      (∃ recvLen ∈ List.range maxBufSize, x.caller = .receiving recvLen) ∧
        0 ≤ (nextId x.lib.curId).1
  | .connect _ | .callerSend _ | .callerRecv _ | .accept | .peerRecv _
  | .peerSend _ | .peerFails | .other _ | .pop => True

instance (e : Turnover) (x : Exchange) : Decidable (x.InTime e) :=
  match e with
  | .callerFails => inferInstanceAs (Decidable (_ = _))
  | .handle _ _ => inferInstanceAs (Decidable (_ → _ ∧ _))
  | .connect _ | .callerSend _ | .callerRecv _ | .accept | .peerRecv _
  | .peerSend _ | .peerFails | .other _ | .pop =>
      inferInstanceAs (Decidable True)

end Exchange

instance (msg : Request) (e : Wake) : Decidable (Exchange.Foreign msg e) :=
  match e with
  | .timeout _ _ _ _ | .failed _ => inferInstanceAs (Decidable True)
  | .request _ _ _ _ => inferInstanceAs (Decidable (_ ∧ _))

instance (msg : Request) (e : Turnover) (x : Exchange) :
    Decidable (x.enabled msg e) :=
  match e with
  | .connect _ => inferInstanceAs (Decidable (_ = _))
  | .callerSend _ => inferInstanceAs (Decidable (_ ∧ _ ∧ _))
  | .callerRecv n => inferInstanceAs (Decidable (∃ recvLen ∈
      List.range maxBufSize, x.caller = .receiving recvLen ∧ 0 < n ∧
        recvLen + n ≤ x.reply))
  | .callerFails => inferInstanceAs (Decidable (_ = _))
  | .accept => inferInstanceAs (Decidable (_ ∧ _ ∧ _))
  | .peerRecv n => inferInstanceAs (Decidable (∃ recvLen ∈
      List.range maxBufSize, x.peer = .receiving recvLen ∧ 0 < n ∧
        recvLen + n ≤ x.request))
  | .peerSend _ => inferInstanceAs (Decidable (_ ∧ _ ∧ _))
  | .peerFails => inferInstanceAs (Decidable (_ ∧ _ ∧ _))
  | .handle _ _ => inferInstanceAs (Decidable (_ ∧ _))
  | .other _ => inferInstanceAs (Decidable (_ ∧ _ ∧ _))
  | .pop => inferInstanceAs (Decidable True)

instance (sec usec : Int) (hndlr : Option Handler) (hndlrArg : Arg)
    (e : Turnover) (x : Exchange) :
    Decidable ((exchange sec usec hndlr hndlrArg).enabled e x) :=
  inferInstanceAs (Decidable (∃ msg ∈ timerAdd sec usec hndlr hndlrArg,
    x.enabled msg e))

end ChessServer.LibTimer
