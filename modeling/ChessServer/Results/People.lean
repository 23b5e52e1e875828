import Mathlib.Algebra.Order.BigOperators.Group.List
import Mathlib.Data.Finset.Card
import Mathlib.Data.List.Nodup
import ChessServer.Proofs.Counts
import ChessServer.Results.Seats

/-!
# People counts

The number a board keeps is the number of its taken chairs, the snapshots
show it, and a hall's total, which adds the boards' numbers up, is the
number of sessions that are on one of its boards (`people_counts_are_right`).
Only the handlers keep the sessions in step with the chairs: a board alone
empties one and leaves the session on it (`vacated_chair_keeps_session`).
-/

namespace ChessServer

/-! ## The people of a board -/

/-- Who sits on a board. -/
def ChessBoard.people (board : ChessBoard) : List SessionId :=
  [Seat.left, .right, .bottom].filterMap board.seat

theorem mem_people {board : ChessBoard} {u : SessionId} :
    u ∈ board.people ↔ ∃ seat, board.seat seat = some u := by
  unfold ChessBoard.people
  rw [List.mem_filterMap]
  constructor
  · intro h
    obtain ⟨seat, _, hseat⟩ := h
    exact ⟨seat, hseat⟩
  · intro h
    obtain ⟨seat, hseat⟩ := h
    refine ⟨seat, ?_, hseat⟩
    cases seat <;> decide

theorem length_people (board : ChessBoard) :
    board.people.length = occupied board.seat := by
  unfold ChessBoard.people occupied
  cases hl : board.seat .left <;> cases hr : board.seat .right <;>
    cases hb : board.seat .bottom <;>
    simp only [List.filterMap_cons, List.filterMap_nil, hl, hr, hb] <;> rfl

/-- Nobody is on two chairs of one board. -/
theorem nodup_people {w : World} (hinv : w.layout.Inv) (b : BoardPtr) :
    (w.boards b).people.Nodup := by
  have hne : ∀ {seat seat' : Seat} {u : SessionId},
      (w.boards b).seat seat = some u → (w.boards b).seat seat' = some u →
      seat = seat' := by
    intro seat seat' u h h'
    exact (hinv.seating.unique (b := b) (c := b) h h').2
  have hlist : [Seat.left, .right, .bottom].Nodup := by decide
  exact hlist.filterMap fun _ _ _ h h' => hne h h'

/-! ## The people of a hall -/

/-- The boards of a hall in the order of its map. -/
def World.hallBoards (w : World) (hall : UInt32) : List (UInt32 × BoardPtr) :=
  (w.halls hall).chessBoardInfo.toList

theorem mem_hallBoards {w : World} {hall : UInt32}
    {entry : UInt32 × BoardPtr} :
    entry ∈ w.hallBoards hall ↔
      (w.halls hall).chessBoardInfo[entry.1]? = some entry.2 :=
  Std.TreeMap.mem_toList_iff_getElem?_eq_some

/-- Who sits on a board of a hall. -/
def World.people (w : World) (hall : UInt32) : List SessionId :=
  (w.hallBoards hall).flatMap fun entry => (w.boards entry.2).people

/-- The boards of a hall have different ids. -/
theorem hallBoards_distinct (w : World) (hall : UInt32) :
    ((w.hallBoards hall).map Prod.fst).Nodup := by
  have h := Std.TreeMap.distinct_keys_toList
    (t := (w.halls hall).chessBoardInfo)
  rw [List.Nodup, List.pairwise_map]
  refine h.imp fun hne heq => hne ?_
  rw [heq]
  exact Std.ReflCmp.compare_self

/-- A hall has at most as many boards as there are ids. -/
theorem length_hallBoards {w : World}
    (hknown : ∀ {hall id b}, (w.halls hall).chessBoardInfo[id]? = some b →
      b = ⟨hall, id⟩ ∧ id ≠ 0 ∧ id ≤ chessBoardMaxNum) (hall : UInt32) :
    (w.hallBoards hall).length ≤ chessBoardMaxNum.toNat := by
  have hids : ((w.hallBoards hall).map fun entry => entry.1.toNat).Nodup := by
    have h := hallBoards_distinct w hall
    have htoNat := h.map (f := UInt32.toNat) fun _ _ => UInt32.toNat_inj.mp
    rwa [List.map_map] at htoNat
  have hsub : ((w.hallBoards hall).map fun entry => entry.1.toNat) ⊆
      (List.range chessBoardMaxNum.toNat).map (· + 1) := by
    intro n hn
    obtain ⟨entry, hentry, rfl⟩ := List.mem_map.mp hn
    obtain ⟨_, hpos, hle⟩ := hknown (mem_hallBoards.mp hentry)
    have hpos' : entry.1.toNat ≠ 0 := fun h =>
      hpos (UInt32.toNat_inj.mp h)
    rw [UInt32.le_iff_toNat_le] at hle
    exact List.mem_map.mpr ⟨entry.1.toNat - 1,
      List.mem_range.mpr (by omega), by omega⟩
  have hlen := (hids.subperm hsub).length_le
  simpa using hlen

/-- Nobody is counted twice. -/
theorem nodup_hallPeople {w : World} (hinv : w.layout.Inv)
    (hw : w.Published) (hall : UInt32) : (w.people hall).Nodup := by
  unfold World.people
  rw [List.nodup_flatMap]
  constructor
  · intro entry _
    exact nodup_people hinv entry.2
  · have hdistinct := List.pairwise_map.mp (hallBoards_distinct w hall)
    refine hdistinct.imp_of_mem fun hx hy hne => ?_
    intro u hu hu'
    obtain ⟨seat, hseat⟩ := mem_people.mp hu
    obtain ⟨seat', hseat'⟩ := mem_people.mp hu'
    have hsame := (hinv.seating.unique (b := _) (c := _) hseat hseat').1
    obtain ⟨hx', _⟩ := hw.known (mem_hallBoards.mp hx)
    obtain ⟨hy', _⟩ := hw.known (mem_hallBoards.mp hy)
    apply hne
    have hptr := hx'.symm.trans (hsame.trans hy')
    exact (BoardPtr.mk.inj hptr).2

/-- Machine words add up modulo `2 ^ 32`. -/
theorem toNat_sum_words {α : Type} (f : α → UInt32) (l : List α)
    (a : UInt32) :
    (l.foldl (fun num e => num + f e) a).toNat =
      (a.toNat + (l.map fun e => (f e).toNat).sum) % 2 ^ 32 := by
  induction l generalizing a with
  | nil =>
      simp only [List.foldl_nil, List.map_nil, List.sum_nil, Nat.add_zero]
      exact (Nat.mod_eq_of_lt a.toNat_lt).symm
  | cons e l ih =>
      simp only [List.foldl_cons, List.map_cons, List.sum_cons]
      rw [ih, UInt32.toNat_add]
      omega

/-- A hall's total is the number of people on its boards, at most three a
board. -/
theorem getCurrentPeopleNum_eq {w : World} (hcounted : w.Counted)
    (hknown : ∀ {hall id b}, (w.halls hall).chessBoardInfo[id]? = some b →
      b = ⟨hall, id⟩ ∧ id ≠ 0 ∧ id ≤ chessBoardMaxNum) (hall : UInt32) :
    (w.getCurrentPeopleNum hall).toNat = (w.people hall).length ∧
      (w.people hall).length ≤ 3 * chessBoardMaxNum.toNat := by
  have hcount : ∀ entry : UInt32 × BoardPtr,
      (w.boards entry.2).currUserNum.toNat =
        (w.boards entry.2).people.length := by
    intro entry
    rw [length_people]
    exact hcounted entry.2
  have hlength : (w.people hall).length =
      ((w.hallBoards hall).map fun entry =>
        (w.boards entry.2).currUserNum.toNat).sum := by
    unfold World.people
    rw [List.length_flatMap]
    simp only [hcount]
  have hbound : (w.people hall).length ≤ 3 * chessBoardMaxNum.toNat := by
    rw [hlength]
    have hsum := List.sum_le_card_nsmul ((w.hallBoards hall).map fun entry =>
        (w.boards entry.2).currUserNum.toNat) 3 (by
      intro n hn
      obtain ⟨entry, _, rfl⟩ := List.mem_map.mp hn
      rw [hcount, length_people]
      exact occupied_le _)
    have hlen := length_hallBoards hknown hall
    rw [List.length_map] at hsum
    change _ ≤ (w.hallBoards hall).length * 3 at hsum
    omega
  refine ⟨?_, hbound⟩
  unfold World.getCurrentPeopleNum
  rw [toNat_sum_words fun entry : UInt32 × BoardPtr =>
    (w.boards entry.2).currUserNum]
  have hmax : 3 * chessBoardMaxNum.toNat < 2 ^ 32 := by decide
  rw [UInt32.toNat_zero, Nat.zero_add]
  rw [show (w.halls hall).chessBoardInfo.toList = w.hallBoards hall from rfl,
    ← hlength]
  exact Nat.mod_eq_of_lt (by omega)

/-! ## Calls of a board's functions -/

/-- A call that changes who sits on a board; `leaveOutRoom` stands for both
overloads, which differ in where the location comes from. -/
inductive BoardCall where
  | addUser (user : SessionId) (locate : Location)
  | leaveOutRoom (locate : Location)

/-- The board after a call. -/
def ChessBoard.call (board : ChessBoard) : BoardCall → ChessBoard
  | .addUser user locate => (board.addUser user locate).2
  | .leaveOutRoom locate => (board.leaveOutRoom locate).2

/-- The state after a call of a function of a board, and nothing else. -/
def World.call (w : World) (call : BoardPtr × BoardCall) : World :=
  w.modifyBoard call.1 fun board => board.call call.2

/-- The state after calls on any boards. -/
def World.calls (w : World) (calls : List (BoardPtr × BoardCall)) : World :=
  calls.foldl World.call w

theorem call_counted {board : ChessBoard} (h : board.Counted)
    (call : BoardCall) : (board.call call).Counted := by
  cases call with
  | addUser user locate => exact addUser_counted h user locate
  | leaveOutRoom locate => exact leaveOutRoom_counted h locate

/-- However the boards' functions are called, the counts stay right. -/
theorem calls_counted {w : World} (h : w.Counted)
    (calls : List (BoardPtr × BoardCall)) : (w.calls calls).Counted := by
  induction calls generalizing w with
  | nil => exact h
  | cons call calls ih =>
      refine ih fun b => ?_
      by_cases hb : b = call.1
      · subst hb
        simpa [World.call, World.modifyBoard] using call_counted (h _) call.2
      · simpa [World.call, World.modifyBoard, hb] using h b

/-- Only the boards change. -/
theorem calls_kept (w : World) (calls : List (BoardPtr × BoardCall)) :
    (w.calls calls).users = w.users ∧ (w.calls calls).halls = w.halls ∧
      (w.calls calls).fdSessionMap = w.fdSessionMap ∧
      (w.calls calls).sessionList = w.sessionList := by
  induction calls generalizing w with
  | nil => exact ⟨rfl, rfl, rfl, rfl⟩
  | cons call calls ih => exact ih (w.call call)

/-! ## Every state -/

/-- The sessions that serve a connection and are on a board of a hall. -/
def World.OnBoardOf (w : World) (hall : UInt32) (u : SessionId) : Prop :=
  w.Live u ∧ ∃ s b, w.users u = some s ∧ s.currChessBoard = some b ∧
    (w.halls hall).chessBoardInfo[b.id]? = some b

theorem mem_hallPeople {w : World} (hinv : w.layout.Inv)
    (hw : w.Published) {hall : UInt32} {u : SessionId} :
    u ∈ w.people hall ↔ w.OnBoardOf hall u := by
  unfold World.people
  rw [List.mem_flatMap]
  constructor
  · intro h
    obtain ⟨entry, hentry, hmem⟩ := h
    have hknown := mem_hallBoards.mp hentry
    obtain ⟨seat, hseat⟩ := mem_people.mp hmem
    obtain ⟨p, hp, hboard, _⟩ := hinv.seating.seated (b := entry.2) hseat
    obtain ⟨s, hs, rfl⟩ := place_session hp
    refine ⟨hinv.live hs hboard, s, entry.2, hs, hboard, ?_⟩
    obtain ⟨hptr, _⟩ := hw.known hknown
    rw [hptr] at hknown ⊢
    exact hknown
  · intro h
    obtain ⟨_, s, b, hs, hboard, hknown⟩ := h
    have hp : w.layout.place u = some s.place := by simp [World.layout, hs]
    obtain ⟨seat, _, hseat⟩ := hinv.seating.onBoard hp hboard
    exact ⟨(b.id, b), mem_hallBoards.mpr hknown,
      mem_people.mpr ⟨seat, hseat⟩⟩

/-- A hall's total is the number of live sessions on its boards. -/
theorem hall_counts_live {w : World} (hinv : w.layout.Inv)
    (hacc : w.Accounted) (hall : UInt32) : ∃ people : Finset SessionId,
      (∀ u, u ∈ people ↔ w.OnBoardOf hall u) ∧
      (w.getCurrentPeopleNum hall).toNat = people.card := by
  refine ⟨(w.people hall).toFinset, fun u => ?_, ?_⟩
  · rw [List.mem_toFinset]
    exact mem_hallPeople hinv hacc.published
  · rw [(getCurrentPeopleNum_eq hacc.counted hacc.published.known hall).1,
      List.toFinset_card_of_nodup (nodup_hallPeople hinv hacc.published hall)]

/-- It is never above the expected total. -/
theorem hall_bounded {w : World} (hcounted : w.Counted)
    (hmax : ∀ hall, (w.halls hall).chessBoardMaxNum = chessBoardMaxNum)
    (hknown : ∀ {hall id b}, (w.halls hall).chessBoardInfo[id]? = some b →
      b = ⟨hall, id⟩ ∧ id ≠ 0 ∧ id ≤ chessBoardMaxNum) (hall : UInt32) :
    w.getCurrentPeopleNum hall ≤
      (w.halls hall).getExpectedTotalPeopleNum := by
  obtain ⟨hnum, hbound⟩ := getCurrentPeopleNum_eq hcounted hknown hall
  rw [UInt32.le_iff_toNat_le, hnum]
  unfold GameHall.getExpectedTotalPeopleNum
  rw [hmax hall]
  exact hbound

/-- What is right about the counts in a state, whatever the sessions say: a
board counts its taken chairs, which are at most three, and is full when all
of them are taken; a snapshot counts the users it shows; and no hall's total
is above the expected one. -/
structure World.CountsRight (w : World) : Prop where
  taken : ∀ b, (w.boards b).currUserNum.toNat = occupied (w.boards b).seat
  most : ∀ b, (w.boards b).currUserNum ≤ 3
  full : ∀ b, (w.boards b).hasFullUsers = true ↔
    ∀ seat, (w.boards b).seat seat ≠ none
  shown : ∀ b info, wrapChessBoardInfo b w = some info →
    info.peopleNum.toNat = info.users
  bounded : ∀ hall, w.getCurrentPeopleNum hall ≤
    (w.halls hall).getExpectedTotalPeopleNum

/-- In every state the server reaches: the counts are right, and they stay
right however the boards' functions are called from there; every board has a
snapshot, and every one sent so far is right as well; and a hall's total is
the number of live sessions on its boards. -/
theorem people_counts_are_right {env : Env} {w : World}
    (h : (server env).Reachable w) :
    (∀ calls, (w.calls calls).CountsRight) ∧
    (∀ b, ∃ info, wrapChessBoardInfo b w = some info) ∧
    (∀ m ∈ w.sent, m.body.Sound) ∧
    ∀ hall, ∃ people : Finset SessionId,
      (∀ u, u ∈ people ↔ w.OnBoardOf hall u) ∧
      (w.getCurrentPeopleNum hall).toNat = people.card := by
  have hinv := reachable_inv h
  have hacc := reachable_accounted h
  refine ⟨fun calls => ?_, fun b => ?_, hacc.sent, hall_counts_live hinv hacc⟩
  · have hcounted := calls_counted hacc.counted calls
    obtain ⟨_, hhalls, _⟩ := calls_kept w calls
    refine ⟨hcounted, fun b => (hcounted b).hasFullUsers.1,
      fun b => (hcounted b).hasFullUsers.2,
      fun b info hinfo => wrapChessBoardInfo_sound hinfo hcounted,
      hall_bounded hcounted ?_ ?_⟩
    · rw [hhalls]
      exact hacc.published.max
    · rw [hhalls]
      exact hacc.published.known
  · exact wrapChessBoardInfo_completes b hinv.connected

/-- Three clients on board 1: it is full, and not any more when the board is
told to vacate a chair. -/
theorem people_counts_are_right_three :
    ∃ w, (server Client.env).Reachable w ∧
      (w.boards ⟨1, 1⟩).currUserNum = 3 ∧
      (∀ seat, (w.boards ⟨1, 1⟩).seat seat ≠ none) ∧
      (w.calls [(⟨1, 1⟩, .leaveOutRoom locationLeft)]).CountsRight := by
  obtain ⟨w, hreach, ⟨hnum, _⟩, _⟩ := Client.game_of_three
  obtain ⟨hcalls, _⟩ := people_counts_are_right hreach
  have hfull := (hcalls []).full ⟨1, 1⟩
  exact ⟨w, hreach, hnum, hfull.mp (by simp [World.calls,
    ChessBoard.hasFullUsers, hnum]), hcalls _⟩

/-- When the board itself vacates a chair, the session stays on it: hall 1
counts two people, and three are on its boards. -/
theorem vacated_chair_keeps_session :
    ¬ ∀ (w : World) (b : BoardPtr) (locate : Location) (hall : UInt32),
      (server Client.env).Reachable w → ∃ people : Finset SessionId,
        (∀ u, u ∈ people ↔
          (w.calls [(b, .leaveOutRoom locate)]).OnBoardOf hall u) ∧
        ((w.calls [(b, .leaveOutRoom locate)]).getCurrentPeopleNum
          hall).toNat = people.card := by
  intro hclaim
  obtain ⟨w, hreach, ⟨_, hthree, htwo⟩, _⟩ := Client.game_of_three
  obtain ⟨before, hbefore, hnum⟩ := hall_counts_live (reachable_inv hreach)
    (reachable_accounted hreach) 1
  obtain ⟨people, hpeople, hnum'⟩ :=
    hclaim w ⟨1, 1⟩ locationLeft 1 hreach
  have hsame : people = before :=
    Finset.ext fun u => (hpeople u).trans (hbefore u).symm
  rw [hsame, ← hnum, hthree] at hnum'
  have hleft : (w.calls [(⟨1, 1⟩, .leaveOutRoom
      locationLeft)]).getCurrentPeopleNum 1 = 2 := htwo
  rw [hleft] at hnum'
  exact absurd hnum' (by decide)

end ChessServer
