import Mathlib.Data.List.Nodup
import Mathlib.Data.List.Perm.Subperm
import ChessServer.Proofs.Requests
import ChessServer.Server.Lookup

/-!
# Finding or creating a board

A hall has one board for each id that was ever asked for.  The first request
for an id finds it by reading the entry of an iterator that has none
(`board_lookup_iff`).  The halls of the server behave as those that read
`NULL` there (`reachable_lookedUp`).
-/

namespace ChessServer.Lookup

/-- The ids of boards. -/
def Valid (chessBoardMaxNum id : UInt32) : Prop :=
  id ≠ 0 ∧ id ≤ chessBoardMaxNum

/-- Every id in the table is valid, and its board has this id. -/
structure GameHall.Inv (hall : GameHall) : Prop where
  known : ∀ {id : UInt32} {b}, hall.chessBoardInfo[id]? = some b →
    Valid hall.chessBoardMaxNum id ∧ hall.getChessBoardID b = some id

/-- Nothing that a hall knows is lost. -/
structure GameHall.Grows (hall hall' : GameHall) : Prop where
  max : hall'.chessBoardMaxNum = hall.chessBoardMaxNum
  boards : hall.boards <+: hall'.boards
  kept : ∀ {id : UInt32} {b}, hall.chessBoardInfo[id]? = some b →
    hall'.chessBoardInfo[id]? = some b

variable {hall hall' : GameHall} {behind : Option Nat} {id : UInt32}

theorem GameHall.Grows.refl (hall : GameHall) : hall.Grows hall where
  max := rfl
  boards := List.prefix_rfl
  kept := fun h => h

theorem GameHall.Grows.trans {hall'' : GameHall} (h : hall.Grows hall')
    (h' : hall'.Grows hall'') : hall.Grows hall'' where
  max := h'.max.trans h.max
  boards := h.boards.trans h'.boards
  kept := fun hb => h'.kept (h.kept hb)

theorem GameHall.Grows.getChessBoardID (h : hall.Grows hall') {b : Nat}
    (hb : hall.getChessBoardID b = some id) :
    hall'.getChessBoardID b = some id := by
  obtain ⟨new, hnew⟩ := h.boards
  have hlt : b < hall.boards.length := by
    unfold GameHall.getChessBoardID at hb
    exact (List.getElem?_eq_some_iff.mp hb).1
  unfold GameHall.getChessBoardID at hb ⊢
  rw [← hnew, List.getElem?_append_left hlt]
  exact hb

/-! ## One call -/

/-- A hall has at most as many boards as there are ids. -/
theorem GameHall.Inv.size_le (hinv : hall.Inv) :
    hall.chessBoardInfo.size ≤ hall.chessBoardMaxNum.toNat := by
  have hnodup : (hall.chessBoardInfo.keys.map UInt32.toNat).Nodup :=
    Std.TreeMap.nodup_keys.map (f := UInt32.toNat) fun _ _ =>
      UInt32.toNat_inj.mp
  have hsub : hall.chessBoardInfo.keys.map UInt32.toNat ⊆
      (List.range hall.chessBoardMaxNum.toNat).map (· + 1) := by
    intro n hn
    obtain ⟨id, hid, rfl⟩ := List.mem_map.mp hn
    rw [Std.TreeMap.mem_keys, Std.TreeMap.mem_iff_isSome_getElem?,
      Option.isSome_iff_exists] at hid
    obtain ⟨b, hb⟩ := hid
    obtain ⟨⟨hpos, hle⟩, -⟩ := hinv.known hb
    have hpos' : id.toNat ≠ 0 := fun h => hpos (UInt32.toNat_inj.mp h)
    rw [UInt32.le_iff_toNat_le] at hle
    exact List.mem_map.mpr
      ⟨id.toNat - 1, List.mem_range.mpr (by omega), by omega⟩
  have hlen := (hnodup.subperm hsub).length_le
  rw [List.length_map, List.length_map, List.length_range,
    Std.TreeMap.length_keys] at hlen
  exact hlen

/-- An id that no board can have. -/
theorem lookup_invalid (hid : ¬ Valid hall.chessBoardMaxNum id) :
    hall.getChessBoardByID behind id = (none, hall) := by
  unfold GameHall.getChessBoardByID
  rw [if_pos]
  by_contra hno
  rw [not_or] at hno
  exact hid ⟨hno.1, UInt32.not_lt.mp hno.2⟩

theorem valid_range (hid : Valid hall.chessBoardMaxNum id) :
    ¬ (id = 0 ∨ id > hall.chessBoardMaxNum) := by
  rintro (hzero | hgt)
  · exact hid.1 hzero
  · exact absurd hid.2 (UInt32.not_le.mpr hgt)

/-- An id whose board exists. -/
theorem lookup_known {b : Nat} (hid : Valid hall.chessBoardMaxNum id)
    (hknown : hall.chessBoardInfo[id]? = some b) :
    hall.getChessBoardByID behind id = (some b, hall) := by
  unfold GameHall.getChessBoardByID GameHall.find
  rw [if_neg (valid_range hid), hknown]

/-- A valid id without a board, when `NULL` lies behind the map. -/
theorem lookup_new (hinv : hall.Inv) (hid : Valid hall.chessBoardMaxNum id)
    (hnew : hall.chessBoardInfo[id]? = none) :
    hall.getChessBoardByID none id = (some hall.boards.length,
      { hall with
        boards := hall.boards ++ [id]
        chessBoardInfo := hall.chessBoardInfo.insertIfNew id hall.boards.length
        endReads := hall.endReads + 1 }) := by
  have hmem : id ∉ hall.chessBoardInfo := by
    intro hmem
    rw [Std.TreeMap.mem_iff_isSome_getElem?, hnew] at hmem
    cases hmem
  have hfound :
      (hall.chessBoardInfo.insertIfNew id hall.boards.length)[id]? =
        some hall.boards.length := by
    rw [Std.TreeMap.getElem?_insertIfNew,
      if_pos ⟨Std.ReflCmp.compare_self, hmem⟩]
  unfold GameHall.getChessBoardByID GameHall.find GameHall.createChessBoard
    GameHall.getChessValidBoardNum
  rw [if_neg (valid_range hid), hnew]
  dsimp only
  rw [if_neg (Nat.not_lt.mpr hinv.size_le)]
  simp only [if_true, hfound]

/-- A call never makes a hall forget, unless it reads something behind the map
that is not `NULL`. -/
theorem lookup_grows (hinv : hall.Inv)
    (hbehind : Valid hall.chessBoardMaxNum id → behind = none) :
    (hall.getChessBoardByID behind id).2.Inv ∧
      hall.Grows (hall.getChessBoardByID behind id).2 ∧
      (Valid hall.chessBoardMaxNum id →
        ∃ b, (hall.getChessBoardByID behind id).1 = some b ∧
          (hall.getChessBoardByID behind id).2.chessBoardInfo[id]? =
            some b) := by
  by_cases hid : Valid hall.chessBoardMaxNum id
  · rw [hbehind hid]
    cases hknown : hall.chessBoardInfo[id]? with
    | some b =>
        rw [lookup_known hid hknown]
        exact ⟨hinv, GameHall.Grows.refl hall, fun _ => ⟨b, rfl, hknown⟩⟩
    | none =>
        rw [lookup_new hinv hid hknown]
        have hget : ∀ i, (hall.chessBoardInfo.insertIfNew id
            hall.boards.length)[i]? =
              if id = i then some hall.boards.length
              else hall.chessBoardInfo[i]? := by
          intro i
          rw [Std.TreeMap.getElem?_insertIfNew]
          by_cases hi : id = i
          · subst hi
            have hmem : id ∉ hall.chessBoardInfo := by
              intro hmem
              rw [Std.TreeMap.mem_iff_isSome_getElem?, hknown] at hmem
              cases hmem
            rw [if_pos rfl, if_pos ⟨Std.ReflCmp.compare_self, hmem⟩]
          · rw [if_neg hi, if_neg]
            rintro ⟨hsame, -⟩
            exact hi (Std.LawfulEqCmp.eq_of_compare hsame)
        have hgrows : hall.Grows { hall with
            boards := hall.boards ++ [id]
            chessBoardInfo :=
              hall.chessBoardInfo.insertIfNew id hall.boards.length
            endReads := hall.endReads + 1 } := by
          refine ⟨rfl, List.prefix_append _ _, fun {i b} hb => ?_⟩
          rw [hget, if_neg]
          · exact hb
          · rintro rfl
            rw [hknown] at hb
            cases hb
        refine ⟨⟨fun {i b} hb => ?_⟩, hgrows,
          fun _ => ⟨_, rfl, (hget id).trans (if_pos rfl)⟩⟩
        have hb' := (hget i).symm.trans hb
        split at hb'
        · rename_i hi
          subst hi
          cases hb'
          refine ⟨hid, ?_⟩
          unfold GameHall.getChessBoardID
          rw [List.getElem?_append_right (Nat.le_refl _), Nat.sub_self]
          rfl
        · obtain ⟨hvalid, hboard⟩ := hinv.known hb'
          exact ⟨hvalid, hgrows.getChessBoardID hboard⟩
  · rw [lookup_invalid hid]
    exact ⟨hinv, GameHall.Grows.refl hall, fun h => absurd h hid⟩

/-! ## All calls -/

variable {chessBoardMaxNum : UInt32} {calls : Nat → Call} {n : Nat}

/-- Where there is no entry for a valid id, `NULL` is read. -/
def NullBehind (chessBoardMaxNum : UInt32) (calls : Nat → Call) (n : Nat) :
    Prop :=
  ∀ i < n, Valid chessBoardMaxNum (calls i).id → (calls i).behind = none

theorem hallAfter_inv (hnull : NullBehind chessBoardMaxNum calls n) {i : Nat}
    (hi : i ≤ n) :
    (hallAfter chessBoardMaxNum calls i).Inv ∧
      (hallAfter chessBoardMaxNum calls i).chessBoardMaxNum =
        chessBoardMaxNum := by
  induction i with
  | zero =>
      refine ⟨⟨fun {id b} hb => ?_⟩, rfl⟩
      have hempty : (none : Option Nat) = some b := by
        rw [← hb]
        exact Std.TreeMap.getElem?_emptyc.symm
      cases hempty
  | succ i ih =>
      obtain ⟨hinv, hmax⟩ := ih (by omega)
      have hbehind := hnull i (by omega)
      rw [← hmax] at hbehind
      obtain ⟨hinv', hgrows, -⟩ := lookup_grows hinv hbehind
      exact ⟨hinv', hgrows.max.trans hmax⟩

theorem hallAfter_grows (hnull : NullBehind chessBoardMaxNum calls n)
    {i j : Nat} (hij : i ≤ j) (hj : j ≤ n) :
    (hallAfter chessBoardMaxNum calls i).Grows
      (hallAfter chessBoardMaxNum calls j) := by
  induction j, hij using Nat.le_induction with
  | base => exact GameHall.Grows.refl _
  | succ j _ ih =>
      obtain ⟨hinv, hmax⟩ := hallAfter_inv hnull (show j ≤ n by omega)
      have hbehind := hnull j (by omega)
      rw [← hmax] at hbehind
      obtain ⟨-, hgrows, -⟩ := lookup_grows hinv hbehind
      exact (ih (by omega)).trans hgrows

/-- What the calls of a hall return and what they leave. -/
structure FindOrCreate (chessBoardMaxNum : UInt32) (calls : Nat → Call)
    (n : Nat) : Prop where
  /-- a valid id yields a board with this id -/
  yields : ∀ i < n, Valid chessBoardMaxNum (calls i).id →
    ∃ b, returned chessBoardMaxNum calls i = some b ∧
      (hallAfter chessBoardMaxNum calls (i + 1)).getChessBoardID b =
        some (calls i).id
  /-- the same board on every call, and different boards for different ids -/
  same : ∀ i < n, ∀ j < n, Valid chessBoardMaxNum (calls i).id →
    Valid chessBoardMaxNum (calls j).id →
    (returned chessBoardMaxNum calls i = returned chessBoardMaxNum calls j ↔
      (calls i).id = (calls j).id)
  /-- no board is replaced or lost -/
  kept : ∀ i j, i ≤ j → j ≤ n → ∀ (id : UInt32) b,
    (hallAfter chessBoardMaxNum calls i).chessBoardInfo[id]? = some b →
    (hallAfter chessBoardMaxNum calls j).chessBoardInfo[id]? = some b ∧
      (hallAfter chessBoardMaxNum calls j).getChessBoardID b = some id
  bound : ∀ i ≤ n, (hallAfter chessBoardMaxNum calls i).getChessValidBoardNum ≤
    chessBoardMaxNum.toNat
  /-- any other id yields `NULL` and leaves the hall as it is -/
  other : ∀ i < n, ¬ Valid chessBoardMaxNum (calls i).id →
    returned chessBoardMaxNum calls i = none ∧
      hallAfter chessBoardMaxNum calls (i + 1) =
        hallAfter chessBoardMaxNum calls i

/-- The board that a call returns stays in the table. -/
theorem returned_kept (hnull : NullBehind chessBoardMaxNum calls n) {i : Nat}
    (hi : i < n) (hid : Valid chessBoardMaxNum (calls i).id) :
    ∃ b, returned chessBoardMaxNum calls i = some b ∧
      ∀ j, i < j → j ≤ n →
        (hallAfter chessBoardMaxNum calls j).chessBoardInfo[(calls i).id]? =
          some b := by
  obtain ⟨hinv, hmax⟩ := hallAfter_inv hnull (Nat.le_of_lt hi)
  have hbehind := hnull i hi
  rw [← hmax] at hbehind hid
  obtain ⟨-, -, hfound⟩ := lookup_grows hinv hbehind
  obtain ⟨b, hreturned, hget⟩ := hfound hid
  refine ⟨b, hreturned, fun j hij hj => ?_⟩
  exact (hallAfter_grows hnull (show i + 1 ≤ j by omega) hj).kept hget

/-- A hall finds or creates, as long as it reads `NULL` where there is no
entry. -/
theorem findOrCreate (hnull : NullBehind chessBoardMaxNum calls n) :
    FindOrCreate chessBoardMaxNum calls n where
  yields := by
    intro i hi hid
    obtain ⟨b, hreturned, hkept⟩ := returned_kept hnull hi hid
    obtain ⟨hinv, -⟩ := hallAfter_inv hnull (show i + 1 ≤ n by omega)
    exact ⟨b, hreturned, (hinv.known (hkept (i + 1) (by omega) hi)).2⟩
  same := by
    intro i hi j hj hid hid'
    obtain ⟨b, hb, hkept⟩ := returned_kept hnull hi hid
    obtain ⟨b', hb', hkept'⟩ := returned_kept hnull hj hid'
    obtain ⟨hinv, -⟩ := hallAfter_inv hnull (Nat.le_refl n)
    have hlast := hkept n hi (Nat.le_refl n)
    have hlast' := hkept' n hj (Nat.le_refl n)
    rw [hb, hb', Option.some.injEq]
    constructor
    · rintro rfl
      have hboard := (hinv.known hlast).2
      rw [(hinv.known hlast').2, Option.some.injEq] at hboard
      exact hboard.symm
    · intro heq
      rw [heq, hlast', Option.some.injEq] at hlast
      exact hlast.symm
  kept := by
    intro i j hij hj id b hb
    have hb' := (hallAfter_grows hnull hij hj).kept hb
    obtain ⟨hinv, -⟩ := hallAfter_inv hnull hj
    exact ⟨hb', (hinv.known hb').2⟩
  bound := by
    intro i hi
    obtain ⟨hinv, hmax⟩ := hallAfter_inv hnull hi
    have hsize := hinv.size_le
    rw [hmax] at hsize
    exact hsize
  other := by
    intro i hi hid
    obtain ⟨-, hmax⟩ := hallAfter_inv hnull (Nat.le_of_lt hi)
    rw [← hmax] at hid
    unfold returned
    rw [hallAfter, lookup_invalid hid]
    exact ⟨rfl, rfl⟩

/-- No entry was read that is not in the map. -/
def NoEndRead (chessBoardMaxNum : UInt32) (calls : Nat → Call) (n : Nat) :
    Prop :=
  ∀ i ≤ n, (hallAfter chessBoardMaxNum calls i).endReads = 0

/-- Without a valid id nothing happens. -/
theorem hallAfter_idle
    (hid : ∀ i < n, ¬ Valid chessBoardMaxNum (calls i).id) {i : Nat}
    (hi : i ≤ n) :
    hallAfter chessBoardMaxNum calls i = { chessBoardMaxNum } := by
  induction i with
  | zero => rfl
  | succ i ih =>
      rw [hallAfter, ih (by omega)]
      have hinvalid : ¬ Valid ({ chessBoardMaxNum } : GameHall).chessBoardMaxNum
          (calls i).id := hid i (by omega)
      rw [lookup_invalid hinvalid]

/-- The first valid id is looked up in an empty map. -/
theorem valid_endReads {i : Nat} (hfirst : ∀ j < i,
    ¬ Valid chessBoardMaxNum (calls j).id)
    (hid : Valid chessBoardMaxNum (calls i).id) :
    (hallAfter chessBoardMaxNum calls (i + 1)).endReads ≠ 0 := by
  rw [hallAfter, hallAfter_idle hfirst (Nat.le_refl i)]
  have hrange : ¬ ((calls i).id = 0 ∨
      (calls i).id > ({ chessBoardMaxNum } : GameHall).chessBoardMaxNum) :=
    valid_range hid
  have hempty :
      ({ chessBoardMaxNum } : GameHall).chessBoardInfo[(calls i).id]? = none :=
    Std.TreeMap.getElem?_emptyc
  unfold GameHall.getChessBoardByID GameHall.find
  rw [if_neg hrange, hempty]
  dsimp only
  cases (calls i).behind with
  | some b => exact Nat.one_ne_zero
  | none =>
      dsimp only
      unfold GameHall.createChessBoard
      split
      · exact Nat.one_ne_zero
      · dsimp only
        rw [if_pos rfl]
        split
        · exact Nat.one_ne_zero
        · exact Nat.succ_ne_zero _

theorem invalid_of_noEndRead (hread : NoEndRead chessBoardMaxNum calls n) :
    ∀ i < n, ¬ Valid chessBoardMaxNum (calls i).id := by
  intro i
  induction i using Nat.strongRecOn with
  | ind i ih =>
      intro hi hid
      have hfirst : ∀ j < i, ¬ Valid chessBoardMaxNum (calls j).id :=
        fun j hj => ih j hj (hj.trans hi)
      exact valid_endReads hfirst hid (hread (i + 1) hi)

/-- In every sequence of calls, the hall finds or creates without reading an
entry that is not there if and only if no valid id is looked up.  With `NULL`
in the place of such an entry, it still finds or creates in every sequence. -/
theorem board_lookup_iff (chessBoardMaxNum : UInt32) (calls : Nat → Call)
    (n : Nat) :
    (FindOrCreate chessBoardMaxNum calls n ∧
        NoEndRead chessBoardMaxNum calls n ↔
      ∀ i < n, ¬ Valid chessBoardMaxNum (calls i).id) ∧
      (NullBehind chessBoardMaxNum calls n →
        FindOrCreate chessBoardMaxNum calls n) := by
  constructor
  · constructor
    · intro h
      exact invalid_of_noEndRead h.2
    · intro hid
      constructor
      · exact findOrCreate fun i hi hvalid => absurd hvalid (hid i hi)
      · intro i hi
        rw [hallAfter_idle hid hi]
  · exact findOrCreate

/-- The first lookup of a hall of 60 boards. -/
theorem first_lookup_reads_end :
    ¬ ∀ (chessBoardMaxNum : UInt32) (calls : Nat → Call) (n : Nat),
      FindOrCreate chessBoardMaxNum calls n ∧
        NoEndRead chessBoardMaxNum calls n := by
  intro hclaim
  obtain ⟨-, hread⟩ := hclaim 60 (fun _ => { id := 1 }) 1
  exact invalid_of_noEndRead hread 0 (by decide) ⟨by decide, by decide⟩

/-! ## The boards of the server -/

/-- A hall of the server has boards for the same ids. -/
structure Mirrors (h : UInt32) (hall : GameHall)
    (gameHall : ChessServer.GameHall) : Prop where
  max : gameHall.chessBoardMaxNum = hall.chessBoardMaxNum
  size : gameHall.chessBoardInfo.size = hall.chessBoardInfo.size
  entry : ∀ i : UInt32, gameHall.chessBoardInfo[i]? =
    (hall.chessBoardInfo[i]?).map fun _ => ⟨h, i⟩

/-- A board that the server publishes is the one that a lookup creates. -/
theorem publish_mirrors {w : World} {h : UInt32}
    (hmirror : Mirrors h hall (w.halls h)) (hinv : hall.Inv)
    (hid : Valid hall.chessBoardMaxNum id) :
    Mirrors h (hall.getChessBoardByID none id).2
      ((w.createChessBoard h id).2.halls h) := by
  have hsize : ¬ (w.halls h).getChessValidBoardNum >
      (w.halls h).chessBoardMaxNum.toNat := by
    unfold ChessServer.GameHall.getChessValidBoardNum
    rw [hmirror.max, hmirror.size]
    exact Nat.not_lt.mpr hinv.size_le
  have hentry := hmirror.entry id
  unfold World.createChessBoard
  dsimp only
  rw [if_neg hsize]
  simp only [Function.update_self]
  cases hknown : hall.chessBoardInfo[id]? with
  | some b =>
      rw [hknown] at hentry
      have hmem : id ∈ (w.halls h).chessBoardInfo := by
        rw [Std.TreeMap.mem_iff_isSome_getElem?, hentry]
        rfl
      have hold : ∀ i : UInt32, ((w.halls h).chessBoardInfo.insertIfNew id
          ⟨h, id⟩)[i]? = (w.halls h).chessBoardInfo[i]? := by
        intro i
        rw [Std.TreeMap.getElem?_insertIfNew, if_neg]
        rintro ⟨-, hnew⟩
        exact hnew hmem
      rw [lookup_known hid hknown]
      refine ⟨hmirror.max, ?_, fun i => ?_⟩
      · rw [Std.TreeMap.size_insertIfNew, if_pos hmem]
        exact hmirror.size
      · rw [hold]
        exact hmirror.entry i
  | none =>
      rw [hknown] at hentry
      have hnew : id ∉ hall.chessBoardInfo := by
        rw [Std.TreeMap.mem_iff_isSome_getElem?, hknown]
        exact Bool.false_ne_true
      have hnew' : id ∉ (w.halls h).chessBoardInfo := by
        rw [Std.TreeMap.mem_iff_isSome_getElem?, hentry]
        exact Bool.false_ne_true
      rw [lookup_new hinv hid hknown]
      refine ⟨hmirror.max, ?_, fun i => ?_⟩
      · rw [Std.TreeMap.size_insertIfNew, Std.TreeMap.size_insertIfNew,
          if_neg hnew, if_neg hnew', hmirror.size]
      · rw [Std.TreeMap.getElem?_insertIfNew,
          Std.TreeMap.getElem?_insertIfNew]
        by_cases hi : id = i
        · subst hi
          rw [if_pos ⟨Std.ReflCmp.compare_self, hnew'⟩,
            if_pos ⟨Std.ReflCmp.compare_self, hnew⟩]
          rfl
        · rw [if_neg, if_neg, hmirror.entry i]
          · rintro ⟨hsame, -⟩
            exact hi (Std.LawfulEqCmp.eq_of_compare hsame)
          · rintro ⟨hsame, -⟩
            exact hi (Std.LawfulEqCmp.eq_of_compare hsame)

theorem one_le_iff : 1 ≤ id ↔ id ≠ 0 := by
  rw [UInt32.le_iff_toNat_le, Ne, ← UInt32.toNat_inj]
  show 1 ≤ id.toNat ↔ ¬ id.toNat = 0
  omega

/-- The server's lookup finds what this one finds with `NULL` behind the
map. -/
theorem lookup_mirrors {w : World} {h : UInt32}
    (hw : w.Published) (hmirror : Mirrors h hall (w.halls h))
    (hinv : hall.Inv) :
    (w.getChessBoardByID h id).1 =
      (hall.getChessBoardByID none id).1.map fun _ => ⟨h, id⟩ := by
  have hmax : hall.chessBoardMaxNum = ChessServer.chessBoardMaxNum :=
    hmirror.max.symm.trans (hw.max h)
  by_cases hid : Valid hall.chessBoardMaxNum id
  · obtain ⟨-, -, hfound⟩ := @lookup_grows hall none id hinv fun _ => rfl
    obtain ⟨b, hb, -⟩ := hfound hid
    obtain ⟨hpos, hle⟩ := hid
    rw [hb, getChessBoardByID_some hw (one_le_iff.mpr hpos) (hmax ▸ hle)]
    rfl
  · have hno : ¬ (1 ≤ id ∧ id ≤ ChessServer.chessBoardMaxNum) := by
      rintro ⟨hpos, hle⟩
      exact hid ⟨one_le_iff.mp hpos, hmax ▸ hle⟩
    rw [lookup_invalid hid, getChessBoardByID_none hw hno]
    rfl

/-- The hall depends on the calls so far only. -/
theorem hallAfter_congr {calls' : Nat → Call}
    (h : ∀ i < n, calls i = calls' i) :
    hallAfter chessBoardMaxNum calls n =
      hallAfter chessBoardMaxNum calls' n := by
  induction n with
  | zero => rfl
  | succ n ih =>
      rw [hallAfter, hallAfter, ih fun i hi => h i (by omega), h n (by omega)]

/-- The hall has been made by lookups that read `NULL` behind the map. -/
def LookedUp (h : UInt32) (w : World) : Prop :=
  ∃ calls n, NullBehind ChessServer.chessBoardMaxNum calls n ∧
    Mirrors h (hallAfter ChessServer.chessBoardMaxNum calls n) (w.halls h)

/-- One more lookup makes the board that is published. -/
theorem LookedUp.publish {w : World} {h : UInt32} (hlooked : LookedUp h w)
    (hid : id ≠ 0) (hmax : id ≤ (w.halls h).chessBoardMaxNum) :
    LookedUp h (w.createChessBoard h id).2 := by
  obtain ⟨calls, n, hnull, hmirror⟩ := hlooked
  obtain ⟨hinv, -⟩ := hallAfter_inv hnull (Nat.le_refl n)
  have hagree : ∀ i < n, calls i = Function.update calls n { id } i := by
    intro i hi
    rw [Function.update_of_ne (Nat.ne_of_lt hi)]
  refine ⟨Function.update calls n { id }, n + 1, fun i hi hvalid => ?_, ?_⟩
  · by_cases hin : i = n
    · subst hin
      rw [Function.update_self]
    · have hlt : i < n := by omega
      rw [← hagree i hlt] at hvalid ⊢
      exact hnull i hlt hvalid
  · rw [hallAfter, ← hallAfter_congr hagree, Function.update_self]
    exact publish_mirrors hmirror hinv ⟨hid, hmirror.max ▸ hmax⟩

theorem Change.lookedUp {u : SessionId} {w w' : World} {h : UInt32}
    (hlooked : LookedUp h w) (hchange : Change u w w') : LookedUp h w' := by
  cases hchange with
  | buffer v size =>
      have hsame : (w.getBuffer v size).halls = w.halls := by
        unfold World.getBuffer
        split
        · rfl
        · split
          · rfl
          · rfl
      unfold LookedUp
      rw [hsame]
      exact hlooked
  | @publish hall id hhall hid hmax =>
      by_cases hh : h = hall
      · subst hh
        exact hlooked.publish hid hmax
      · have hsame : (w.createChessBoard hall id).2.halls h = w.halls h := by
          unfold World.createChessBoard
          dsimp only
          split
          · rfl
          · exact Function.update_of_ne hh _ _
        unfold LookedUp
        rw [hsame]
        exact hlooked
  | _ => exact hlooked

/-- In every state that the server reaches, each of its halls is what lookups
with `NULL` behind the map make of an empty one, and so is what the next
lookup finds. -/
theorem reachable_lookedUp {env : Env} {ok : Event → World → Prop}
    {w : World} (hreach : (server env).ReachableWith ok w) (h : UInt32) :
    ∃ calls n, FindOrCreate ChessServer.chessBoardMaxNum calls n ∧
      Mirrors h (hallAfter ChessServer.chessBoardMaxNum calls n)
        (w.halls h) ∧
      ∀ id, (w.getChessBoardByID h id).1 =
        ((hallAfter ChessServer.chessBoardMaxNum calls n).getChessBoardByID
          none id).1.map fun _ => ⟨h, id⟩ := by
  have hlooked : LookedUp h w := by
    have hempty : Mirrors h
        (hallAfter ChessServer.chessBoardMaxNum (fun _ => { id := 0 }) 0)
        (World.init.halls h) := by
      refine ⟨rfl, rfl, fun id => ?_⟩
      show (∅ : Std.TreeMap UInt32 BoardPtr)[id]? =
        ((∅ : Std.TreeMap UInt32 Nat)[id]?).map _
      rw [Std.TreeMap.getElem?_emptyc, Std.TreeMap.getElem?_emptyc]
      rfl
    refine hreach.invariant_of (J := fun w => w.layout.Inv) reachable_inv
      ⟨_, 0, nofun, hempty⟩ ?_
    intro e a b hinv hlooked henabled _ hstep
    obtain ⟨u, hchanges⟩ := step_changes hinv henabled hstep
    exact hchanges.invariant Change.lookedUp hlooked
  obtain ⟨calls, n, hnull, hmirror⟩ := hlooked
  obtain ⟨hinv, -⟩ := hallAfter_inv hnull (Nat.le_refl n)
  exact ⟨calls, n, findOrCreate hnull, hmirror, fun id =>
    lookup_mirrors (reachable_accounted hreach).published hmirror hinv⟩

end ChessServer.Lookup
