import ChessServer.Model.Chairs
import ChessServer.Proofs.Completes

/-!
# Leaving a board for good

`LeaveRoomHandle` completes, and the statements it sends to the database are
the leaver's penalty and the last winner's reward
(`leaveRoomHandle_completes`).  So it is at the end of a connection
(`closingClientCon_hangs`).
-/

namespace ChessServer

/-! ## The sole player -/

/-- The sole player, if there is one, is PLAYING. -/
theorem Table.sole_eq_some {t : Table} {seat : Seat} (h : t.sole = some seat) :
    t.active = 1 ∧ t.isPlaying seat = true := by
  unfold sole at h
  rw [active_eq]
  cases hleft : t.isPlaying .left <;> cases hright : t.isPlaying .right <;>
    cases hbottom : t.isPlaying .bottom <;> simp_all [List.filter]

/-- Otherwise not exactly one user is. -/
theorem Table.sole_eq_none {t : Table} (h : t.sole = none) :
    t.active ≠ 1 := by
  unfold sole at h
  rw [active_eq]
  cases hleft : t.isPlaying .left <;> cases hright : t.isPlaying .right <;>
    cases hbottom : t.isPlaying .bottom <;> simp_all [List.filter]

/-- The statement that rewards the sole player of a board. -/
def World.winnerSql (w : World) (b : BoardPtr) (sole : Option Seat) :
    List Bytes :=
  match sole.bind fun seat => (w.boards b).seat seat >>= w.users with
  | some s => [updateScoreSql s.userInfo.account (s.userInfo.score + 10)]
  | none => []

/-! ## Steps that cannot fail -/

/-- A status can be read off every chair. -/
theorem seatStatus_completes {w : World} {b : BoardPtr}
    (hc : w.layout.Connected) (seat : Seat) (test : UserGameStatus → Bool) :
    w.seatStatus ((w.boards b).seat seat) test =
      some ((w.table b).passes test seat) := by
  obtain ⟨r, hr⟩ : ∃ r, w.seatStatus ((w.boards b).seat seat) test = some r := by
    cases hu : (w.boards b).seat seat with
    | none => exact ⟨_, rfl⟩
    | some u =>
        obtain ⟨p, hp, _⟩ := hc.seated (b := b) hu
        obtain ⟨s, hs, _⟩ := place_session hp
        simp only [World.seatStatus, hs]
        exact ⟨_, rfl⟩
  rw [hr, seatStatus_eq _ hr]

/-- The users PLAYING can be counted. -/
theorem getActiveUsersNum_completes {w : World} {b : BoardPtr}
    (hc : w.layout.Connected) :
    getActiveUsersNum b w = some (w.table b).active := by
  have hl := seatStatus_completes (b := b) hc .left (· == .playing)
  have hr := seatStatus_completes (b := b) hc .right (· == .playing)
  have hb := seatStatus_completes (b := b) hc .bottom (· == .playing)
  simp only [ChessBoard.seat] at hl hr hb
  simp only [getActiveUsersNum, World.countSeats, hl, hr, hb,
    Option.bind_eq_bind, Option.bind_some]
  rfl

/-- The only active user is the one on the sole player's chair. -/
theorem getOnlyActiveUser_completes {w : World} {b : BoardPtr} {seat : Seat}
    (hc : w.layout.Connected) (hone : (w.table b).active = 1)
    (hplaying : (w.table b).isPlaying seat = true) :
    getOnlyActiveUser b w = some ((w.boards b).seat seat) := by
  have hl := seatStatus_completes (b := b) hc .left (· == .playing)
  have hr := seatStatus_completes (b := b) hc .right (· == .playing)
  have hb := seatStatus_completes (b := b) hc .bottom (· == .playing)
  simp only [ChessBoard.seat] at hl hr hb
  simp only [getOnlyActiveUser, hl, hr, hb, Option.bind_eq_bind,
    Option.bind_some]
  have hsum : ((w.table b).passes (· == .playing) .left).toNat +
      ((w.table b).passes (· == .playing) .right).toNat +
      ((w.table b).passes (· == .playing) .bottom).toNat = 1 := hone
  have hnot : ∀ seat', seat' ≠ seat →
      (w.table b).passes (· == .playing) seat' = false := by
    intro seat' hne
    by_contra hplaying'
    exact hne (Table.isPlaying_unique hone
      (by simpa [Table.isPlaying] using hplaying') hplaying)
  rw [if_pos hsum]
  unfold Table.isPlaying at hplaying
  cases seat with
  | left =>
      simp [hplaying, hnot .right (by simp), hnot .bottom (by simp),
        ChessBoard.seat]
  | right => simp [hplaying, hnot .bottom (by simp), ChessBoard.seat]
  | bottom => simp [hplaying, ChessBoard.seat]

theorem modifyUser_completes {w : World} {u : SessionId} {p : Place}
    (hp : w.layout.place u = some p) (f : UserSession → UserSession) :
    ∃ w', w.modifyUser u f = some w' := by
  obtain ⟨s, hs, _⟩ := place_session hp
  exact ⟨_, modifyUser_eq hs f⟩

/-- Assigning a status changes the session's status alone. -/
theorem setStatus_sqlLog {w w' : World} {u : SessionId}
    {status : UserGameStatus}
    (h : (w.modifyUser u fun s => { s with status := status }) = some w') :
    w'.sqlLog = w.sqlLog := by
  simp only [World.modifyUser, Option.map_eq_some_iff] at h
  obtain ⟨s, _, rfl⟩ := h
  rfl

/-- A status can be assigned on every chair, without a statement. -/
theorem setSeatStatus_completes {w : World} (b : BoardPtr) (seat : Seat)
    (status : UserGameStatus) (hc : w.layout.Connected)
    (hdistinct : w.layout.Distinct) :
    ∃ w', w.setSeatStatus ((w.boards b).seat seat) status = some w' ∧
      w'.layout = w.layout ∧ (w'.boards b).seat = (w.boards b).seat ∧
      w'.sqlLog = w.sqlLog := by
  cases hu : (w.boards b).seat seat with
  | none => exact ⟨w, rfl, rfl, rfl, rfl⟩
  | some u =>
      obtain ⟨p, hp, _⟩ := hc.seated (b := b) hu
      obtain ⟨w', h⟩ := modifyUser_completes hp
        fun s => { s with status := status }
      have q := setStatus_plays _ hdistinct hu h
      exact ⟨w', h, q.layout, q.seats b, setStatus_sqlLog h⟩

/-- The game can be ended for all. -/
theorem endAllUsers_completes {w : World} {b : BoardPtr}
    (hc : w.layout.Connected) (hdistinct : w.layout.Distinct) :
    ∃ w', endAllUsers b w = some w' ∧ w'.layout = w.layout ∧
      w'.sqlLog = w.sqlLog := by
  obtain ⟨w₁, h₁, hl₁, hs₁, hq₁⟩ := setSeatStatus_completes b .left .ended
    hc hdistinct
  obtain ⟨w₂, h₂, hl₂, hs₂, hq₂⟩ := setSeatStatus_completes b .right .ended
    (hl₁ ▸ hc) (hl₁ ▸ hdistinct)
  have hl := hl₂.trans hl₁
  obtain ⟨w₃, h₃, hl₃, hs₃, hq₃⟩ := setSeatStatus_completes b .bottom
    .ended (hl ▸ hc) (hl ▸ hdistinct)
  simp only [ChessBoard.seat] at h₁ h₂ h₃
  refine ⟨w₃, ?_, hl₃.trans hl, hq₃.trans (hq₂.trans hq₁)⟩
  simp only [endAllUsers, h₁, h₂, h₃, Option.bind_eq_bind, Option.bind_some]

/-! ## The last winner -/

/-- Points are added with one statement. -/
theorem increaseScore_completes (env : Env) {w : World} {u : SessionId}
    {s : UserSession} (score : UInt32) (hs : w.users u = some s)
    (hthread : s.thread.isSome) :
    ∃ w', increaseScore env u score w = some w' ∧
      w'.sqlLog = updateScoreSql s.userInfo.account
        (s.userInfo.score + score) :: w.sqlLog := by
  obtain ⟨t, ht⟩ := Option.isSome_iff_exists.mp hthread
  simp only [increaseScore, hs, ht, Option.bind_eq_bind, Option.bind_some]
  exact ⟨_, rfl, rfl⟩

/-- And taken with one. -/
theorem reduceScore_completes {env : Env} {w : World} {u : SessionId}
    {s : UserSession} {score : UInt32} (hs : w.users u = some s)
    (hthread : s.thread.isSome) :
    ∃ w', reduceScore env u score w = some w' ∧
      w'.sqlLog = updateScoreSql s.userInfo.account
        (s.userInfo.score - score) :: w.sqlLog ∧
      ∀ v, v ≠ u → w'.users v = w.users v := by
  obtain ⟨t, ht⟩ := Option.isSome_iff_exists.mp hthread
  simp only [reduceScore, hs, ht, Option.bind_eq_bind, Option.bind_some]
  refine ⟨_, rfl, rfl, fun v hv => ?_⟩
  simp [updateUserScoreToDB, World.mysqlDbExcute, World.query, World.setUser,
    hv]

/-- The reward of the last player left, if there is one. -/
theorem lastWinner_completes (env : Env) {b : BoardPtr} {u : SessionId}
    {p : Place} {w : World} (hc : w.layout.Connected)
    (hdistinct : w.layout.Distinct) (hp : w.layout.place u = some p)
    (hstate : p.stateMachine.isSome) :
    ∃ u' w', lastWinner env b u w = some (u', w') ∧
      (∃ q, w'.layout.place u' = some q ∧ q.stateMachine.isSome) ∧
      w'.sqlLog = w.winnerSql b (w.table b).sole ++ w.sqlLog := by
  simp only [lastWinner, getActiveUsersNum_completes hc, Option.bind_eq_bind,
    Option.bind_some]
  cases hsole : (w.table b).sole with
  | none =>
      rw [if_neg (Table.sole_eq_none hsole)]
      exact ⟨u, w, rfl, ⟨p, hp, hstate⟩, rfl⟩
  | some seat =>
      obtain ⟨hone, hplaying⟩ := Table.sole_eq_some hsole
      rw [if_pos hone, getOnlyActiveUser_completes hc hone hplaying]
      cases hseat : (w.boards b).seat seat with
      | none =>
          obtain ⟨q, hq, _⟩ := Table.isPlaying_iff.mp hplaying
          simp [World.table, hseat] at hq
      | some v =>
          obtain ⟨q, hq, honline, hstate'⟩ := hc.seated (b := b) hseat
          obtain ⟨s, hs, rfl⟩ := place_session hq
          rw [table_isPlaying hseat hs] at hplaying
          have hplay : s.status = .playing := by simpa using hplaying
          obtain ⟨w₁, h₁, hsql⟩ := increaseScore_completes env 10 hs
            honline.thread
          have p₁ := increaseScore_plays hdistinct hseat h₁
          obtain ⟨w₂, h₂⟩ := modifyUser_completes (p₁.layout ▸ hq)
            fun s => { s with status := .ended }
          have p₂ := setStatus_plays _ (p₁.distinct hdistinct)
            (by rwa [p₁.seats]) h₂
          refine ⟨v, w₂, by simp [hs, hplay, h₁, h₂], ⟨s.place, ?_, hstate'⟩, ?_⟩
          · rw [p₂.layout, p₁.layout, hq]
          · rw [setStatus_sqlLog h₂, hsql]
            simp [World.winnerSql, hseat, hs]

/-! ## LeaveRoomHandle -/

/-- The statement that takes the points of a game given up. -/
def UserSession.penaltySql (s : UserSession) : List Bytes :=
  if s.status = .playing then
    [updateScoreSql s.userInfo.account (s.userInfo.score - 30)]
  else []

/-- What `LeaveRoomHandle` leaves of the session that leaves. -/
def UserSession.infoAfter (s : UserSession) : UsersInfo :=
  if s.status = .playing then
    { s.userInfo with score := s.userInfo.score - 30 }
  else s.userInfo

/-- Session `u`, which was `s`, left its chair on board `b` for good. -/
structure Departs (b : BoardPtr) (seat : Seat) (u : SessionId)
    (s : UserSession) (w w' : World) : Prop where
  leaves : Leaves b seat w w' ((w.table b).leave seat)
  sqlLog : w'.sqlLog =
    w.winnerSql b ((w.table b).vacate seat).sole ++ (s.penaltySql ++ w.sqlLog)
  leaver : ∃ s', w'.users u = some s' ∧ s'.userInfo = s.infoAfter

/-- The penalty of who leaves a running game. -/
theorem leavePenalty_completes (env : Env) {w : World} {u : SessionId}
    {s : UserSession} (hs : w.users u = some s) (hthread : s.thread.isSome) :
    ∃ w', leavePenalty env u (s.status == .playing) w = some w' ∧
      w'.sqlLog = s.penaltySql ++ w.sqlLog ∧
      (∀ v, v ≠ u → w'.users v = w.users v) ∧ w'.boards = w.boards ∧
      w'.users u = some { s with userInfo := s.infoAfter } := by
  obtain ⟨t, ht⟩ := Option.isSome_iff_exists.mp hthread
  unfold leavePenalty UserSession.penaltySql UserSession.infoAfter
  by_cases hplay : s.status = .playing
  · simp only [hplay, beq_self_eq_true, if_true, reduceScore, hs, ht,
      Option.bind_eq_bind, Option.bind_some]
    refine ⟨_, rfl, rfl, fun v hv => ?_, rfl, ?_⟩
    · simp [updateUserScoreToDB, World.mysqlDbExcute, World.query,
        World.setUser, hv]
    · simp [updateUserScoreToDB, World.mysqlDbExcute, World.query,
        World.setUser]
  · rw [if_neg (by simpa using hplay), if_neg hplay, if_neg hplay]
    exact ⟨w, rfl, rfl, fun _ _ => rfl, rfl, hs⟩

theorem Layout.Connected.vacate {l : Layout} (hl : l.Connected) (b : BoardPtr)
    (seat : Seat) : (l.vacate b seat).Connected where
  registered := hl.registered
  seated := by
    intro c seat' v hv
    by_cases hc : c = b
    · subst hc
      rw [Layout.vacate, Layout.setSeat_self] at hv
      by_cases hs : seat' = seat
      · subst hs
        simp at hv
      · rw [Function.update_of_ne hs] at hv
        exact hl.seated hv
    · rw [Layout.vacate, Layout.setSeat_other hc] at hv
      exact hl.seated hv

/-- Nobody sits on a chair that was vacated. -/
theorem Table.vacate_isPlaying (t : Table) (seat : Seat) :
    (t.vacate seat).isPlaying seat = false := by
  simp [Table.isPlaying, Table.passes, Table.status, Table.vacate]

theorem leaveOutRoom_eq {w : World} {u : SessionId} {s : UserSession}
    (hs : w.users u = some s) (b : BoardPtr) :
    leaveOutRoom b u w = some (w.modifyBoard b fun board =>
      (board.leaveOutRoom s.locate).2) := by
  simp [leaveOutRoom, hs]

/-- The chair is vacated and nothing is stored. -/
theorem leaveSeat_completes {b : BoardPtr} {seat : Seat} {u : SessionId}
    {s : UserSession} {w : World} (hseating : w.layout.Seating)
    (hseat : (w.boards b).seat seat = some u) (hs : w.users u = some s) :
    ∃ w', leaveSeat b u true w = some w' ∧
      Leaves b seat w w' ((w.table b).vacate seat) ∧
      w'.sqlLog = w.sqlLog ∧ (∀ v, v ≠ u → w'.users v = w.users v) ∧
      w'.users u = some { s with status := .exited } := by
  have hexit := modifyUser_eq hs fun s => { s with status := .exited }
  have p := setStatus_plays _ hseating.distinct hseat hexit
  have hself := setUser_users_self w u { s with status := .exited }
  have hleave := leaveOutRoom_eq hself b
  obtain ⟨q, hq, _, hlocate⟩ := hseating.seated (b := b) hseat
  obtain ⟨s', hs', rfl⟩ := place_session hq
  rw [hs] at hs'
  cases hs'
  have hseat' : ((w.setUser u { s with status := .exited }).boards b).seat
      seat = some u := hseat
  have l := leaveOutRoom_leaves (p.layout ▸ hseating) hseat' hself hlocate
    hleave
  refine ⟨_, ?_, (p.leaves l).congr ?_, rfl, fun v hv => ?_, hself⟩
  · simp only [leaveSeat, if_true, hexit, hleave, Option.bind_eq_bind,
      Option.bind_some]
  · rw [p.table, Table.vacate_modify]
  · simp [World.modifyBoard, World.setUser, hv]

/-- What `LeaveRoomHandle` does after the leaver's own part completes. -/
theorem leaveRest_completes (env : Env) (b : BoardPtr) {u : SessionId}
    (endGame : Bool) (giveUp : GiveUp) (filter filter' : UInt32) {p : Place}
    {w : World} (hc : w.layout.Connected) (hdistinct : w.layout.Distinct)
    (hp : w.layout.place u = some p) (hstate : p.stateMachine.isSome) :
    ∃ w', (do
      let w ← broadCastMsg env b .giveUp (.giveUp giveUp) filter w
      let (user, w) ← lastWinner env b u w
      let w ← (if endGame then endAllUsers b w else some w)
      let info ← wrapChessBoardInfo b w
      let w ← broadCastMsg env b .chessBoard (.chessBoardInfo info) filter' w
      broadCastHallInfo env b user w) = some w' ∧
      w'.sqlLog = w.winnerSql b (w.table b).sole ++ w.sqlLog ∧
      ∀ v, (∀ seat, (w.boards b).seat seat ≠ some v) →
        w'.users v = w.users v := by
  obtain ⟨w₁, h₁⟩ := broadCastMsg_completes env b .giveUp
    (.giveUp giveUp) filter hc
  have n₁ := broadCastMsg_notified h₁
  have hc₁ := n₁.connected hc
  have hdistinct₁ : w₁.layout.Distinct := n₁.layout ▸ hdistinct
  obtain ⟨u', w₂, h₂, ⟨q, hq, hstate'⟩, hsql₂⟩ := lastWinner_completes env
    (b := b) hc₁ hdistinct₁ (n₁.layout ▸ hp) hstate
  have p₂ := lastWinner_plays hdistinct₁ h₂
  obtain ⟨w₃, h₃, hlayout₃, hsql₃⟩ : ∃ w₃,
      (if endGame then endAllUsers b w₂ else some w₂) = some w₃ ∧
        w₃.layout = w₂.layout ∧ w₃.sqlLog = w₂.sqlLog := by
    cases endGame with
    | true =>
        exact endAllUsers_completes (p₂.layout ▸ hc₁) (p₂.distinct hdistinct₁)
    | false => exact ⟨w₂, rfl, rfl, rfl⟩
  have hlayout := hlayout₃.trans p₂.layout
  obtain ⟨info, hinfo⟩ := wrapChessBoardInfo_completes b
    (hlayout ▸ hc₁)
  obtain ⟨w₄, h₄⟩ := broadCastMsg_completes env b .chessBoard
    (.chessBoardInfo info) filter' (hlayout ▸ hc₁)
  have n₄ := broadCastMsg_notified h₄
  obtain ⟨w', h'⟩ := broadCastHallInfo_completes env b
    (n₄.connected (hlayout ▸ hc₁))
    (by rw [n₄.layout, hlayout₃]; exact hq) hstate'
  have hhall : (if True then broadCastHallInfo env b u' w₄ else some w₄) =
      some w' := by rwa [if_pos trivial]
  have p := leaveRest_plays hdistinct h₁ h₂ h₃ h₄ hhall
  refine ⟨w', ?_, ?_, p.outside⟩
  · simp only [h₁, h₂, h₃, hinfo, h₄, h', Option.bind_eq_bind,
      Option.bind_some]
  · rw [(broadCastHallInfo_notified h').sqlLog, n₄.sqlLog, hsql₃, hsql₂,
      n₁.sqlLog, n₁.table]
    congr 1
    simp only [World.winnerSql, n₁.boards, n₁.users]

/-- `LeaveRoomHandle` completes, and this is all that it does. -/
theorem leaveRoomHandle_completes (env : Env) {b : BoardPtr} {seat : Seat}
    {u : SessionId} {s : UserSession} {w : World}
    (hseating : w.layout.Seating) (hc : w.layout.Connected)
    (hseat : (w.boards b).seat seat = some u) (hs : w.users u = some s) :
    ∃ w', leaveRoomHandle env b u true w = some w' ∧
      Departs b seat u s w w' := by
  obtain ⟨p, hp, honline, hstate⟩ := hc.seated (b := b) hseat
  obtain ⟨s', hs', rfl⟩ := place_session hp
  rw [hs] at hs'
  cases hs'
  obtain ⟨w₁, h₁, hsql₁, hother₁, hboards₁, hself₁⟩ :=
    leavePenalty_completes env hs honline.thread
  have p₁ := leavePenalty_plays hseating.distinct hseat h₁
  obtain ⟨w₂, h₂, l₂, hsql₂, hother₂, hself₂⟩ := leaveSeat_completes
    (p₁.layout ▸ hseating) ((congrFun (p₁.seats b) seat).trans hseat) hself₁
  have l := p₁.leaves l₂
  have hp₂ : w₂.layout.place u = some s.place := by
    rw [l.layout]
    exact hp
  obtain ⟨w', hrest, hsql, houtside⟩ := leaveRest_completes env b
    (s.status == .playing)
    { srcUserLocate := s.locate, opt := some (lit "exit") } s.locate s.locate
    (l.layout ▸ hc.vacate b seat)
    (l.layout ▸ Layout.Distinct.vacate hseating.distinct b seat) hp₂ hstate
  have hleave : leaveRoomHandle env b u true w = some w' := by
    simp only [leaveRoomHandle, hs, h₁, h₂, if_true, Option.bind_eq_bind,
      Option.bind_some, or_true]
    simpa only [Option.bind_eq_bind] using hrest
  have htable : w₂.table b = (w.table b).vacate seat := by
    rw [l₂.table, p₁.table]
    split
    · rw [Table.vacate_modify]
    · rfl
  refine ⟨w', hleave, (leaveRoomHandle_leaves hseating hseat hleave).1, ?_, ?_⟩
  · rw [hsql, hsql₂, hsql₁, htable]
    congr 1
    cases hsole : ((w.table b).vacate seat).sole with
    | none => rfl
    | some seat' =>
        -- the last winner is somebody else, whom the leaver did not change
        obtain ⟨_, hplaying⟩ := Table.sole_eq_some hsole
        have hne : seat' ≠ seat := by
          rintro rfl
          rw [Table.vacate_isPlaying] at hplaying
          cases hplaying
        have hseats : (w₂.boards b).seat seat' = (w.boards b).seat seat' := by
          have := congrFun (congrFun (congrArg Layout.seats l.layout) b) seat'
          rwa [Layout.vacate, Layout.setSeat_self,
            Function.update_of_ne hne] at this
        simp only [World.winnerSql, Option.bind_some, hseats]
        cases hv : (w.boards b).seat seat' with
        | none => rfl
        | some v =>
            have hvu : v ≠ u := by
              rintro rfl
              exact hne (hseating.distinct (b := b) hv hseat)
            simp [hother₂ v hvu, hother₁ v hvu]
  · exact ⟨_, (houtside u (l.nowhere hseating.distinct hseat)).trans hself₂,
      rfl⟩

/-! ## Closing a connection -/

/-- Shrinking the pool completes. -/
theorem destrorySessionsFromPool_completes (env : Env) :
    ∀ (num : Nat) {w : World}, w.layout.Inv →
      ∃ w', destrorySessionsFromPool env num w = some w' := by
  intro num
  induction num with
  | zero => exact fun _ => ⟨_, rfl⟩
  | succ num ih =>
      intro w hinv
      unfold destrorySessionsFromPool
      cases hlast : w.sessionList.getLast? with
      | none => exact ⟨w, rfl⟩
      | some u =>
          have hmem : u ∈ w.layout.pool := List.mem_of_getLast? hlast
          obtain ⟨p, hp, hidle⟩ := hinv.registry.pooled hmem
          obtain ⟨s, hs, rfl⟩ := place_session hp
          have hdestruct := destructResource_standing env hs
            hidle.currChessBoard
          obtain ⟨hpool, hlayout, _⟩ := trimOne_spec hinv hlast hdestruct
          obtain ⟨w', h⟩ := ih (hlayout ▸ hinv.trimOne)
          refine ⟨w', ?_⟩
          simp only [hdestruct, Option.bind_eq_bind, Option.bind_some]
          exact h

theorem Layout.Connected.unregister {l : Layout} (hl : l.Connected)
    (fd : Int) : (l.unregister fd).Connected where
  registered := by
    intro k v hv
    by_cases hk : k = fd
    · subst hk
      simp [Layout.unregister] at hv
    · simp only [Layout.unregister, Function.update_of_ne hk] at hv
      exact hl.registered hv
  seated := hl.seated

/-- A closed connection has completed `LeaveRoomHandle` in the world `w₁`
without its descriptor, and nothing after that concerns anybody else. -/
structure Hangs (b : BoardPtr) (seat : Seat) (u : SessionId)
    (s : UserSession) (w w' : World) : Prop where
  departs : ∃ w₁ w₂, w₁.users = w.users ∧ w₁.boards = w.boards ∧
    w₁.sqlLog = w.sqlLog ∧ Departs b seat u s w₁ w₂ ∧
    w'.boards = w₂.boards ∧ w'.sqlLog = w₂.sqlLog ∧
    ∀ v, v ≠ u → v ∉ w.sessionList → w'.users v = w₂.users v

/-- The end of the connection of somebody on a chair. -/
theorem closingClientCon_hangs (env : Env) {u : SessionId} (fd : Int)
    {s : UserSession} {b : BoardPtr} {seat : Seat} {w : World}
    (hregistry : w.layout.Registry none) (hseating : w.layout.Seating)
    (hsettled : w.layout.Settled (some u)) (hc : w.layout.Connected)
    (hreg : w.layout.registry fd = some u) (hs : w.users u = some s)
    (hboard : s.currChessBoard = some b)
    (hseat : (w.boards b).seat seat = some u)
    (hstate : s.stateMachine = none → s.nextState = none) :
    ∃ w', closingClientCon env fd w = some w' ∧ Hangs b seat u s w w' := by
  have hlookup : w.fdSessionMap[fd]? = some u := hreg
  obtain ⟨w₁, hw₁⟩ : ∃ w₁ : World,
    w₁ = { w with fdSessionMap := w.fdSessionMap.erase fd } := ⟨_, rfl⟩
  have hlayout₁ : w₁.layout = w.layout.unregister fd := by
    rw [hw₁, layout_erase]
  have hseating₁ : w₁.layout.Seating := by
    rw [hlayout₁]
    exact ⟨hseating.seated, hseating.onBoard, hseating.count⟩
  have husers₁ : w₁.users = w.users := by rw [hw₁]
  have hboards₁ : w₁.boards = w.boards := by rw [hw₁]
  have hs₁ : w₁.users u = some s := by rw [husers₁, hs]
  have hseat₁ : (w₁.boards b).seat seat = some u := by rw [hboards₁, hseat]
  obtain ⟨w₂, hleave, d⟩ := leaveRoomHandle_completes env hseating₁
    (hlayout₁ ▸ hc.unregister fd) hseat₁ hs₁
  obtain ⟨s₂, hs₂, _⟩ := d.leaver
  have hdestruct : destructResource env u w₁ = some (w₂.setUser u
      ({ s₂ with currChessBoard := none } : UserSession).destruct) := by
    have hleft : leaveCurrChessBoard env u w₁ = some (w₂.setUser u
        { s₂ with currChessBoard := none }) := by
      simp only [leaveCurrChessBoard, hs₁, hboard, hleave, modifyUser_eq hs₂,
        Option.bind_eq_bind, Option.bind_some]
    simp only [destructResource, hleft, Option.bind_eq_bind,
      Option.bind_some, modifyUser_eq (setUser_users_self _ _ _),
      setUser_setUser]
  have hclosed := (registered_open hregistry hreg hs).2
  have c := destructResource_closes hseating₁ hs₁ hstate hclosed hdestruct
  have hchair : w₁.chair u = w.chair u := by simp [World.chair, husers₁]
  have hinv := recycled_inv hregistry hseating hsettled hreg hs
    (by rw [c.layout, hlayout₁, hchair])
  have hpool : w₂.sessionList = w.sessionList := by
    have := congrArg Layout.pool d.leaves.layout
    rw [hlayout₁] at this
    exact this
  obtain ⟨w', h, t⟩ : ∃ w', recycleSession env u w₁ = some w' ∧
      Trimmed { (w₂.setUser u ({ s₂ with currChessBoard := none } :
        UserSession).destruct) with sessionList := u :: w₂.sessionList } w' := by
    simp only [recycleSession, hdestruct, Option.bind_eq_bind,
      Option.bind_some]
    split
    · obtain ⟨w', h⟩ := destrorySessionsFromPool_completes env
        connectionMaxStep hinv
      exact ⟨w', h, destrorySessionsFromPool_trimmed _ hinv h⟩
    · exact ⟨_, rfl, hinv, rfl, rfl, rfl, fun _ _ => rfl⟩
  refine ⟨w', ?_, w₁, w₂, husers₁, hboards₁, by rw [hw₁], d, t.boards,
    t.sqlLog, fun v hvu hv => ?_⟩
  · simp only [closingClientCon, hlookup]
    rw [← hw₁, h]
  · rw [t.users v ?_]
    · simp [World.setUser, hvu]
    · rw [List.mem_cons, hpool]
      rintro (rfl | hmem)
      · exact hvu rfl
      · exact hv hmem

end ChessServer
