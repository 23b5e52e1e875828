import ChessServer.Model.Captures
import ChessServer.Model.Client
import ChessServer.Proofs.Leaving
import ChessServer.Proofs.Step

/-!
# The ways out of a running game

A player drops out for good by giving up with `exit`, by the end of the
connection, by the inactivity timer, by an invalid header, or by a message
that the game state rejects.  All of them end in `LeaveRoomHandle`, but the
last one only after the player's status is gone (`drop_out_leaves_game`).
-/

namespace ChessServer

/-! ## Messages that end a player's part -/

/-- GIVE_UP with `exit` for the sender's own chair. -/
theorem messageHandle_exit {env : Env} {u : SessionId} {fd : Int}
    {s s₂ : UserSession} {b : BoardPtr} {seat : Seat} {msgType : UInt32}
    {msg : Bytes} {giveup : GiveUp} {w w₂ : World}
    (hreg : w.layout.registry fd = some u) (hs : w.users u = some s)
    (hplay : s.stateMachine = some .gamePlay)
    (hboard : s.currChessBoard = some b)
    (hseat : (w.boards b).seat seat = some u)
    (htype : MessageType.ofCode msgType = some .giveUp)
    (hmsg : env.proto.giveUp msg = some giveup)
    (hopt : giveup.opt = some (lit "exit"))
    (hlocate : giveup.srcUserLocate = seat.location)
    (hleave : leaveRoomHandle env b u true w = some w₂)
    (hs₂ : w₂.users u = some s₂) (hplay₂ : s₂.stateMachine = some .gamePlay) :
    messageHandle env fd msgType msg w = some (true, w₂.setUser u { s₂ with
      currChessBoard := none
      stateMachine := some .gameReady
      nextState := some .gameReady }) := by
  have hlookup : w.fdSessionMap[fd]? = some u := hreg
  have huser : (w.boards b).getUserByLocation giveup.srcUserLocate = some u := by
    rw [hlocate, getUserByLocation_location, hseat]
  have hgive : giveUpHandle env b msg w = some (true, w₂.setUser u
      { s₂ with nextState := some .gameReady, currChessBoard := none }) := by
    simp only [giveUpHandle, hmsg, huser, hopt, if_true, hleave,
      modifyUser_eq hs₂, modifyUser_eq (setUser_users_self _ _ _),
      setUser_setUser, Option.bind_eq_bind, Option.bind_some]
  have hstate : stateGamePlayMsgHandle env u msgType msg w =
      some (true, w₂.setUser u
        { s₂ with nextState := some .gameReady, currChessBoard := none }) := by
    simp [stateGamePlayMsgHandle, stateGamePlaySwitch, htype,
      MessageType.inGame, hs, hboard, translateMsg, hgive]
  simp [messageHandle, hlookup, sessionMessageHandle, hs, hplay,
    StateType.msgHandle, hstate, hplay₂]

/-- The `switch` of `StateGamePlay::MsgHandle` turns some types down without
looking at the message. -/
theorem stateGamePlaySwitch_rejects {env : Env} {u : SessionId}
    {s : UserSession} {b : BoardPtr} {msgType : UInt32} {msg : Bytes}
    {w : World} (hs : w.users u = some s) (hboard : s.currChessBoard = some b)
    (hrej : rejectsCode msgType = true) :
    stateGamePlaySwitch env u msgType msg w = some (false, w) := by
  unfold rejectsCode at hrej
  cases htype : MessageType.ofCode msgType with
  | none => simp [stateGamePlaySwitch, htype]
  | some type =>
      rw [htype] at hrej
      dsimp only at hrej
      cases type <;>
        first
        | exact absurd hrej (by decide)
        | simp [stateGamePlaySwitch, htype, MessageType.inGame, hs, hboard,
            translateMsg]

/-- A message that the game state rejects. -/
theorem messageHandle_rejected (env : Env) {u : SessionId} {fd : Int}
    {s : UserSession} {b : BoardPtr} {msgType : UInt32} (msg : Bytes)
    {w : World} (hreg : w.layout.registry fd = some u)
    (hs : w.users u = some s) (hplay : s.stateMachine = some .gamePlay)
    (hboard : s.currChessBoard = some b)
    (hrej : rejectsCode msgType = true) :
    messageHandle env fd msgType msg w =
      (closingClientCon env fd (w.setUser u { s with
        nextState := some .gameReady, status := .notStart })).map
        fun w => (false, w) := by
  have hlookup : w.fdSessionMap[fd]? = some u := hreg
  have hstate : stateGamePlayMsgHandle env u msgType msg w =
      some (false, w.setUser u { s with
        nextState := some .gameReady, status := .notStart }) := by
    simp only [stateGamePlayMsgHandle,
      stateGamePlaySwitch_rejects hs hboard hrej, setNextState,
      modifyUser_eq hs, modifyUser_eq (setUser_users_self _ _ _),
      setUser_setUser, Option.bind_eq_bind, Option.bind_some,
      Bool.false_eq_true, if_false]
  simp only [messageHandle, hlookup, sessionMessageHandle, hs, hplay,
    StateType.msgHandle, hstate, Option.bind_eq_bind, Option.bind_some,
    Bool.false_eq_true, if_false]
  rw [Option.map_eq_bind]
  rfl

/-! ## The table of a game that a player left -/

/-- The other chairs after a player left a running game. -/
theorem Table.leave_players {t : Table} {seat seat' : Seat}
    (hplay : t.isPlaying seat = true) (hne : seat' ≠ seat) :
    (t.leave seat).players seat' = (t.players seat').map fun p =>
      { p with
        status := .ended
        score := if (t.vacate seat).sole = some seat' then p.score + 10
          else p.score } := by
  have hvacate : (t.vacate seat).players seat' = t.players seat' := by
    simp [vacate, hne]
  rw [leave, if_pos hplay, endAll, modifyAll]
  dsimp only
  cases hsole : (t.vacate seat).sole with
  | none =>
      have hnone := sole_eq_none hsole
      rw [crown, if_neg hnone, hvacate]
      simp only [reduceCtorEq, if_false]
      rfl
  | some x =>
      obtain ⟨hone, hx⟩ := sole_eq_some hsole
      rw [crown_eq hone hx]
      by_cases hseat : seat' = x
      · subst hseat
        simp only [modify, Function.update_self, hvacate, if_true,
          Option.map_map]
        rfl
      · have hne' : ¬ (some x = some seat') := by
          simpa using Ne.symm hseat
        simp only [modify, Function.update_of_ne hseat, hvacate, hne',
          if_false]
        rfl

/-- Who left is not the sole player. -/
theorem Table.sole_vacate_ne {t : Table} {seat seat' : Seat}
    (h : (t.vacate seat).sole = some seat') : seat' ≠ seat := by
  obtain ⟨_, hplaying⟩ := sole_eq_some h
  rintro rfl
  rw [vacate_isPlaying] at hplaying
  cases hplaying

/-! ## Dropping out -/

/-- The events by which session `u` on chair `seat` drops out for good; the
flag says that it does so by a message that `StateGamePlay::MsgHandle`
rejects. -/
inductive Drops (env : Env) (w : World) (u : SessionId) (seat : Seat) :
    Event → Bool → Prop where
  /-- GIVE_UP with `exit` that names its own chair -/
  | exit {data msgType msg giveup}
      (hrecv : w.received u data = .message msgType msg)
      (htype : MessageType.ofCode msgType = some .giveUp)
      (hmsg : env.proto.giveUp msg = some giveup)
      (hopt : giveup.opt = some (lit "exit"))
      (hlocate : giveup.srcUserLocate = seat.location) :
      Drops env w u seat (.read u data) false
  /-- the end of the connection, or an error on it -/
  | event {events} (hcloses : events.closes = true) :
      Drops env w u seat (.event u events) false
  /-- the inactivity timer -/
  | timer : Drops env w u seat (.timer u) false
  /-- an invalid header -/
  | header {data} (hrecv : w.received u data = .refused) :
      Drops env w u seat (.read u data) false
  /-- a message that is rejected -/
  | rejected {data msgType msg}
      (hrecv : w.received u data = .message msgType msg)
      (hrej : ∃ w', stateGamePlayMsgHandle env u msgType msg w =
        some (false, w')) :
      Drops env w u seat (.read u data) true

/-- The chair of the only other player PLAYING. -/
def World.lastOpponent (w : World) (b : BoardPtr) (seat : Seat) :
    Option Seat :=
  ((w.table b).vacate seat).sole

/-- A statement stores 10 points more for the user of a chair, if one is
named. -/
def World.Rewards (w : World) (b : BoardPtr) (winner : Option Seat)
    (sql : List Bytes) : Prop :=
  match winner.bind fun seat => (w.boards b).seat seat >>= w.users with
  | some s => ∃ score : UInt32,
      score.toNat = s.userInfo.score.toNat + 10 ∧
        sql = [updateScoreSql s.userInfo.account score]
  | none => sql = []

/-- The effect of dropping out of a running game: `u`, which was `s` on chair
`seat` of board `b`, loses 30 points and its chair, everybody else at the
table is ENDED, a last opponent gains 10 points, and no other score
changes.  The scores are numbers: none may wrap around. -/
structure LeftGame (u : SessionId) (s : UserSession) (b : BoardPtr)
    (seat : Seat) (w w' : World) : Prop where
  stored : ∃ (score : UInt32) (reward : List Bytes),
    score.toNat + 30 = s.userInfo.score.toNat ∧
      w.Rewards b (w.lastOpponent b seat) reward ∧
      w'.sqlLog = reward ++ updateScoreSql s.userInfo.account score ::
        w.sqlLog
  score : ∀ s', w'.users u = some s' → 0 ≤ s'.clifd →
    s'.userInfo.score.toNat + 30 = s.userInfo.score.toNat
  empty : (w'.boards b).seat seat = none
  stay : ∀ seat', seat' ≠ seat →
    (w'.boards b).seat seat' = (w.boards b).seat seat'
  ended : ∀ seat' v, (w'.boards b).seat seat' = some v →
    ∃ s', w'.users v = some s' ∧ s'.status = .ended
  others : ∀ (v : SessionId) (sv : UserSession) (fd : Int), v ≠ u →
    w.fdSessionMap[fd]? = some v → w.users v = some sv →
    ∃ sv', w'.users v = some sv' ∧ sv'.userInfo.score.toNat =
      if (w.lastOpponent b seat).bind (w.boards b).seat = some v then
        sv.userInfo.score.toNat + 10
      else sv.userInfo.score.toNat

/-- There are 30 points to lose, and the last opponent, if there is one, can
hold 10 more. -/
def World.AffordsLeaving (w : World) (b : BoardPtr) (seat : Seat)
    (s : UserSession) : Prop :=
  30 ≤ s.userInfo.score.toNat ∧
    ∀ v sv, (w.lastOpponent b seat).bind (w.boards b).seat = some v →
      w.users v = some sv → sv.userInfo.score.toNat + 10 < 2 ^ 32

/-- The same effect as the code computes it, on scores that are machine
words. -/
structure DroppedOut (u : SessionId) (s : UserSession) (b : BoardPtr)
    (seat : Seat) (w w' : World) : Prop where
  stored : w'.sqlLog = w.winnerSql b (w.lastOpponent b seat) ++
    updateScoreSql s.userInfo.account (s.userInfo.score - 30) :: w.sqlLog
  score : ∀ s', w'.users u = some s' → 0 ≤ s'.clifd →
    s'.userInfo.score = s.userInfo.score - 30
  empty : (w'.boards b).seat seat = none
  stay : ∀ seat', seat' ≠ seat →
    (w'.boards b).seat seat' = (w.boards b).seat seat'
  ended : ∀ seat' v, (w'.boards b).seat seat' = some v →
    ∃ s', w'.users v = some s' ∧ s'.status = .ended
  others : ∀ (v : SessionId) (sv : UserSession) (fd : Int), v ≠ u →
    w.fdSessionMap[fd]? = some v → w.users v = some sv →
    ∃ sv', w'.users v = some sv' ∧ sv'.userInfo.score =
      if (w.lastOpponent b seat).bind (w.boards b).seat = some v then
        sv.userInfo.score + 10
      else sv.userInfo.score

/-- Two worlds that differ in session `u` only, as far as the game goes. -/
structure Near (u : SessionId) (w w₁ : World) : Prop where
  users : ∀ v, v ≠ u → w₁.users v = w.users v
  boards : w₁.boards = w.boards
  sqlLog : w₁.sqlLog = w.sqlLog

theorem Near.vacate {u : SessionId} {b : BoardPtr} {seat : Seat}
    {w w₁ : World} (hn : Near u w w₁) (hseating : w.layout.Seating)
    (hseat : (w.boards b).seat seat = some u) :
    (w₁.table b).vacate seat = (w.table b).vacate seat := by
  refine Table.ext ?_ ?_ ?_ ?_ ?_ ?_
  · funext seat'
    by_cases hne : seat' = seat
    · subst hne
      simp [Table.vacate]
    · simp only [Table.vacate, Function.update_of_ne hne, World.table,
        hn.boards]
      cases hv : (w.boards b).seat seat' with
      | none => rfl
      | some v =>
          have hvu : v ≠ u := by
            rintro rfl
            exact hne (hseating.distinct (b := b) hv hseat)
          simp [hn.users v hvu]
  · exact congrArg
      (fun board : ChessBoard =>
        if seat.location = board.firstComeUserLocate then locationMax
        else board.firstComeUserLocate) (congrFun hn.boards b)
  all_goals simp only [World.table, Table.vacate, hn.boards]

/-- The reward of the last opponent does not depend on the leaver. -/
theorem Near.winnerSql {u : SessionId} {b : BoardPtr} {seat : Seat}
    {w w₁ : World} (hn : Near u w w₁) (hseating : w.layout.Seating)
    (hseat : (w.boards b).seat seat = some u) :
    w₁.winnerSql b ((w₁.table b).vacate seat).sole =
      w.winnerSql b (w.lastOpponent b seat) := by
  rw [hn.vacate hseating hseat, World.lastOpponent]
  cases hsole : ((w.table b).vacate seat).sole with
  | none => rfl
  | some seat' =>
      have hne := Table.sole_vacate_ne hsole
      simp only [World.winnerSql, Option.bind_some, hn.boards]
      cases hv : (w.boards b).seat seat' with
      | none => rfl
      | some v =>
          have hvu : v ≠ u := by
            rintro rfl
            exact hne (hseating.distinct (b := b) hv hseat)
          simp [hn.users v hvu]

/-- Who sits at a table with `u` is somebody else with a connection. -/
theorem seated_other {u v : SessionId} {b : BoardPtr} {seat seat' : Seat}
    {w : World} (hinv : w.layout.Inv) (hseat : (w.boards b).seat seat = some u)
    (hne : seat' ≠ seat) (hv : (w.boards b).seat seat' = some v) :
    v ≠ u ∧ ∃ sv, w.users v = some sv ∧ w.fdSessionMap[sv.clifd]? = some v := by
  refine ⟨?_, ?_⟩
  · rintro rfl
    exact hne (hinv.seating.distinct (b := b) hv hseat)
  · obtain ⟨p, hp, hboard, _⟩ := hinv.seating.seated (b := b) hv
    obtain ⟨sv, hsv, rfl⟩ := place_session hp
    exact ⟨sv, hsv, hinv.registry.onBoard hp hboard⟩

/-- `LeaveRoomHandle` of a player has the effect, whatever its caller does
with the leaver's own object afterwards. -/
theorem Departs.droppedOut {u : SessionId} {s s₁ : UserSession} {b : BoardPtr}
    {seat : Seat} {w w₁ w₂ w' : World} (hinv : w.layout.Inv)
    (hseat : (w.boards b).seat seat = some u) (hn : Near u w w₁)
    (hs₁ : w₁.users u = some s₁) (hplay : s₁.status = .playing)
    (hinfo : s₁.userInfo = s.userInfo) (d : Departs b seat u s₁ w₁ w₂)
    (hboards : w'.boards = w₂.boards) (hsql : w'.sqlLog = w₂.sqlLog)
    (husers : ∀ v, v ≠ u → v ∉ w.sessionList → w'.users v = w₂.users v)
    (hself : ∀ s', w'.users u = some s' → 0 ≤ s'.clifd →
      ∃ s₂, w₂.users u = some s₂ ∧ s'.userInfo = s₂.userInfo) :
    DroppedOut u s b seat w w' := by
  have hseating := hinv.seating
  have hseats : (w'.boards b).seat =
      Function.update (w.boards b).seat seat none := by
    have := congrFun (congrArg Layout.seats d.leaves.layout) b
    rw [Layout.vacate, Layout.setSeat_self] at this
    rw [hboards, ← hn.boards]
    exact this
  have hseat₁ : (w₁.boards b).seat seat = some u := by rw [hn.boards, hseat]
  have hplaying : (w₁.table b).isPlaying seat = true := by
    rw [table_isPlaying hseat₁ hs₁, hplay]
    rfl
  -- the other chairs, as the table shows them
  have hplayers : ∀ seat' v sv, seat' ≠ seat →
      (w.boards b).seat seat' = some v → w.users v = some sv →
      ∃ sv', w'.users v = some sv' ∧ sv'.status = .ended ∧
        sv'.userInfo.score = if w.lastOpponent b seat = some seat' then
          sv.userInfo.score + 10 else sv.userInfo.score := by
    intro seat' v sv hne hv hsv
    obtain ⟨hvu, sv₀, hsv₀, hreg⟩ := seated_other hinv hseat hne hv
    rw [hsv] at hsv₀
    cases hsv₀
    have hpool := hinv.registry.not_mem_pool hreg
    have hv₁ : (w₁.boards b).seat seat' = some v := by rw [hn.boards, hv]
    have hsv₁ : w₁.users v = some sv := by rw [hn.users v hvu, hsv]
    have hleave := Table.leave_players hplaying hne
    rw [table_players hv₁ hsv₁, hn.vacate hseating hseat, ← d.leaves.table,
      Option.map_some] at hleave
    have hv₂ : (w₂.boards b).seat seat' = some v := by
      rw [← hboards, hseats, Function.update_of_ne hne, hv]
    simp only [World.table, hv₂, Option.bind_eq_bind, Option.bind_some,
      Option.bind_eq_some_iff, Option.some.injEq, Player.mk.injEq] at hleave
    obtain ⟨sv₂, hsv₂, _, hstatus, hscore⟩ := hleave
    exact ⟨sv₂, (husers v hvu hpool).trans hsv₂, hstatus, hscore⟩
  refine ⟨?_, ?_, ?_, ?_, ?_, ?_⟩
  · have hpenalty : s₁.penaltySql =
        [updateScoreSql s.userInfo.account (s.userInfo.score - 30)] := by
      rw [UserSession.penaltySql, if_pos hplay, hinfo]
    rw [hsql, d.sqlLog, hn.winnerSql hseating hseat, hpenalty, hn.sqlLog]
    rfl
  · intro s' hs' hclifd
    obtain ⟨s₂, hs₂, hinfo'⟩ := hself s' hs' hclifd
    obtain ⟨s₃, hs₃, hinfo₃⟩ := d.leaver
    rw [hs₂] at hs₃
    cases hs₃
    rw [hinfo', hinfo₃, UserSession.infoAfter, if_pos hplay, hinfo]
  · rw [hseats, Function.update_self]
  · intro seat' hne
    rw [hseats, Function.update_of_ne hne]
  · intro seat' v hv
    have hne : seat' ≠ seat := by
      rintro rfl
      rw [hseats, Function.update_self] at hv
      cases hv
    rw [hseats, Function.update_of_ne hne] at hv
    obtain ⟨_, sv, hsv, _⟩ := seated_other hinv hseat hne hv
    obtain ⟨sv', hsv', hended, _⟩ := hplayers seat' v sv hne hv hsv
    exact ⟨sv', hsv', hended⟩
  · intro v sv fd hvu hreg hsv
    by_cases hon : ∃ seat', (w.boards b).seat seat' = some v
    · obtain ⟨seat', hv⟩ := hon
      have hne : seat' ≠ seat := by
        rintro rfl
        rw [hseat] at hv
        exact hvu (Option.some.inj hv).symm
      obtain ⟨sv', hsv', _, hscore⟩ := hplayers seat' v sv hne hv hsv
      refine ⟨sv', hsv', ?_⟩
      rw [hscore]
      have hiff : w.lastOpponent b seat = some seat' ↔
          (w.lastOpponent b seat).bind (w.boards b).seat = some v := by
        cases w.lastOpponent b seat with
        | none => simp
        | some x =>
            rw [Option.some.injEq, Option.bind_some]
            exact ⟨fun h => h ▸ hv, fun h => hseating.distinct (b := b) h hv⟩
      simp only [hiff]
    · have hnot : ∀ seat', (w.boards b).seat seat' ≠ some v :=
        fun seat' hv => hon ⟨seat', hv⟩
      have hpool := hinv.registry.not_mem_pool hreg
      refine ⟨sv, ?_, ?_⟩
      · rw [husers v hvu hpool, d.leaves.outside v (by rwa [hn.boards]),
          hn.users v hvu, hsv]
      · rw [if_neg]
        cases w.lastOpponent b seat with
        | none => simp
        | some x => exact hnot x

/-- The last opponent is somebody else, with a connection. -/
theorem lastOpponent_other {u v : SessionId} {b : BoardPtr} {seat : Seat}
    {w : World} (hinv : w.layout.Inv) (hseat : (w.boards b).seat seat = some u)
    (h : (w.lastOpponent b seat).bind (w.boards b).seat = some v) :
    v ≠ u ∧ ∃ sv, w.users v = some sv ∧ w.fdSessionMap[sv.clifd]? = some v := by
  obtain ⟨seat', hsole, hv⟩ := Option.bind_eq_some_iff.mp h
  exact seated_other hinv hseat (Table.sole_vacate_ne hsole) hv

/-- There are as many statements for the last opponent as the code sends. -/
theorem World.Rewards.length {w : World} {b : BoardPtr} {winner : Option Seat}
    {sql : List Bytes} (h : w.Rewards b winner sql) :
    sql.length = (w.winnerSql b winner).length := by
  unfold World.Rewards at h
  unfold World.winnerSql
  cases hwinner : winner.bind fun seat =>
      (w.boards b).seat seat >>= w.users with
  | none =>
      rw [hwinner] at h
      rw [h]
  | some s =>
      rw [hwinner] at h
      obtain ⟨_, _, rfl⟩ := h
      rw [List.length_singleton, List.length_singleton]

/-- The points are counted right exactly when none of the two scores wraps
around. -/
theorem DroppedOut.leftGame_iff {u : SessionId} {s : UserSession}
    {b : BoardPtr} {seat : Seat} {w w' : World} (hinv : w.layout.Inv)
    (hseat : (w.boards b).seat seat = some u)
    (d : DroppedOut u s b seat w w') :
    LeftGame u s b seat w w' ↔ w.AffordsLeaving b seat s := by
  constructor
  · intro h
    obtain ⟨_, _, hscore, _⟩ := h.stored
    refine ⟨by omega, fun v sv hv hsv => ?_⟩
    obtain ⟨hvu, sv₀, hsv₀, hreg⟩ := lastOpponent_other hinv hseat hv
    rw [hsv, Option.some.injEq] at hsv₀
    subst hsv₀
    obtain ⟨sv', _, hgain⟩ := h.others v sv _ hvu hreg hsv
    rw [if_pos hv] at hgain
    exact hgain ▸ sv'.userInfo.score.toNat_lt
  · intro h
    obtain ⟨hleaver, hopponent⟩ := h
    have hloss : (s.userInfo.score - 30).toNat + 30 =
        s.userInfo.score.toNat :=
      Table.toNat_sub_points.mpr hleaver
    have hgain : ∀ v sv, (w.lastOpponent b seat).bind (w.boards b).seat =
        some v → w.users v = some sv →
        (sv.userInfo.score + 10).toNat = sv.userInfo.score.toNat + 10 :=
      fun v sv hv hsv => Table.toNat_add_ten.mpr (hopponent v sv hv hsv)
    refine ⟨⟨_, _, hloss, ?_, d.stored⟩, fun s' hs' hclifd => ?_, d.empty,
      d.stay, d.ended, fun v sv fd hvu hreg hsv => ?_⟩
    · unfold World.Rewards World.winnerSql
      cases hwinner : (w.lastOpponent b seat).bind fun seat =>
          (w.boards b).seat seat >>= w.users with
      | none => rfl
      | some sv =>
          simp only [Option.bind_eq_bind, Option.bind_eq_some_iff] at hwinner
          obtain ⟨seat', hsole, v, hv, hsv⟩ := hwinner
          exact ⟨_, hgain v sv (by rw [hsole]; exact hv) hsv, rfl⟩
    · rw [d.score s' hs' hclifd]
      exact hloss
    · obtain ⟨sv', hsv', hscore⟩ := d.others v sv fd hvu hreg hsv
      refine ⟨sv', hsv', ?_⟩
      rw [hscore]
      split
      · rename_i hv
        exact hgain v sv hv hsv
      · rfl

/-! ## The five ways -/

theorem Buffers.near {u : SessionId} {w w₁ : World} (h : Buffers u w w₁) :
    Near u w w₁ := ⟨h.users, h.boards, h.sqlLog⟩

/-- A seated session as the invariant knows it. -/
theorem seated_session {u : SessionId} {s : UserSession} {b : BoardPtr}
    {seat : Seat} {w : World} (hinv : w.layout.Inv)
    (hs : w.users u = some s) (hseat : (w.boards b).seat seat = some u) :
    s.currChessBoard = some b ∧ s.stateMachine = some .gamePlay ∧
      s.place.Online ∧ w.layout.registry s.clifd = some u := by
  obtain ⟨p, hp, hboard, _⟩ := hinv.seating.seated (b := b) hseat
  obtain ⟨s', hs', rfl⟩ := place_session hp
  rw [hs] at hs'
  cases hs'
  have hreg := hinv.registry.onBoard hp hboard
  obtain ⟨q, hq, _, honline⟩ := hinv.registry.registered hreg
  rw [hp] at hq
  cases hq
  have hsettled := hinv.settled u _ hp (by simp)
  rw [Place.Settled, if_pos (by simp [hboard])] at hsettled
  exact ⟨hboard, hsettled.1, honline, hreg⟩

/-- Closing the connection of a player. -/
theorem close_droppedOut (env : Env) {u : SessionId} {s : UserSession}
    {b : BoardPtr} {seat : Seat} {w w₀ : World} (hinv : w.layout.Inv)
    (hs : w.users u = some s) (hseat : (w.boards b).seat seat = some u)
    (hplay : s.status = .playing) (hb : Buffers u w w₀) :
    ∃ w', closingClientCon env s.clifd w₀ = some w' ∧
      DroppedOut u s b seat w w' := by
  obtain ⟨hboard, hstate, _, hreg⟩ := seated_session hinv hs hseat
  obtain ⟨s₀, hs₀, hcore⟩ := hb.session s hs
  obtain ⟨_, _, _, hboard₀, hstate₀, _, hinfo₀, hstatus₀, _⟩ := core_eq hcore
  have hinv₀ := hb.inv hinv hreg
  obtain ⟨w', h, ⟨w₁, w₂, husers₁, hboards₁, hsql₁, d, hboards, hsql, husers⟩⟩ :=
    closingClientCon_hangs env _ hinv₀.registry hinv₀.seating
      hinv₀.settled.mono hinv₀.connected
      ((congrFun hb.registry s.clifd).trans hreg) hs₀ (hboard₀.trans hboard)
      (by rw [hb.boards, hseat]) (by simp [hstate₀, hstate])
  obtain ⟨c, _⟩ := closing_step hinv hreg hb h
  refine ⟨w', h, d.droppedOut hinv hseat
    ⟨fun v hv => (congrFun husers₁ v).trans (hb.users v hv),
      hboards₁.trans hb.boards, hsql₁.trans hb.sqlLog⟩
    ((congrFun husers₁ u).trans hs₀) (hstatus₀.trans hplay) hinfo₀ hboards
    hsql (fun v hvu hv => husers v hvu (by rwa [hb.sessionList])) ?_⟩
  -- the leaver's object is idle afterwards
  intro s' hs' hclifd
  have hidle := c.gone s'.place (by simp [World.layout, hs'])
  rw [show s'.clifd = -1 from hidle.clifd] at hclifd
  exact absurd hclifd (by decide)

/-- GIVE_UP with `exit` of a player for its own chair. -/
theorem exit_droppedOut {env : Env} {u : SessionId} {s : UserSession}
    {b : BoardPtr} {seat : Seat} {msgType : UInt32} {msg : Bytes}
    {giveup : GiveUp} {w w₀ : World} (hinv : w.layout.Inv)
    (hs : w.users u = some s) (hseat : (w.boards b).seat seat = some u)
    (hplay : s.status = .playing) (hb : Buffers u w w₀)
    (htype : MessageType.ofCode msgType = some .giveUp)
    (hmsg : env.proto.giveUp msg = some giveup)
    (hopt : giveup.opt = some (lit "exit"))
    (hlocate : giveup.srcUserLocate = seat.location) :
    ∃ w', w₀.handleReceived env u s.clifd (.message msgType msg) = some w' ∧
      DroppedOut u s b seat w w' := by
  obtain ⟨hboard, hstate, _, hreg⟩ := seated_session hinv hs hseat
  obtain ⟨s₀, hs₀, hcore⟩ := hb.session s hs
  obtain ⟨_, _, _, hboard₀, hstate₀, _, hinfo₀, hstatus₀, _⟩ := core_eq hcore
  have hinv₀ := hb.inv hinv hreg
  have hseat₀ : (w₀.boards b).seat seat = some u := by rw [hb.boards, hseat]
  obtain ⟨w₂, hleave, d⟩ := leaveRoomHandle_completes env
    hinv₀.seating hinv₀.connected hseat₀ hs₀
  have hp₂ : w₂.layout.place u = some s₀.place := by
    rw [d.leaves.layout]
    simp [Layout.vacate, Layout.setSeat, World.layout, hs₀]
  obtain ⟨s₂, hs₂, hplace₂⟩ := place_session hp₂
  have hstate₂ : s₂.stateMachine = some .gamePlay := by
    have := congrArg Place.stateMachine hplace₂
    simp only [UserSession.place] at this
    rw [this, hstate₀, hstate]
  have hhandle := messageHandle_exit
    ((congrFun hb.registry s.clifd).trans hreg) hs₀ (hstate₀.trans hstate)
    (hboard₀.trans hboard) hseat₀ htype hmsg hopt hlocate hleave hs₂ hstate₂
  refine ⟨_, by
    simp only [World.handleReceived, hhandle, Option.bind_eq_bind,
      Option.bind_some, if_true, modifyUser_eq (setUser_users_self _ _ _),
      setUser_setUser]
    rfl, ?_⟩
  refine d.droppedOut hinv hseat hb.near hs₀ (hstatus₀.trans hplay) hinfo₀ rfl
    rfl (fun v hvu _ => by simp [World.setUser, hvu]) fun s' hs' _ => ?_
  rw [setUser_users_self] at hs'
  cases hs'
  exact ⟨s₂, hs₂, rfl⟩

/-- What `StateGamePlay::MsgHandle` rejects, it rejects by its type. -/
theorem rejectsCode_of_false {env : Env} {u : SessionId} {msgType : UInt32}
    {msg : Bytes} {w : World} (hseating : w.layout.Seating)
    (h : ∃ w', stateGamePlayMsgHandle env u msgType msg w =
      some (false, w')) : rejectsCode msgType = true := by
  obtain ⟨w', h⟩ := h
  have hout := stateGamePlayMsgHandle_outcome hseating h
  by_contra hrej
  rw [if_neg hrej] at hout
  cases hout.1

/-- The log of a session that left without being PLAYING lacks the
penalty. -/
theorem rejected_not_leftGame (env : Env) {u : SessionId} {s : UserSession}
    {b : BoardPtr} {seat : Seat} {msgType : UInt32} {msg : Bytes}
    {w w₀ : World} (hinv : w.layout.Inv) (hs : w.users u = some s)
    (hseat : (w.boards b).seat seat = some u) (hb : Buffers u w w₀)
    (hrej : rejectsCode msgType = true) :
    ∃ w', w₀.handleReceived env u s.clifd (.message msgType msg) = some w' ∧
      ¬ LeftGame u s b seat w w' := by
  obtain ⟨hboard, hstate, _, hreg⟩ := seated_session hinv hs hseat
  obtain ⟨s₀, hs₀, hcore⟩ := hb.session s hs
  obtain ⟨_, _, _, hboard₀, hstate₀, _, _, _, _⟩ := core_eq hcore
  have hinv₀ := hb.inv hinv hreg
  have hreg₀ := (congrFun hb.registry s.clifd).trans hreg
  have hp₀ : w₀.layout.place u = some s₀.place := by simp [World.layout, hs₀]
  -- the status is gone before the session leaves
  obtain ⟨s₁, hs₁⟩ : ∃ s₁ : UserSession, s₁ = { s₀ with
    nextState := some .gameReady, status := .notStart } := ⟨_, rfl⟩
  have hlayout₁ : (w₀.setUser u s₁).layout =
      w₀.layout.modify u fun _ => s₁.place := layout_setUser hs₀
  have hfields : ∀ p, w₀.layout.place u = some p → s₁.place.clifd = p.clifd ∧
      s₁.place.thread = p.thread ∧
      s₁.place.bufev.isSome = p.bufev.isSome ∧
      s₁.place.currChessBoard = p.currChessBoard ∧
      s₁.place.locate = p.locate ∧ s₁.place.stateMachine = p.stateMachine := by
    intro p hp
    rw [hp₀] at hp
    cases hp
    subst hs₁
    exact ⟨rfl, rfl, rfl, rfl, rfl, rfl⟩
  have hregistry₁ : (w₀.setUser u s₁).layout.Registry none := by
    rw [hlayout₁]
    exact hinv₀.registry.modify (hinv₀.registry.not_mem_pool hreg₀)
      fun p hp => ⟨(hfields p hp).1, (hfields p hp).2.1, (hfields p hp).2.2.1⟩
  have hseating₁ : (w₀.setUser u s₁).layout.Seating := by
    rw [hlayout₁]
    exact hinv₀.seating.modify fun p hp =>
      ⟨(hfields p hp).2.2.2.1, fun _ => (hfields p hp).2.2.2.2.1⟩
  have hsettled₁ : (w₀.setUser u s₁).layout.Settled (some u) := by
    rw [hlayout₁]
    exact hinv₀.settled.mono.modify_busy
  have hconnected₁ : (w₀.setUser u s₁).layout.Connected := by
    rw [hlayout₁]
    exact hinv₀.connected.modify fun p hp => ⟨(hfields p hp).1,
      (hfields p hp).2.1, (hfields p hp).2.2.1, (hfields p hp).2.2.2.2.2⟩
  have hn₁ : Near u w (w₀.setUser u s₁) :=
    ⟨fun v hv => by simp [World.setUser, hv, hb.users v hv], hb.boards,
      hb.sqlLog⟩
  obtain ⟨w', h, ⟨w₁, w₂, husers₁, hboards₁, hsql₁, d, _, hsql, _⟩⟩ :=
    closingClientCon_hangs env s.clifd hregistry₁ hseating₁
      hsettled₁ hconnected₁ hreg₀ (setUser_users_self w₀ u s₁)
      (by rw [hs₁, ← hboard, ← hboard₀]) (by rw [hn₁.boards, hseat])
      (by simp [hs₁, hstate₀, hstate])
  have hn : Near u w w₁ :=
    ⟨fun v hv => (congrFun husers₁ v).trans (hn₁.users v hv),
      hboards₁.trans hn₁.boards, hsql₁.trans hn₁.sqlLog⟩
  have hhandle := messageHandle_rejected env msg hreg₀ hs₀
    (hstate₀.trans hstate) (hboard₀.trans hboard) hrej
  rw [← hs₁, h, Option.map_some] at hhandle
  refine ⟨w', by simp [World.handleReceived, hhandle], fun hleft => ?_⟩
  obtain ⟨score, reward, _, hreward, hstored⟩ := hleft.stored
  have hpenalty : s₁.penaltySql = [] := by
    rw [UserSession.penaltySql, hs₁, if_neg (by simp)]
  rw [hsql, d.sqlLog, hn.winnerSql hinv.seating hseat, hpenalty,
    hn.sqlLog] at hstored
  have hlength := congrArg List.length hstored
  simp [hreward.length] at hlength

/-- In every reachable state, every way for a player on a board to drop out is
one step of the server, and it has the effect of leaving a running game
exactly if it is no message that the game state rejects and no score wraps
around. -/
theorem drop_out_leaves_game {env : Env} {w : World}
    (h : (server env).Reachable w) {u : SessionId} {s : UserSession}
    {b : BoardPtr} {seat : Seat} (hs : w.users u = some s)
    (hseat : (w.boards b).seat seat = some u) (hplay : s.status = .playing)
    {e : Event} {rejected : Bool} (hd : Drops env w u seat e rejected) :
    e.Enabled w ∧ ∃ w', World.step env e w = some w' ∧
      (LeftGame u s b seat w w' ↔
        rejected = false ∧ w.AffordsLeaving b seat s) := by
  have hinv := reachable_inv h
  have hkept : ∀ {w'}, DroppedOut u s b seat w w' →
      (LeftGame u s b seat w w' ↔
        false = false ∧ w.AffordsLeaving b seat s) := fun d => by
    rw [d.leftGame_iff hinv hseat, eq_self, true_and]
  obtain ⟨_, _, honline, _⟩ := seated_session hinv hs hseat
  obtain ⟨t, ht⟩ := Option.isSome_iff_exists.mp honline.thread
  obtain ⟨input, hbuf⟩ := Option.isSome_iff_exists.mp honline.bufev
  have ht' : s.thread = some t := ht
  have hbuf' : s.bufev = some input := hbuf
  have hread : ∃ s, w.users u = some s ∧ s.bufev ≠ none :=
    ⟨s, hs, by simp [hbuf']⟩
  cases hd with
  | exit hrecv htype hmsg hopt hlocate =>
      rename_i data _ _ _
      obtain ⟨w₀, _, hb, _, _, hstep⟩ := read_step env data
        hs hbuf' honline.thread
      obtain ⟨w', h', hleft⟩ := exit_droppedOut hinv hs hseat hplay hb htype
        hmsg hopt hlocate
      exact ⟨hread, w', by rw [hstep, hrecv, h'], hkept hleft⟩
  | event hcloses =>
      obtain ⟨w', h', hleft⟩ := close_droppedOut env hinv hs hseat
        hplay (Buffers.refl u w)
      refine ⟨hread, w', ?_, hkept hleft⟩
      simp [World.step, onEventCb, hs, ht', hcloses, h']
  | timer =>
      obtain ⟨w', h', hleft⟩ := close_droppedOut env hinv hs hseat
        hplay (Buffers.refl u w)
      refine ⟨⟨s, hs, ?_⟩, w', ?_, hkept hleft⟩
      · have := honline.clifd
        simp only [UserSession.place] at this
        omega
      · simp [World.step, timerOutHandle, hs, ht', h']
  | header hrecv =>
      rename_i data
      obtain ⟨w₀, _, hb, _, _, hstep⟩ := read_step env data
        hs hbuf' honline.thread
      obtain ⟨w', h', hleft⟩ := close_droppedOut env hinv hs hseat
        hplay hb
      exact ⟨hread, w', by rw [hstep, hrecv]; exact h', hkept hleft⟩
  | rejected hrecv hrej =>
      rename_i data _ _
      obtain ⟨w₀, _, hb, _, _, hstep⟩ := read_step env data
        hs hbuf' honline.thread
      obtain ⟨w', h', hleft⟩ := rejected_not_leftGame env hinv hs
        hseat hb (rejectsCode_of_false hinv.seating hrej)
      exact ⟨hread, w', by rw [hstep, hrecv, h'], by simp [hleft]⟩

/-- The left player of a game that three clients started times out. -/
theorem drop_out_leaves_game_timer :
    ∃ w w' s, (server Client.env).Reachable w ∧ w.users 0 = some s ∧
      s.status = .playing ∧ World.step Client.env (.timer 0) w = some w' ∧
      LeftGame 0 s ⟨1, 1⟩ .left w w' := by
  obtain ⟨w, hreach, _, hplayer, hright, hbottom⟩ := Client.game_of_three
  obtain ⟨hseat, s, hs, hplay, hscore⟩ := Client.session_of_player hplayer
  have hothers : w.lastOpponent ⟨1, 1⟩ .left = none := by
    have hplaying : [Seat.left, Seat.right, Seat.bottom].filter
        ((w.table ⟨1, 1⟩).vacate .left).isPlaying = [.right, .bottom] := by
      simp [Table.isPlaying, Table.passes_eq, Table.vacate, hright,
        hbottom]
    rw [World.lastOpponent, Table.sole, hplaying]
  obtain ⟨_, w', hstep, hleft⟩ :=
    drop_out_leaves_game hreach hs hseat hplay .timer
  refine ⟨w, w', s, hreach, hs, hplay, hstep, hleft.mpr ⟨rfl, ?_, ?_⟩⟩
  · rw [hscore]
    decide
  · simp [hothers]

/-- The left player of that game sends LOGOUT instead, which the game state
rejects: it keeps its points. -/
theorem rejected_player_keeps_points :
    ∃ w w' s, (server Client.env).Reachable w ∧ w.users 0 = some s ∧
      (w.boards ⟨1, 1⟩).seat .left = some 0 ∧ s.status = .playing ∧
      Drops Client.env w 0 .left (.read 0 (Client.message .logout [])) true ∧
      World.step Client.env (.read 0 (Client.message .logout [])) w =
        some w' ∧
      ¬ LeftGame 0 s ⟨1, 1⟩ .left w w' := by
  obtain ⟨w, hreach, htest⟩ := Client.reachable_after (fun _ _ => True)
    Client.startGame
    (fun w => (w.boards ⟨1, 1⟩).seat .left == some 0 &&
      (w.users 0).any (·.status == .playing) &&
      w.received 0 (Client.message .logout []) ==
        .message MessageType.logout.code [] &&
      (stateGamePlayMsgHandle Client.env 0 MessageType.logout.code [] w).any
        (!·.1)) (by decide +kernel)
  simp only [Bool.and_eq_true, beq_iff_eq, Option.any_eq_true] at htest
  obtain ⟨⟨⟨hseat, s, hs, hplay⟩, hrecv⟩, ⟨ret, w₁⟩, hrej, hret⟩ := htest
  have hrej' : ∃ w', stateGamePlayMsgHandle Client.env 0
      MessageType.logout.code [] w = some (false, w') :=
    ⟨w₁, by simpa [show ret = false by simpa using hret] using hrej⟩
  have hinv := reachable_inv hreach
  obtain ⟨_, _, honline, _⟩ := seated_session hinv hs hseat
  obtain ⟨input, hbuf⟩ := Option.isSome_iff_exists.mp honline.bufev
  obtain ⟨w₀, _, hb, _, _, hstep⟩ := read_step Client.env
    (Client.message .logout []) hs hbuf honline.thread
  obtain ⟨w', h', hleft⟩ := rejected_not_leftGame _ hinv hs hseat hb
    (rejectsCode_of_false hinv.seating hrej')
  exact ⟨w, w', s, hreach, hs, hseat, hplay, .rejected hrecv hrej',
    by rw [hstep, hrecv, h'], hleft⟩

end ChessServer
