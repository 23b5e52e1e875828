import ChessServer.Model.Acts
import ChessServer.Model.Statements
import ChessServer.Server.Wire

/-!
# Clients

The frames that clients send, and surroundings in which a run can be
followed byte by byte: messages in the wire format of `message.proto`, and a
database with a user for every account.
-/

namespace ChessServer

open Wire

namespace Client

/-! ## Surroundings -/

/-- A database that answers a query for an account with a row whose password
is `p` and whose score is 100, and that stores no pictures. -/
def database : List Bytes → SqlReply
  | [] => .error
  | sql :: _ =>
      let users := lit "SELECT * FROM users_info WHERE account='"
      if users.isPrefixOf sql then
        let account := (sql.drop users.length).takeWhile (· ≠ 39)
        .users [⟨account, lit "p", none, some 100, none, none⟩]
      else if (lit "SELECT head_photo").isPrefixOf sql then .photos [none]
      else if (lit "SELECT * FROM ad_pictures").isPrefixOf sql then .ads []
      else .done

/-- `mysql_real_escape_string` for one byte. -/
def escapeByte (c : UInt8) : Bytes :=
  if c = 0 then [92, 48]
  else if c = 10 then [92, 110]
  else if c = 13 then [92, 114]
  else if c = 26 then [92, 90]
  else if c = 34 ∨ c = 39 ∨ c = 92 then [92, c]
  else [c]

def escapeString (data : Bytes) : Bytes := data.flatMap escapeByte

/-- An escaped byte takes two bytes, every other byte stays one. -/
theorem length_escapeByte (c : UInt8) :
    (escapeByte c).length = 1 + (escaped c).toNat := by
  by_cases h : escaped c = true
  · rw [h]
    simp only [escaped, List.contains_eq_mem, List.mem_cons, List.not_mem_nil,
      or_false, decide_eq_true_eq] at h
    rcases h with rfl | rfl | rfl | rfl | rfl | rfl | rfl <;> rfl
  · rw [Bool.eq_false_of_not_eq_true h]
    simp only [escaped, List.contains_eq_mem, List.mem_cons, List.not_mem_nil,
      or_false, decide_eq_true_eq, not_or] at h
    obtain ⟨h₁, h₂, h₃, h₄, h₅, h₆, h₇⟩ := h
    simp [escapeByte, h₁, h₂, h₃, h₄, h₅, h₆, h₇]

/-- What stands for a byte in a literal is read as this byte. -/
theorem lex_escapeByte (c : UInt8) (before text : Bytes) :
    SqlText.lex (some before) (escapeByte c ++ text) =
      SqlText.lex (some (before ++ [c])) text := by
  have hslash : ∀ e : UInt8, SqlText.lex (some before) (92 :: e :: text) =
      SqlText.lex (some (before ++ SqlText.escape e)) text := by
    intro e
    rw [SqlText.lex, if_pos rfl]
  unfold escapeByte
  split
  · rename_i h
    rw [h]
    exact hslash 48
  · split
    · rename_i h
      rw [h]
      exact hslash 110
    · split
      · rename_i h
        rw [h]
        exact hslash 114
      · split
        · rename_i h
          rw [h]
          exact hslash 90
        · split
          · rename_i h
            rw [List.cons_append, List.cons_append, List.nil_append, hslash]
            rcases h with rfl | rfl | rfl <;> rfl
          · rename_i h
            rw [not_or, not_or] at h
            cases text with
            | nil => simp [SqlText.lex, h]
            | cons e rest => simp [SqlText.lex, h]

theorem escapeString_escapes : EscapesString escapeString where
  length data := by
    induction data with
    | nil => rfl
    | cons c data ih =>
        unfold escapeString at ih ⊢
        rw [List.flatMap_cons, List.length_append, ih, length_escapeByte,
          List.length_cons, List.countP_cons]
        cases escaped c <;> simp <;> omega
  read data := by
    induction data with
    | nil =>
        intro before text
        rw [List.append_nil]
        rfl
    | cons c data ih =>
        intro before text
        unfold escapeString at ih ⊢
        rw [List.flatMap_cons, List.append_assoc, lex_escapeByte, ih,
          List.append_assoc]
        rfl

/-- The wire format, the database, no files, and what MySQL escapes. -/
def env : Env := ⟨wireProtobuf, database, fun _ => none, escapeString⟩

instance (env : Env) (e : Event) (w : World) :
    Decidable ((server env).enabled e w) :=
  inferInstanceAs (Decidable (e.Enabled w))

/-! ## Messages -/

/-- A message in its frame. -/
def message (type : MessageType) (fields : List Field) : Bytes :=
  frame type.code (encode fields)

/-- What follows the header of a frame. -/
def body (frame : Bytes) : Bytes := frame.drop dataHeadLength

/-- Log in with the password `p`. -/
def login (account : String) : Bytes :=
  message .login [(1, .bytes (lit account)), (2, .bytes (lit "p"))]

/-- Ask for the last picture. -/
def adImageReq : Bytes :=
  message .adImageReq [(1, .varint 1), (2, .varint 1), (3, .varint 1)]

/-- Ask for a chair on a board of hall 1. -/
def requestPlay (board : Nat) (seat : Seat) : Bytes :=
  message .requestPlay
    [(1, .varint 1), (2, .varint board), (3, .varint seat.location.toNat)]

/-- Declare the user of a chair ready. -/
def gameReady (seat : Seat) : Bytes :=
  message .gameReadyReq [(1, .varint seat.location.toNat)]

/-- Declare the user at a location ready and choose the time limits. -/
def setClocks (locate : Location) (total single : Nat) : Bytes :=
  message .gameReadyReq [(1, .varint locate.toNat), (3, .varint total)
    , (4, .varint single)]

/-- Give up for the user of a chair. -/
def giveUp (seat : Seat) : Bytes :=
  message .giveUp [(1, .varint seat.location.toNat)]

/-- Leave the board for the user of a chair. -/
def exit (seat : Seat) : Bytes :=
  message .giveUp
    [(1, .varint seat.location.toNat), (2, .bytes (lit "exit"))]

/-- A move of one chair that takes the king of another. -/
def capture (seat target : Seat) : Bytes :=
  message .moveChess
    [ (1, .varint 1), (2, .varint seat.location.toNat), (3, .varint 1)
    , (4, .varint 1), (5, .varint 1), (6, .varint 2), (7, .varint 1)
    , (9, .varint target.location.toNat) ]

/-- A move of one chair that takes nothing. -/
def move (seat : Seat) : Bytes :=
  message .moveChess
    [ (1, .varint 1), (2, .varint seat.location.toNat), (3, .varint 1)
    , (4, .varint 1), (5, .varint 1), (6, .varint 2), (7, .varint 0) ]

/-- Agree to take the last capture back. -/
def acceptUndo (seat target : Seat) : Bytes :=
  message .undoReps
    [ (1, .varint 1), (2, .varint seat.location.toNat)
    , (3, .varint target.location.toNat), (4, .varint 1) ]

/-! ## Runs -/

/-- Session `u` connects, logs in as `account` and takes a chair. -/
def enter (u : SessionId) (account : String) (board : Nat) (seat : Seat) :
    List Event :=
  [ .accept (10 + u), .read u (login account), .read u adImageReq
  , .read u (requestPlay board seat) ]

/-- Three sessions sit down at board 1 and start a game. -/
def startGame : List Event :=
  enter 0 "a" 1 .left ++ enter 1 "b" 1 .right ++ enter 2 "c" 1 .bottom ++
    [ .read 0 (gameReady .left), .read 1 (gameReady .right)
    , .read 2 (gameReady .bottom) ]

/-- The state after a list of events that meet a condition, if the server
survives them. -/
def after (ok : Event → World → Prop) [∀ e w, Decidable (ok e w)]
    (events : List Event) : Option World :=
  (server env).run ok events World.init

/-- A run that ends in a state with some property leads to such a state. -/
theorem reachable_after (ok : Event → World → Prop)
    [∀ e w, Decidable (ok e w)] (events : List Event) (test : World → Bool)
    (h : (after ok events).any test = true) :
    ∃ w, (server env).ReachableWith ok w ∧ test w = true := by
  obtain ⟨w, hw, htest⟩ := (Option.any_eq_true _ _).mp h
  exact ⟨w, Machine.reachableWith_of_run .start hw, htest⟩

/-- A run in two parts, with its states and events. -/
theorem history_after (ok ok' : Event → World → Prop)
    [∀ e w, Decidable (ok e w)] [∀ e w, Decidable (ok' e w)]
    (es es' : List Event) (test test' : World → Bool)
    (h : ((after ok es).any fun w =>
      test w && ((server env).run ok' es' w).any test') = true) :
    ∃ states events,
      (server env).History states events (es.length + es'.length) ∧
      (∀ i, i < es.length → ok (events i) (states i)) ∧
      (∀ i, es.length ≤ i → i < es.length + es'.length →
        ok' (events i) (states i)) ∧
      (∀ i e, es'[i]? = some e → events (es.length + i) = e) ∧
      test (states es.length) = true ∧
      test' (states (es.length + es'.length)) = true := by
  obtain ⟨w, hw, htest⟩ := (Option.any_eq_true _ _).mp h
  rw [Bool.and_eq_true] at htest
  obtain ⟨w', hw', htest'⟩ := (Option.any_eq_true _ _).mp htest.2
  obtain ⟨states, events, hist, _, _, hok, _, hend⟩ :=
    (Machine.History.nil (.accept 0)).extend hw
  rw [Nat.zero_add] at hist hok hend
  obtain ⟨states', events', hist', hstates, hevents, hok', hes', hend'⟩ :=
    hist.extend (hend ▸ hw')
  refine ⟨states', events', hist', fun i hi => ?_, hok', hes', ?_,
    hend' ▸ htest'⟩
  · rw [hevents i hi, hstates i (Nat.le_of_lt hi)]
    exact hok i (Nat.zero_le i) hi
  · rw [hstates _ (Nat.le_refl _), hend]
    exact htest.1

/-! ## A game of three -/

theorem playing_of_player {t : Table} {seat : Seat} {u : SessionId}
    {score : UInt32} (h : t.players seat = some ⟨u, .playing, score⟩) :
    t.isPlaying seat = true := by
  simp [Table.isPlaying, Table.passes, Table.status, h]

/-- Who sits on the chair of a player. -/
theorem session_of_player {w : World} {b : BoardPtr} {seat : Seat}
    {u : SessionId} {status : UserGameStatus} {score : UInt32}
    (h : (w.table b).players seat = some ⟨u, status, score⟩) :
    (w.boards b).seat seat = some u ∧ ∃ s, w.users u = some s ∧
      s.status = status ∧ s.userInfo.score = score := by
  simp only [World.table, Option.bind_eq_bind, Option.bind_eq_some_iff,
    Option.some.injEq, Player.mk.injEq] at h
  obtain ⟨_, hseat, s, hs, rfl, hstatus, hscore⟩ := h
  exact ⟨hseat, s, hs, hstatus, hscore⟩

/-- What the server reads in a capture. -/
theorem parse_capture (seat target : Seat) :
    (env.proto.moveChess (body (capture seat target))).any (fun m =>
      m.isWinner && m.srcLocate == seat.location &&
        m.targetLocate == target.location) = true := by
  cases seat <;> cases target <;> decide +kernel

/-- What it reads in an agreement. -/
theorem parse_acceptUndo (seat target : Seat) :
    (env.proto.undo (body (acceptUndo seat target))).any (·.accepted) =
      true := by
  cases seat <;> cases target <;> decide +kernel

/-- The game that the three start, each with 100 points: hall 1 counts them,
and one less once the chair on the left is vacated. -/
theorem game_of_three :
    ∃ w, (server env).Reachable w ∧
      ((w.boards ⟨1, 1⟩).currUserNum = 3 ∧ w.getCurrentPeopleNum 1 = 3 ∧
        (w.modifyBoard ⟨1, 1⟩ fun board =>
          (board.leaveOutRoom locationLeft).2).getCurrentPeopleNum 1 = 2) ∧
      (w.table ⟨1, 1⟩).players .left = some ⟨0, .playing, 100⟩ ∧
      (w.table ⟨1, 1⟩).players .right = some ⟨1, .playing, 100⟩ ∧
      (w.table ⟨1, 1⟩).players .bottom = some ⟨2, .playing, 100⟩ := by
  obtain ⟨w, hreach, htest⟩ := reachable_after (fun _ _ => True) startGame
    (fun w => decide (((w.boards ⟨1, 1⟩).currUserNum = 3 ∧
      w.getCurrentPeopleNum 1 = 3 ∧
      (w.modifyBoard ⟨1, 1⟩ fun board =>
        (board.leaveOutRoom locationLeft).2).getCurrentPeopleNum 1 = 2) ∧
      (w.table ⟨1, 1⟩).players .left = some ⟨0, .playing, 100⟩ ∧
      (w.table ⟨1, 1⟩).players .right = some ⟨1, .playing, 100⟩ ∧
      (w.table ⟨1, 1⟩).players .bottom = some ⟨2, .playing, 100⟩))
    (by decide +kernel)
  exact ⟨w, hreach, of_decide_eq_true htest⟩

end Client

end ChessServer
