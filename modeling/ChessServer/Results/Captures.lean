import ChessServer.Model.Client
import ChessServer.Proofs.Captures
import ChessServer.Proofs.Step

/-!
# Captures, undos and empty seats

What `MoveChessHandle` and `UndoHandle` do on any board that a run reaches:
when an undo takes back a capture, when a capture is one transfer of ten
points (`capture_all_or_nothing`), and when the seats that they ask for are
taken (`needed_seats_are_taken`).
-/

namespace ChessServer

/-! ## Taking a capture back -/

/-- A capture and its undo leave everybody at a board as they were. -/
def TakenBack (env : Env) (b : BoardPtr) (move undo : Bytes)
    (type : MessageType) (w : World) : Prop :=
  ∃ w₁ w₂, moveChessHandle env b move w = some (true, w₁) ∧
    undoHandle env b undo type w₁ = some (true, w₂) ∧
    (w₂.table b).players = (w.table b).players

/-- A player captures another one and the undo is agreed to: both handlers
complete, and every score and status is as before exactly when three users
were PLAYING. -/
theorem undo_takes_capture_back {env : Env} {w : World}
    (h : (server env).Reachable w) (b : BoardPtr) {move undo : Bytes}
    {type : MessageType} {m : MoveChess} {u : Undo} {source target : Seat}
    (hmove : env.proto.moveChess move = some m)
    (hundo : env.proto.undo undo = some u) (hwin : m.isWinner = true)
    (haccepted : u.accepted = true) (hsrc : m.srcLocate = source.location)
    (htarget : m.targetLocate = target.location) (hne : source ≠ target)
    (hsource : (w.table b).isPlaying source = true)
    (hplaying : (w.table b).isPlaying target = true) :
    TakenBack env b move undo type w ↔ (w.table b).active = 3 := by
  have hinv := reachable_inv h
  have hseated : ∀ seat, (w.table b).isPlaying seat = true →
      ∃ v, (w.boards b).getUserByLocation seat.location = some v := by
    intro seat hplays
    obtain ⟨p, hp, _⟩ := Table.isPlaying_player hplays
    simp only [World.table, Option.bind_eq_bind, Option.bind_eq_some_iff] at hp
    obtain ⟨v, hv, _⟩ := hp
    exact ⟨v, by rw [getUserByLocation_location, hv]⟩
  obtain ⟨mover, hmover⟩ := hseated source hsource
  obtain ⟨w₁, h₁⟩ := moveChessHandle_completes env hinv hmove (hsrc ▸ hmover)
  obtain ⟨_, p₁, _⟩ := moveChessHandle_plays hinv.seating.distinct hmove h₁
  have hinv₁ : w₁.layout.Inv := p₁.layout.symm ▸ hinv
  have hwinner : (w₁.boards b).recentWinnerLocate = source.location := by
    have hrecent := (Table.recent_move (t := w.table b) hwin).1
    rw [← p₁.table, hsrc] at hrecent
    exact hrecent
  have hloser : (w₁.boards b).recentLoserLocate = target.location := by
    have hrecent := (Table.recent_move (t := w.table b) hwin).2
    rw [← p₁.table, htarget] at hrecent
    exact hrecent
  obtain ⟨w₂, h₂⟩ := undoHandle_completes env (b := b) type hinv₁ hundo (by
    intro _ locate hmem
    unfold ChessBoard.recent at hmem
    rw [hwinner, if_pos source.location_ne_max] at hmem
    rw [p₁.user locate]
    rcases List.mem_cons.mp hmem with rfl | hmem
    · exact hseated source hsource
    · rw [List.mem_singleton.mp hmem, hloser]
      exact hseated target hplaying)
  obtain ⟨_, p₂⟩ := undoHandle_plays hinv₁.seating.distinct hundo h₂
  rw [if_pos haccepted, p₁.table] at p₂
  have hiff := Table.undo_move_iff (t := w.table b) hwin hsrc htarget hne
    hsource hplaying
  rw [← p₂.table] at hiff
  constructor
  · rintro ⟨w₁', w₂', h₁', h₂', hsame⟩
    rw [h₁] at h₁'
    cases h₁'
    rw [h₂] at h₂'
    cases h₂'
    exact hiff.mp hsame
  · intro hthree
    exact ⟨w₁, w₂, h₁, h₂, hiff.mpr hthree⟩

/-- The player on the left captures the one on the right in a game of
three. -/
theorem undo_takes_capture_back_three :
    ∃ w, (server Client.env).Reachable w ∧
      TakenBack Client.env ⟨1, 1⟩ (Client.body (Client.capture .left .right))
        (Client.body (Client.acceptUndo .right .left)) .undoReps w := by
  obtain ⟨w, hreach, _, hleft, hright, hbottom⟩ := Client.game_of_three
  have hthree : (w.table ⟨1, 1⟩).active = 3 := by
    simp [Table.active, Table.count, Table.passes, Table.status, hleft, hright,
      hbottom]
  obtain ⟨m, hm, hm'⟩ := (Option.any_eq_true _ _).mp
    (Client.parse_capture .left .right)
  obtain ⟨u, hu, hu'⟩ := (Option.any_eq_true _ _).mp
    (Client.parse_acceptUndo .right .left)
  simp only [Bool.and_eq_true, beq_iff_eq] at hm'
  exact ⟨w, hreach, (undo_takes_capture_back hreach ⟨1, 1⟩ hm hu hm'.1.1 hu'
    hm'.1.2 hm'.2 (by decide) (Client.playing_of_player hleft)
    (Client.playing_of_player hright)).mpr hthree⟩

/-- The left player captures first the right one and then the last one left:
the undo puts the captured player back into the game, but not the mover. -/
theorem undo_leaves_mover_out :
    ¬ ∀ (env : Env) (w : World), (server env).Reachable w →
      ∀ (b : BoardPtr) (move undo : Bytes) (type : MessageType)
        (m : MoveChess) (u : Undo) (source target : Seat),
        env.proto.moveChess move = some m → env.proto.undo undo = some u →
        m.isWinner = true → u.accepted = true →
        m.srcLocate = source.location → m.targetLocate = target.location →
        source ≠ target → (w.table b).isPlaying source = true →
        (w.table b).isPlaying target = true →
        TakenBack env b move undo type w := by
  intro hclaim
  obtain ⟨w, hreach, htest⟩ := Client.reachable_after (fun _ _ => True)
    (Client.startGame ++ [.read 0 (Client.capture .left .right)])
    (fun w => (w.table ⟨1, 1⟩).isPlaying .left &&
      (w.table ⟨1, 1⟩).isPlaying .bottom &&
      (moveChessHandle Client.env ⟨1, 1⟩
        (Client.body (Client.capture .left .bottom)) w).any fun r₁ =>
      (undoHandle Client.env ⟨1, 1⟩
        (Client.body (Client.acceptUndo .bottom .left)) .undoReps r₁.2).any
      fun r₂ => (r₂.2.table ⟨1, 1⟩).status .left == some .ended)
    (by decide +kernel)
  obtain ⟨m, hm, hm'⟩ := (Option.any_eq_true _ _).mp
    (Client.parse_capture .left .bottom)
  obtain ⟨u, hu, hu'⟩ := (Option.any_eq_true _ _).mp
    (Client.parse_acceptUndo .bottom .left)
  simp only [Bool.and_eq_true, beq_iff_eq] at hm' htest
  obtain ⟨w₁, w₂, h₁, h₂, hsame⟩ := hclaim Client.env w hreach ⟨1, 1⟩ _ _
    .undoReps m u .left .bottom hm hu hm'.1.1 hu' hm'.1.2 hm'.2 (by decide)
    htest.1.1 htest.1.2
  have hended := htest.2
  rw [h₁, Option.any_some, h₂, Option.any_some, beq_iff_eq] at hended
  have hstatus : (w₂.table ⟨1, 1⟩).status .left =
      (w.table ⟨1, 1⟩).status .left := by
    unfold Table.status
    rw [hsame]
  have hplays := htest.1.1
  unfold Table.isPlaying Table.passes at hplays
  rw [← hstatus, hended] at hplays
  cases hplays

/-! ## All or nothing -/

/-- A capture is handled, and it is one transfer of ten points or nothing. -/
def CapturesWhole (env : Env) (b : BoardPtr) (msg : Bytes) (m : MoveChess)
    (w : World) : Prop :=
  ∃ w', moveChessHandle env b msg w = some (true, w') ∧
    (w.table b).AllOrNothing m (w'.table b)

/-- A capture is all or nothing exactly when one player captures another who
has the points, or when somebody whose game is over repeats a capture of
itself. -/
theorem capture_all_or_nothing {env : Env} {w : World}
    (h : (server env).Reachable w) (b : BoardPtr) {msg : Bytes}
    {m : MoveChess} (hmsg : env.proto.moveChess msg = some m)
    (hwin : m.isWinner = true) :
    CapturesWhole env b msg m w ↔
      (w.table b).Fits m ∨ (w.table b).Repeats m := by
  have hinv := reachable_inv h
  have hplayer : ∀ seat v, (w.boards b).seat seat = some v →
      ∃ p, (w.table b).players seat = some p := by
    intro seat v hv
    obtain ⟨q, hq, _⟩ := hinv.seating.seated
      (show w.layout.seats b seat = some v from hv)
    obtain ⟨s, hs, _⟩ := place_session hq
    exact ⟨_, table_players hv hs⟩
  have hnobody : ∀ seat p, (w.table b).players seat = some p →
      ∃ v, (w.boards b).getUserByLocation seat.location = some v := by
    intro seat p hp
    simp only [World.table, Option.bind_eq_bind, Option.bind_eq_some_iff] at hp
    obtain ⟨v, hv, _⟩ := hp
    exact ⟨v, by rw [getUserByLocation_location, hv]⟩
  constructor
  · rintro ⟨w', hw', hwhole⟩
    obtain ⟨_, p, source, hsrc, hsource⟩ :=
      moveChessHandle_plays hinv.seating.distinct hmsg hw'
    obtain ⟨v, hv⟩ := Option.ne_none_iff_exists'.mp hsource
    obtain ⟨q, hq⟩ := hplayer source v hv
    rw [p.table] at hwhole
    exact (Table.allOrNothing_move hwin hsrc hq).mp hwhole
  · intro hfits
    obtain ⟨source, q, hsrc, hq⟩ : ∃ source q,
        m.srcLocate = Seat.location source ∧
        (w.table b).players source = some q := by
      rcases hfits with ⟨source, _, hsrc, _, _, hplays, _⟩ |
        ⟨seat, hsrc, _, hended, _⟩
      · obtain ⟨q, hq, _⟩ := Table.isPlaying_player hplays
        exact ⟨source, q, hsrc, hq⟩
      · obtain ⟨q, hq, _⟩ := Option.map_eq_some_iff.mp hended
        exact ⟨seat, q, hsrc, hq⟩
    obtain ⟨v, hv⟩ := hnobody source q hq
    obtain ⟨w', hw'⟩ := moveChessHandle_completes env hinv hmsg (hsrc ▸ hv)
    obtain ⟨_, p, _⟩ := moveChessHandle_plays hinv.seating.distinct hmsg hw'
    refine ⟨w', hw', ?_⟩
    rw [p.table]
    exact (Table.allOrNothing_move hwin hsrc hq).mpr hfits

/-- The player on the left captures the one on the right. -/
theorem capture_all_or_nothing_right :
    ∃ w m, (server Client.env).Reachable w ∧
      CapturesWhole Client.env ⟨1, 1⟩
        (Client.body (Client.capture .left .right)) m w := by
  obtain ⟨w, hreach, _, hleft, hright, _⟩ := Client.game_of_three
  obtain ⟨m, hm, hm'⟩ := (Option.any_eq_true _ _).mp
    (Client.parse_capture .left .right)
  simp only [Bool.and_eq_true, beq_iff_eq] at hm'
  have hrich : 10 ≤ (w.table ⟨1, 1⟩).points .right := by
    simp [Table.points, hright]
  have hfits : (w.table ⟨1, 1⟩).points .left + 10 < 4294967296 := by
    simp [Table.points, hleft]
  exact ⟨w, m, hreach, (capture_all_or_nothing hreach ⟨1, 1⟩ hm hm'.1.1).mpr
    (Or.inl ⟨.left, .right, hm'.1.2, hm'.2, by decide,
      Client.playing_of_player hleft, Client.playing_of_player hright,
      by omega, by omega⟩)⟩

/-- A player captures itself: its game is over, no points have moved, and the
capture is remembered. -/
theorem capture_of_oneself :
    ¬ ∀ (env : Env) (w : World), (server env).Reachable w →
      ∀ (b : BoardPtr) (msg : Bytes) (m : MoveChess),
        env.proto.moveChess msg = some m → m.isWinner = true →
        CapturesWhole env b msg m w := by
  intro hclaim
  obtain ⟨w, hreach, htest⟩ := Client.reachable_after (fun _ _ => True)
    Client.startGame (fun w => (w.table ⟨1, 1⟩).isPlaying .left &&
      (moveChessHandle Client.env ⟨1, 1⟩
        (Client.body (Client.capture .left .left)) w).any fun r =>
      (r.2.table ⟨1, 1⟩).status .left == some .ended) (by decide +kernel)
  obtain ⟨m, hm, hm'⟩ := (Option.any_eq_true _ _).mp
    (Client.parse_capture .left .left)
  simp only [Bool.and_eq_true, beq_iff_eq] at hm' htest
  obtain ⟨w', hw', hwhole⟩ := hclaim Client.env w hreach ⟨1, 1⟩ _ m hm hm'.1.1
  have hended := htest.2
  rw [hw', Option.any_some, beq_iff_eq] at hended
  rcases hwhole with ⟨source, target, hsrc, htarget, hcap⟩ | hsame
  · refine hcap.distinct (Seat.location_injective ?_)
    rw [← hsrc, ← htarget, hm'.1.2, hm'.2]
  · have hplays := htest.1
    unfold Table.isPlaying Table.passes Table.status at hplays
    unfold Table.status at hended
    rw [← hsame.players, hended] at hplays
    cases hplays

/-! ## Empty seats -/

/-- A message that asks for the users on some seats is handled; if one of the
seats is empty it is ignored. -/
def HandledSafely (b : BoardPtr) (needed : List Location) (w : World)
    (result : Option (Bool × World)) : Prop :=
  ∃ ret w', result = some (ret, w') ∧
    ((∃ locate ∈ needed, (w.boards b).getUserByLocation locate = none) →
      w'.table b = w.table b)

/-- All the seats are taken. -/
def ChessBoard.Taken (board : ChessBoard) (needed : List Location) : Prop :=
  ∀ locate ∈ needed, ∃ u, board.getUserByLocation locate = some u

theorem handledSafely_of_taken {b : BoardPtr} {needed : List Location}
    {w w' : World} {ret : Bool} {result : Option (Bool × World)}
    (htaken : (w.boards b).Taken needed) (h : result = some (ret, w')) :
    HandledSafely b needed w result := by
  refine ⟨ret, w', h, ?_⟩
  rintro ⟨locate, hmem, hnone⟩
  obtain ⟨u, hu⟩ := htaken locate hmem
  rw [hnone] at hu
  cases hu

/-- The seats whose users an undo response asks for. -/
def Undo.needs (undo : Undo) (board : ChessBoard) : List Location :=
  if undo.accepted then board.recent else []

/-- A move needs a user on the seat it names as source and an undo that was
agreed to needs users on both seats of the last capture; the server handles
these messages exactly when they are there. -/
theorem needed_seats_are_taken {env : Env} {w : World}
    (h : (server env).Reachable w) (b : BoardPtr) (msg : Bytes) :
    (∀ m, env.proto.moveChess msg = some m →
      (HandledSafely b [m.srcLocate] w (moveChessHandle env b msg w) ↔
        (w.boards b).Taken [m.srcLocate])) ∧
    ∀ undo type, env.proto.undo msg = some undo →
      (HandledSafely b (undo.needs (w.boards b)) w
          (undoHandle env b msg type w) ↔
        (w.boards b).Taken (undo.needs (w.boards b))) := by
  have hinv := reachable_inv h
  refine ⟨fun m hmsg => ⟨?_, fun htaken => ?_⟩,
    fun undo type hmsg => ⟨?_, fun htaken => ?_⟩⟩
  · rintro ⟨ret, w', hw', _⟩ locate hmem
    obtain ⟨_, _, seat, hsrc, hseat⟩ :=
      moveChessHandle_plays hinv.seating.distinct hmsg hw'
    obtain ⟨v, hv⟩ := Option.ne_none_iff_exists'.mp hseat
    rw [List.mem_singleton.mp hmem, hsrc, getUserByLocation_location]
    exact ⟨v, hv⟩
  · obtain ⟨v, hv⟩ := htaken m.srcLocate (List.mem_singleton_self _)
    obtain ⟨w', hw'⟩ := moveChessHandle_completes env hinv hmsg hv
    exact handledSafely_of_taken htaken hw'
  · rintro ⟨ret, w', hw', _⟩ locate hmem
    unfold Undo.needs at hmem
    split at hmem
    · rename_i haccepted
      exact undoHandle_needs hmsg haccepted hw' locate hmem
    · cases hmem
  · obtain ⟨w', hw'⟩ := undoHandle_completes env (b := b) type hinv hmsg (by
      intro haccepted
      unfold Undo.needs at htaken
      rwa [if_pos haccepted] at htaken)
    exact handledSafely_of_taken htaken hw'

/-- A move of a player in a game of three. -/
theorem needed_seats_are_taken_left :
    ∃ w, (server Client.env).Reachable w ∧
      HandledSafely ⟨1, 1⟩ [locationLeft] w (moveChessHandle Client.env ⟨1, 1⟩
        (Client.body (Client.capture .left .right)) w) := by
  obtain ⟨w, hreach, _, hleft, _, _⟩ := Client.game_of_three
  have hseat := (Client.session_of_player hleft).1
  obtain ⟨m, hm, hm'⟩ := (Option.any_eq_true _ _).mp
    (Client.parse_capture .left .right)
  simp only [Bool.and_eq_true, beq_iff_eq] at hm'
  have hsrc : m.srcLocate = locationLeft := hm'.1.2
  have hsafe := ((needed_seats_are_taken hreach ⟨1, 1⟩ _).1 m hm).mpr (by
    intro locate hmem
    rw [List.mem_singleton.mp hmem, hsrc]
    exact ⟨0, hseat⟩)
  rw [hsrc] at hsafe
  exact ⟨w, hreach, hsafe⟩

/-- The captured player leaves the board, and the undo that is agreed to
asks for it. -/
theorem needed_seat_is_empty :
    ¬ ∀ (env : Env) (w : World), (server env).Reachable w →
      ∀ (b : BoardPtr) (msg : Bytes),
        (∀ m, env.proto.moveChess msg = some m → HandledSafely b [m.srcLocate]
          w (moveChessHandle env b msg w)) ∧
        ∀ undo type, env.proto.undo msg = some undo →
          HandledSafely b (undo.needs (w.boards b)) w
            (undoHandle env b msg type w) := by
  intro hclaim
  obtain ⟨w, hreach, htest⟩ := Client.reachable_after (fun _ _ => True)
    (Client.startGame ++ [.read 0 (Client.capture .left .right),
      .read 1 (Client.exit .right)]) (fun w => (undoHandle Client.env ⟨1, 1⟩
        (Client.body (Client.acceptUndo .bottom .left)) .undoReps w).isNone)
    (by decide +kernel)
  obtain ⟨u, hu, _⟩ := (Option.any_eq_true _ _).mp
    (Client.parse_acceptUndo .bottom .left)
  obtain ⟨ret, w', hw', _⟩ := (hclaim Client.env w hreach ⟨1, 1⟩ _).2 u
    .undoReps hu
  rw [hw'] at htest
  cases htest

end ChessServer
