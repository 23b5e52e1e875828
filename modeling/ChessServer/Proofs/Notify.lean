import ChessServer.Server.Thread
import ChessServer.Lib.OptionFold

/-!
# What a notification changes

Replies and broadcasts fill output buffers, and wrapping a hall publishes
the boards that did not exist yet.  `Notified` says that nothing else is
different; every function that only informs clients satisfies it, and it
completes as long as the sessions it writes to are connected.  The largest of
them is `BroadCastHallInfo` (`broadCastHallInfo_notified`).
-/

namespace ChessServer

/-- Two worlds that differ in output buffers and published boards only. -/
structure Notified (w w' : World) : Prop where
  users : w'.users = w.users
  nextUser : w'.nextUser = w.nextUser
  boards : w'.boards = w.boards
  fdSessionMap : w'.fdSessionMap = w.fdSessionMap
  sessionList : w'.sessionList = w.sessionList
  sqlLog : w'.sqlLog = w.sqlLog

theorem Notified.refl (w : World) : Notified w w :=
  ⟨rfl, rfl, rfl, rfl, rfl, rfl⟩

theorem Notified.trans {w₁ w₂ w₃ : World} (h₁ : Notified w₁ w₂)
    (h₂ : Notified w₂ w₃) : Notified w₁ w₃ :=
  ⟨h₂.users.trans h₁.users, h₂.nextUser.trans h₁.nextUser,
    h₂.boards.trans h₁.boards, h₂.fdSessionMap.trans h₁.fdSessionMap,
    h₂.sessionList.trans h₁.sessionList, h₂.sqlLog.trans h₁.sqlLog⟩

/-! ## Replies -/

theorem getBuffer_notified (u : SessionId) (size : Nat) (w : World) :
    Notified w (w.getBuffer u size) := by
  unfold World.getBuffer
  split
  · exact ⟨rfl, rfl, rfl, rfl, rfl, rfl⟩
  · split
    · exact ⟨rfl, rfl, rfl, rfl, rfl, rfl⟩
    · exact Notified.refl w

/-- `GetBuffer` returns room for what is asked. -/
theorem getBuffer_capacity (u : SessionId) (size : Nat) (w : World) :
    size ≤ (w.getBuffer u size).bufSize u := by
  unfold World.getBuffer
  split
  · rename_i hfresh
    show size ≤ Function.update w.bufSize u maxDataLength u
    rw [Function.update_self]
    exact Nat.le_of_lt hfresh.2
  · split
    · show size ≤ Function.update w.bufSize u size u
      rw [Function.update_self]
    · omega

/-- Writing a message only sends it. -/
theorem onWrite_notified {env : Env} {fd : Int} {type : MessageType}
    {body : Payload} {u : SessionId} {w w' : World} {ret : Bool}
    (h : onWrite env fd type body u w = some (ret, w')) : Notified w w' := by
  unfold onWrite at h
  have hbuf := getBuffer_notified u ((body.bytes env).length + dataHeadLength) w
  split at h
  · cases h
    exact hbuf
  · simp only [Option.bind_eq_bind, Option.bind_eq_some_iff] at h
    obtain ⟨s, _, bufev, _, h⟩ := h
    cases h
    exact hbuf.trans ⟨rfl, rfl, rfl, rfl, rfl, rfl⟩

/-- So does replying. -/
theorem messageReply_notified {env : Env} {u : SessionId}
    {type : MessageType} {body : Payload} {w w' : World} {ret : Bool}
    (h : messageReply env u type body w = some (ret, w')) :
    Notified w w' := by
  simp only [messageReply, Option.bind_eq_bind, Option.bind_eq_some_iff] at h
  obtain ⟨s, _, t, _, h⟩ := h
  exact onWrite_notified h

/-- And a broadcast. -/
theorem broadCastMsg_notified {env : Env} {this : BoardPtr}
    {type : MessageType} {body : Payload} {filter : UInt32} {w w' : World}
    (h : broadCastMsg env this type body filter w = some w') :
    Notified w w' := by
  refine OptionFold.rel_of_step Notified.refl Notified.trans ?_ locations h
  intro w locate w' h
  split at h
  · split at h
    · simp only [Option.map_eq_some_iff] at h
      obtain ⟨r, hr, rfl⟩ := h
      exact messageReply_notified hr
    · cases h
      exact Notified.refl w
  · cases h
    exact Notified.refl w

/-! ## Halls -/

theorem createChessBoard_notified (hall id : UInt32) (w : World) :
    Notified w (w.createChessBoard hall id).2 := by
  unfold World.createChessBoard
  dsimp only
  split
  · exact Notified.refl w
  · exact ⟨rfl, rfl, rfl, rfl, rfl, rfl⟩

/-- Looking a board up seats nobody. -/
theorem getChessBoardByID_notified (hall id : UInt32) (w : World) :
    Notified w (w.getChessBoardByID hall id).2 := by
  unfold World.getChessBoardByID
  split
  · exact Notified.refl w
  · split
    · exact Notified.refl w
    · dsimp only
      split
      · exact createChessBoard_notified hall id w
      · exact createChessBoard_notified hall id w

theorem publishNamed_notified (env : Env) (msg : Bytes) (w : World) :
    Notified w (publishNamed env msg w) := by
  unfold publishNamed
  split
  · exact Notified.refl w
  · split
    · exact Notified.refl w
    · exact getChessBoardByID_notified _ _ w

/-- Without a board a message comes back if its handler does not look at
one. -/
theorem translateMsgNull_notified {env : Env} {type : MessageType}
    {msgType : UInt32} {msg : Bytes} {ret : Bool} {w w' : World}
    (hcode : MessageType.ofCode msgType = some type)
    (h : translateMsgNull env msgType msg w = some (ret, w')) :
    looksAtBoard env msg type = false ∧ ret = translates type ∧
      (type ≠ .requestPlay → w' = w) ∧ Notified w w' := by
  unfold translateMsgNull at h
  rw [hcode] at h
  dsimp only at h
  split at h
  · cases h
  · rename_i hlooks
    cases h
    refine ⟨by simpa using hlooks, rfl, fun hne => if_neg hne, ?_⟩
    split
    · exact publishNamed_notified env msg w
    · exact Notified.refl w

theorem wrapHallInfo_notified {hallId : UInt32} {info : Option HallInfo}
    {w w' : World} (h : wrapHallInfo hallId w = some (info, w')) :
    Notified w w' := by
  unfold wrapHallInfo at h
  split at h
  · cases h
    exact Notified.refl w
  · rename_i hall _
    simp only [Option.bind_eq_bind, Option.bind_eq_some_iff] at h
    obtain ⟨⟨boards, w₁⟩, hloop, h⟩ := h
    cases h
    refine OptionFold.rel_of_step
      (R := fun a b : List ChessBoardInfo × World => Notified a.2 b.2)
      (fun a => Notified.refl a.2) Notified.trans ?_ _ hloop
    intro acc j acc' hstep
    have hget := getChessBoardByID_notified hall j acc.2
    unfold wrapHallBoard at hstep
    revert hstep hget
    generalize acc.2.getChessBoardByID hall j = found
    obtain ⟨chessBoard, w₂⟩ := found
    intro hstep hget
    cases chessBoard with
    | none =>
        cases hstep
        exact hget
    | some b =>
        simp only [Option.bind_eq_bind, Option.bind_eq_some_iff] at hstep
        obtain ⟨info, _, hstep⟩ := hstep
        cases hstep
        exact hget

theorem gameHallSumaryHandle_notified {env : Env} {u : SessionId}
    {w w' : World} {ret : Bool}
    (h : gameHallSumaryHandle env u w = some (ret, w')) : Notified w w' := by
  simp only [gameHallSumaryHandle, Option.bind_eq_bind,
    Option.bind_eq_some_iff] at h
  obtain ⟨s, _, ⟨r, w₁⟩, hreply, h⟩ := h
  cases h
  exact messageReply_notified hreply

/-- Telling the hall changes no session and no board. -/
theorem broadCastHallInfo_notified {env : Env} {this : BoardPtr}
    {user : SessionId} {w w' : World}
    (h : broadCastHallInfo env this user w = some w') : Notified w w' := by
  simp only [broadCastHallInfo, Option.bind_eq_bind,
    Option.bind_eq_some_iff] at h
  obtain ⟨s, _, state, _, ⟨info, w₁⟩, hwrap, hloop⟩ := h
  refine (wrapHallInfo_notified hwrap).trans ?_
  refine OptionFold.rel_of_step Notified.refl Notified.trans ?_ _ hloop
  intro w u w' h
  simp only [sendHallInfo, Option.bind_eq_bind, Option.bind_eq_some_iff] at h
  obtain ⟨s, _, h⟩ := h
  split at h
  · simp only [Option.bind_eq_some_iff] at h
    obtain ⟨⟨_, w₂⟩, hreply, ⟨_, w₃⟩, hsum, h⟩ := h
    cases h
    exact (messageReply_notified hreply).trans
      (gameHallSumaryHandle_notified hsum)
  · simp only [Option.bind_eq_some_iff] at h
    obtain ⟨⟨_, w₂⟩, hreply, ⟨_, w₃⟩, hsum, h⟩ := h
    cases h
    exact (messageReply_notified hreply).trans
      (gameHallSumaryHandle_notified hsum)
  · cases h
    exact Notified.refl w

end ChessServer
