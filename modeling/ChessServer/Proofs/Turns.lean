import ChessServer.Model.Turns
import ChessServer.Proofs.Completes
import ChessServer.Proofs.Step

/-!
# What a move announces

`MoveChessHandle` sends one and the same `MoveAction` to everybody at the
board; its token is the one that `Table.token` computes from the table after
the capture (`step_mover`, `step_announces`).
-/

namespace ChessServer

/-! ## What is sent -/

/-- Who a broadcast to a board goes to. -/
def World.audience (w : World) (b : BoardPtr) (filter : UInt32) :
    List SessionId :=
  (locations.filter (· != filter)).filterMap (w.boards b).getUserByLocation

theorem getBuffer_sent (u : SessionId) (size : Nat) (w : World) :
    (w.getBuffer u size).sent = w.sent := (getBuffer_buffers u size w).sent

/-- A reply to a session with a descriptor is sent. -/
theorem messageReply_sent {env : Env} {u : SessionId} {type : MessageType}
    {body : Payload} {w w' : World} {ret : Bool}
    (honline : ∀ s, w.users u = some s → 0 ≤ s.clifd)
    (h : messageReply env u type body w = some (ret, w')) :
    ret = true ∧ w'.sent = ⟨u, type, body⟩ :: w.sent := by
  simp only [messageReply, onWrite, Option.bind_eq_bind,
    Option.bind_eq_some_iff] at h
  obtain ⟨s, hs, _, _, h⟩ := h
  have hfd : ¬ s.clifd < 0 := Int.not_lt.mpr (honline s hs)
  rw [if_neg hfd] at h
  simp only [Option.bind_eq_some_iff] at h
  obtain ⟨_, _, _, _, h⟩ := h
  cases h
  exact ⟨rfl, by rw [getBuffer_sent]⟩

/-- The sessions on chairs have descriptors. -/
def World.Online (w : World) (b : BoardPtr) : Prop :=
  ∀ seat u s, (w.boards b).seat seat = some u → w.users u = some s →
    0 ≤ s.clifd

/-- Everybody at a board can be written to. -/
theorem Layout.Connected.online {w : World} (hc : w.layout.Connected)
    (b : BoardPtr) : w.Online b := by
  intro seat u s hseat hs
  obtain ⟨p, hp, honline, _⟩ :=
    hc.seated (show w.layout.seats b seat = some u from hseat)
  simp only [World.layout, hs, Option.map_some, Option.some.injEq] at hp
  subst hp
  exact honline.clifd

theorem Notified.online {w w' : World} {b : BoardPtr} (h : Notified w w')
    (ho : w.Online b) : w'.Online b := by
  unfold World.Online
  rw [h.boards, h.users]
  exact ho

/-- A broadcast reaches everybody at the board except for one chair. -/
theorem broadCastMsg_sent {env : Env} {b : BoardPtr} {type : MessageType}
    {body : Payload} {filter : UInt32} {w w' : World} (ho : w.Online b)
    (h : broadCastMsg env b type body filter w = some w') :
    w'.sent = ((w.audience b filter).map fun u => ⟨u, type, body⟩).reverse ++
      w.sent := by
  unfold World.audience
  unfold broadCastMsg at h
  revert h
  generalize locations = places
  induction places generalizing w with
  | nil =>
      intro h
      cases h
      rfl
  | cons locate places ih =>
      intro h
      simp only [List.foldlM_cons, Option.bind_eq_bind,
        Option.bind_eq_some_iff] at h
      obtain ⟨w₁, hone, hrest⟩ := h
      by_cases hfilter : locate ≠ filter
      · rw [if_pos hfilter] at hone
        rw [List.filter_cons_of_pos (by simpa using hfilter),
          List.filterMap_cons]
        cases hu : (w.boards b).getUserByLocation locate with
        | none =>
            rw [hu] at hone
            cases hone
            exact ih ho hrest
        | some u =>
            rw [hu] at hone
            simp only [Option.map_eq_some_iff] at hone
            obtain ⟨⟨ret, w₂⟩, hreply, rfl⟩ := hone
            obtain ⟨seat, _, hseat⟩ := getUserByLocation_eq_some hu
            have n := messageReply_notified hreply
            have hsent := (messageReply_sent
              (fun s hs => ho seat u s hseat hs) hreply).2
            rw [ih (n.online ho) hrest, n.boards, hsent]
            simp
      · rw [if_neg hfilter] at hone
        cases hone
        rw [List.filter_cons_of_neg (by simpa using hfilter)]
        exact ih ho hrest

/-- The token that a message announces. -/
def Sent.token (x : Sent) : Option UInt32 :=
  match x.body with
  | .moveAction m => m.tokenLocate
  | _ => none

/-! ## MoveChessHandle -/

theorem increaseScore_sent {env : Env} {u : SessionId} {score : UInt32}
    {w w' : World} (h : increaseScore env u score w = some w') :
    w'.sent = w.sent := by
  simp only [increaseScore, Option.bind_eq_bind, Option.bind_eq_some_iff] at h
  obtain ⟨_, _, _, _, h⟩ := h
  cases h
  rfl

theorem reduceScore_sent {env : Env} {u : SessionId} {score : UInt32}
    {w w' : World} (h : reduceScore env u score w = some w') :
    w'.sent = w.sent := by
  simp only [reduceScore, Option.bind_eq_bind, Option.bind_eq_some_iff] at h
  obtain ⟨_, _, _, _, h⟩ := h
  cases h
  rfl

theorem modifyUser_sent {u : SessionId} {f : UserSession → UserSession}
    {w w' : World} (h : w.modifyUser u f = some w') : w'.sent = w.sent := by
  simp only [World.modifyUser, Option.map_eq_some_iff] at h
  obtain ⟨_, _, rfl⟩ := h
  rfl

/-- A capture by itself sends nothing. -/
theorem moveCapture_sent {env : Env} {b : BoardPtr} {m : MoveChess}
    {w w' : World} (h : moveCapture env b m w = some w') :
    w'.sent = w.sent := by
  unfold moveCapture at h
  split at h
  · simp only [Option.bind_eq_bind, Option.bind_eq_some_iff] at h
    obtain ⟨src, _, w₁, hgain, h⟩ := h
    have hsent : w₁.sent = w.sent := (increaseScore_sent hgain).trans rfl
    split at h
    · simp only [Option.bind_eq_some_iff] at h
      obtain ⟨w₂, hlose, h⟩ := h
      rw [modifyUser_sent h, reduceScore_sent hlose, hsent]
    · cases h
      exact hsent
  · cases h
    rfl

/-- The token after the capture of a mover on a chair. -/
theorem moveToken_token {b : BoardPtr} {seat : Seat} {u : SessionId}
    {token : Option UInt32} {w w' : World}
    (h : moveToken b u seat.location w = some (token, w')) :
    token = some ((w.table b).token seat) ∧ w'.sent = w.sent := by
  have hnext : ∀ first second : Seat,
      ∀ t, tokenOf b first second w = some t →
        t = if (w.table b).isPlaying first then first.location
          else second.location := by
    intro first second t ht
    simp only [tokenOf, Option.bind_eq_bind, Option.bind_eq_some_iff] at ht
    obtain ⟨playing, hplaying, ht⟩ := ht
    cases ht
    rw [Table.isPlaying, ← seatStatus_eq first hplaying]
  simp only [moveToken, Option.bind_eq_bind, Option.bind_eq_some_iff] at h
  obtain ⟨num, hnum, h⟩ := h
  rw [getActiveUsersNum_eq hnum] at h
  unfold Table.token
  split at h
  · rename_i hactive
    simp only [Option.bind_eq_some_iff] at h
    obtain ⟨t, ht, h⟩ := h
    cases h
    rw [if_pos hactive]
    refine ⟨?_, rfl⟩
    simp only [nextToken, seatAt_location] at ht
    cases seat <;>
    · simp only [Option.map_eq_some_iff] at ht
      obtain ⟨r, hr, rfl⟩ := ht
      rw [hnext _ _ r hr]
      rfl
  · rename_i hactive
    simp only [Option.bind_eq_some_iff] at h
    obtain ⟨w₁, hended, h⟩ := h
    cases h
    rw [if_neg hactive]
    exact ⟨rfl, modifyUser_sent hended⟩

/-- The messages that a move adds to what was sent. -/
theorem moveChessHandle_sent {env : Env} {b : BoardPtr} {msg : Bytes}
    {m : MoveChess} {seat : Seat} {ret : Bool} {w w' : World}
    (hinv : w.layout.Inv) (hmsg : env.proto.moveChess msg = some m)
    (hsrc : m.srcLocate = seat.location)
    (h : moveChessHandle env b msg w = some (ret, w')) :
    ∃ news : List Sent, (∀ x ∈ news, x.token = none) ∧
      w'.sent = news ++ ((w.audience b locationMax).map fun u =>
        ⟨u, .announceMove, .moveAction ⟨seat.location, m,
          some (((w.table b).capture m).token seat)⟩⟩).reverse ++ w.sent := by
  simp only [moveChessHandle, hmsg, Option.bind_eq_bind,
    Option.bind_eq_some_iff] at h
  obtain ⟨w₁, hcapture, src, huser, s, hs, ⟨token, w₂⟩, htoken, w₃, hannounce,
    h⟩ := h
  have p₁ := moveCapture_plays hinv.seating.distinct hcapture
  rw [hsrc, getUserByLocation_location] at huser
  -- the mover's own `locate` is its chair
  have hseat₁ : (w₁.boards b).seat seat = some src := by rwa [p₁.seats]
  have hlocate : s.locate = seat.location := by
    obtain ⟨p, hp, _, hlocate⟩ :=
      (p₁.layout ▸ hinv.seating : w₁.layout.Seating).seated hseat₁
    simp only [World.layout, hs, Option.map_some, Option.some.injEq] at hp
    subst hp
    exact hlocate
  have p₂ := moveToken_plays (p₁.distinct hinv.seating.distinct) hseat₁ htoken
  rw [hlocate] at htoken
  obtain ⟨rfl, hsent₂⟩ := moveToken_token htoken
  rw [hlocate, p₁.table] at hannounce
  have hlayout : w₂.layout = w.layout := p₂.layout.trans p₁.layout
  have hc : w₂.layout.Connected := hlayout ▸ hinv.connected
  have hseats : (w₂.boards b).seat = (w.boards b).seat :=
    (p₂.seats b).trans (p₁.seats b)
  have haudience : w₂.audience b locationMax = w.audience b locationMax := by
    unfold World.audience
    congr 1
    funext locate
    unfold ChessBoard.getUserByLocation
    have hl := congrFun hseats .left
    have hr := congrFun hseats .right
    have hb := congrFun hseats .bottom
    simp only [ChessBoard.seat] at hl hr hb
    rw [hl, hr, hb]
  have hsent₃ := broadCastMsg_sent (hc.online b) hannounce
  rw [haudience, hsent₂, moveCapture_sent hcapture] at hsent₃
  split at h
  · simp only [Option.bind_eq_some_iff] at h
    obtain ⟨info, _, w₄, hboard, h⟩ := h
    cases h
    have n₃ := broadCastMsg_notified hannounce
    refine ⟨((w₃.audience b locationMax).map fun u =>
      ⟨u, .chessBoard, .chessBoardInfo info⟩).reverse, ?_, ?_⟩
    · intro x hx
      simp only [List.mem_reverse, List.mem_map] at hx
      obtain ⟨_, _, rfl⟩ := hx
      rfl
    · rw [broadCastMsg_sent (n₃.online (hc.online b)) hboard, hsent₃,
        List.append_assoc]
  · cases h
    exact ⟨[], by simp, by simpa using hsent₃⟩

/-! ## The event behind a move -/

/-- A move is a message of a session on the board. -/
theorem act_move {env : Env} {w : World} {e : Event} {b : BoardPtr}
    {m : MoveChess} (h : w.act env e = some (b, .move m)) :
    ∃ u data msgType msg s, e = .read u data ∧
      w.received u data = .message msgType msg ∧ w.users u = some s ∧
      s.stateMachine = some .gamePlay ∧ s.currChessBoard = some b ∧
      MessageType.ofCode msgType = some .moveChess ∧
      env.proto.moveChess msg = some m := by
  have hclose : ∀ u, w.closeAct u ≠ some (b, .move m) := by
    intro u h
    simp [World.closeAct, Option.map_eq_some_iff] at h
  cases e with
  | accept fd => cases h
  | event u events =>
      simp only [World.act] at h
      split at h
      · exact absurd h (hclose u)
      · cases h
  | timer u => exact absurd h (hclose u)
  | read u data =>
      simp only [World.act] at h
      split at h
      · cases h
      · cases h
      · exact absurd h (hclose u)
      · rename_i msgType msg hrecv
        simp only [World.messageAct, Option.bind_eq_bind,
          Option.bind_eq_some_iff] at h
        obtain ⟨s, hs, h⟩ := h
        split at h
        · split at h
          · obtain ⟨_, _, ha, _⟩ := joinAct_free h
            cases ha
          · cases h
        · rename_i hstate
          simp only [Option.bind_eq_some_iff] at h
          obtain ⟨⟨c, seat⟩, hchair, h⟩ := h
          split at h
          · cases h
          · simp only [Option.bind_eq_some_iff] at h
            obtain ⟨type, hcode, a, hact, h⟩ := h
            cases h
            simp only [World.chair, hs, Option.bind_eq_bind, Option.bind_some,
              Option.bind_eq_some_iff] at hchair
            obtain ⟨c, hboard, _, _, hchair⟩ := hchair
            cases hchair
            rcases World.boardAct_cases hact with ⟨m', rfl, hmsg, ha⟩ |
              ⟨_, _, _, ha⟩ | ⟨_, _, _, _, _, _, ha⟩ | ⟨_, _, _, _, ha⟩ |
              ⟨_, _, _, ha⟩ | ⟨_, _, _, _, _, _, _, _, _, ha⟩
            case inl =>
              cases ha
              exact ⟨u, data, msgType, msg, s, rfl, hrecv, hs, hstate, hboard,
                hcode, hmsg⟩
            case inr.inr.inl => split at ha <;> cases ha
            all_goals cases ha
        · cases h

/-- A message that a board takes, from its session to the board and back. -/
theorem sessionMessageHandle_translates {env : Env} {u : SessionId}
    {s : UserSession} {b : BoardPtr} {type : MessageType} {msgType : UInt32}
    {msg : Bytes} {ret : Bool} {w w' : World} (hseating : w.layout.Seating)
    (hs : w.users u = some s) (hstate : s.stateMachine = some .gamePlay)
    (hboard : s.currChessBoard = some b)
    (hcode : MessageType.ofCode msgType = some type)
    (hgame : type.inGame = true) (hkeep : type.rejected = false)
    (h : sessionMessageHandle env u msgType msg w = some (ret, w')) :
    ret = true ∧ ∃ w₁, translateMsg env b msgType msg w = some (true, w₁) ∧
      w'.sent = w₁.sent := by
  simp only [sessionMessageHandle, hs, hstate, StateType.msgHandle,
    stateGamePlayMsgHandle, stateGamePlaySwitch_inGame hcode hgame, hboard,
    Option.elim_some, Option.bind_eq_bind, Option.bind_some,
    Option.bind_eq_some_iff] at h
  obtain ⟨_, ⟨⟨ok, w₁⟩, htranslate, hok⟩, h⟩ := h
  have hout := translateMsg_outcome (u := u) hseating hcode hgame htranslate
  rw [if_neg (by simp [hkeep])] at hout
  obtain rfl := hout.1
  rw [if_pos rfl] at hok
  cases hok
  rw [if_pos rfl] at h
  simp only [Option.bind_eq_some_iff] at h
  obtain ⟨s₁, _, h⟩ := h
  split at h
  · split at h
    · cases h
      exact ⟨rfl, w₁, htranslate, rfl⟩
    · cases h
      exact ⟨rfl, _, htranslate, rfl⟩
  · cases h
    exact ⟨rfl, _, htranslate, rfl⟩

/-- A message of a session that another user took off its board: if its
handler looks at no board the session goes to the hall. -/
theorem sessionMessageHandle_boardless {env : Env} {u : SessionId}
    {s : UserSession} {type : MessageType} {msgType : UInt32} {msg : Bytes}
    {ret : Bool} {w w' : World} (hs : w.users u = some s)
    (hstate : s.stateMachine = some .gamePlay)
    (hboard : s.currChessBoard = none)
    (hcode : MessageType.ofCode msgType = some type)
    (hgame : type.inGame = true) (hkeep : type.rejected = false)
    (h : sessionMessageHandle env u msgType msg w = some (ret, w')) :
    ret = true ∧ ∃ w₁ state,
      translateMsgNull env msgType msg w = some (true, w₁) ∧
      Notified w w₁ ∧ w' = w₁.setUser u { s with stateMachine := state } := by
  simp only [sessionMessageHandle, hs, hstate, StateType.msgHandle,
    stateGamePlayMsgHandle, stateGamePlaySwitch_inGame hcode hgame, hboard,
    Option.elim_none, Option.bind_eq_bind, Option.bind_some,
    Option.bind_eq_some_iff] at h
  obtain ⟨_, ⟨⟨ok, w₁⟩, htranslate, hok⟩, h⟩ := h
  obtain ⟨_, hret, _, n⟩ := translateMsgNull_notified hcode htranslate
  obtain rfl : ok = true := by
    rw [hret, translates_inGame hgame, hkeep]
    rfl
  rw [if_pos rfl] at hok
  cases hok
  have hs₁ : w₁.users u = some s := by rw [n.users, hs]
  have hsame : w₁ = w₁.setUser u { s with stateMachine := s.stateMachine } := by
    have hupdate := Function.update_eq_self u w₁.users
    rw [hs₁] at hupdate
    rw [World.setUser, hupdate]
  rw [if_pos rfl, hs₁, Option.bind_some] at h
  split at h
  · split at h
    · cases h
      exact ⟨rfl, w₁, _, htranslate, n, rfl⟩
    · cases h
      exact ⟨rfl, w₁, _, htranslate, n, hsame⟩
  · cases h
    exact ⟨rfl, w₁, _, htranslate, n, hsame⟩

/-- The same from the read callback. -/
theorem read_translates {env : Env} {u : SessionId} {s : UserSession}
    {b : BoardPtr} {type : MessageType} {msgType : UInt32}
    {data msg : Bytes} {w w' : World} (hinv : w.layout.Inv)
    (hs : w.users u = some s) (hstate : s.stateMachine = some .gamePlay)
    (hboard : s.currChessBoard = some b)
    (hrecv : w.received u data = .message msgType msg)
    (hcode : MessageType.ofCode msgType = some type)
    (hgame : type.inGame = true) (hkeep : type.rejected = false)
    (hstep : World.step env (.read u data) w = some w') :
    ∃ w₁ w₂, Buffers u w w₁ ∧ w₁.layout.Inv ∧
      translateMsg env b msgType msg w₁ = some (true, w₂) ∧
      w'.sent = w₂.sent := by
  obtain ⟨w₁, s₁, ret, w₂, hb, hinv₁, _, hs₁, hcore, hmsg, hlast⟩ :=
    read_message hinv hs hrecv hstep
  obtain ⟨_, _, _, hboard₁, hstate₁, _⟩ := core_eq hcore
  obtain ⟨rfl, w₃, htranslate, hsent⟩ := sessionMessageHandle_translates
    hinv₁.seating hs₁ (hstate₁.trans hstate) (hboard₁.trans hboard) hcode
    hgame hkeep hmsg
  exact ⟨w₁, w₃, hb, hinv₁, htranslate,
    (modifyUser_sent (hlast rfl)).trans hsent⟩

/-! ## What a step sends -/

/-- What was sent in a step. -/
def World.news (w w' : World) : List Sent :=
  w'.sent.take (w'.sent.length - w.sent.length)

/-- The news are what was sent since. -/
theorem news_eq {w w' : World} {news : List Sent}
    (h : w'.sent = news ++ w.sent) : w.news w' = news := by
  simp [World.news, h]

/-- Whoever moves names a chair that is taken. -/
theorem step_mover {env : Env} {e : Event} {b : BoardPtr} {m : MoveChess}
    {w w' : World} (hinv : w.layout.Inv)
    (hact : w.act env e = some (b, .move m))
    (hstep : World.step env e w = some w') :
    ∃ seat u, m.srcLocate = Seat.location seat ∧
      (w.boards b).seat seat = some u := by
  obtain ⟨u, data, msgType, msg, s, rfl, hrecv, hs, hstate, hboard, hcode,
    hmsg⟩ := act_move hact
  obtain ⟨w₁, w₂, hb, hinv₁, htranslate, _⟩ := read_translates hinv hs
    hstate hboard hrecv hcode rfl rfl hstep
  simp only [translateMsg, hcode] at htranslate
  obtain ⟨_, _, seat, hsrc, hseat⟩ :=
    moveChessHandle_plays hinv₁.seating.distinct hmsg htranslate
  obtain ⟨v, hv⟩ := Option.ne_none_iff_exists'.mp hseat
  exact ⟨seat, v, hsrc, by rw [← hb.boards, hv]⟩

/-- Everybody at a board hears of a move, and of nothing else that has a
token. -/
theorem step_announces {env : Env} {e : Event} {b : BoardPtr} {m : MoveChess}
    {seat : Seat} {w w' : World} (hinv : w.layout.Inv)
    (hact : w.act env e = some (b, .move m))
    (hsrc : m.srcLocate = seat.location)
    (hstep : World.step env e w = some w') :
    ∃ news : List Sent, (∀ x ∈ news, x.token = none) ∧
      w.news w' = news ++ ((w.audience b locationMax).map fun u =>
        ⟨u, .announceMove, .moveAction ⟨seat.location, m,
          some (((w.table b).capture m).token seat)⟩⟩).reverse := by
  obtain ⟨u, data, msgType, msg, s, rfl, hrecv, hs, hstate, hboard, hcode,
    hmsg⟩ := act_move hact
  obtain ⟨w₁, w₂, hb, hinv₁, htranslate, hsent⟩ := read_translates hinv hs
    hstate hboard hrecv hcode rfl rfl hstep
  simp only [translateMsg, hcode] at htranslate
  obtain ⟨news, hnone, hnews⟩ := moveChessHandle_sent hinv₁ hmsg hsrc
    htranslate
  refine ⟨news, hnone, news_eq ?_⟩
  rw [hsent, hnews, hb.sent, hb.table hs, World.audience, hb.boards]
  rfl

end ChessServer
