import ChessServer.Proofs.Captures
import ChessServer.Proofs.Turns
import ChessServer.Results.People

/-!
# Requests to play are handled

Which board a request finds, what the two handlers send, and that they
complete once a board is found (`gameRequestHandle_answers`,
`gameAgainHandle_answers`).
-/

namespace ChessServer

/-! ## Finding the board -/

/-- There are halls for the ids from 1 to `gameHallMaxNum`. -/
theorem getGameHall_eq (id : UInt32) :
    getGameHall id = if 1 ≤ id ∧ id ≤ gameHallMaxNum then some id else none := by
  unfold getGameHall
  by_cases h : 1 ≤ id ∧ id ≤ gameHallMaxNum
  · rw [if_pos h, if_neg]
    rintro (hlt | hgt)
    · exact absurd h.1 (UInt32.not_le.mpr hlt)
    · exact absurd h.2 (UInt32.not_le.mpr hgt)
  · rw [if_neg h, if_pos]
    by_contra hno
    rw [not_or] at hno
    exact h ⟨UInt32.not_lt.mp hno.1, UInt32.not_lt.mp hno.2⟩

/-- A board with an id in range is found, or created. -/
theorem getChessBoardByID_some {w : World} {hall id : UInt32}
    (hw : w.Published) (hpos : 1 ≤ id) (hmax : id ≤ chessBoardMaxNum) :
    (w.getChessBoardByID hall id).1 = some ⟨hall, id⟩ := by
  have hrange : ¬ (id = 0 ∨ id > (w.halls hall).chessBoardMaxNum) := by
    rw [hw.max hall]
    rintro (rfl | hgt)
    · exact absurd hpos (by decide)
    · exact absurd hmax (UInt32.not_le.mpr hgt)
  unfold World.getChessBoardByID
  rw [if_neg hrange]
  cases hfound : (w.halls hall).chessBoardInfo[id]? with
  | some b => exact congrArg some (hw.known hfound).1
  | none =>
      have hsize : (w.halls hall).getChessValidBoardNum ≤
          (w.halls hall).chessBoardMaxNum.toNat := by
        have hlen := length_hallBoards hw.known hall
        unfold World.hallBoards at hlen
        rw [Std.TreeMap.length_toList] at hlen
        rw [hw.max hall]
        exact hlen
      have hnew : id ∉ (w.halls hall).chessBoardInfo := by
        intro hmem
        rw [Std.TreeMap.mem_iff_isSome_getElem?, hfound] at hmem
        cases hmem
      unfold World.createChessBoard
      dsimp only
      rw [if_neg (Nat.not_lt.mpr hsize)]
      simp only [if_true, Function.update_self]
      rw [Std.TreeMap.getElem?_insertIfNew,
        if_pos ⟨Std.ReflCmp.compare_self, hnew⟩]

/-- No board has any other id. -/
theorem getChessBoardByID_none {w : World} {hall id : UInt32}
    (hw : w.Published) (h : ¬ (1 ≤ id ∧ id ≤ chessBoardMaxNum)) :
    (w.getChessBoardByID hall id).1 = none := by
  unfold World.getChessBoardByID
  rw [if_pos]
  rw [hw.max hall]
  by_contra hno
  rw [not_or] at hno
  refine h ⟨?_, UInt32.not_lt.mp hno.2⟩
  rw [UInt32.le_iff_toNat_le]
  have hne : id.toNat ≠ 0 := fun hzero => hno.1 (UInt32.toNat_inj.mp hzero)
  exact Nat.one_le_iff_ne_zero.mpr hne

/-- Looking a board up sends nothing, and no hall forgets a board. -/
theorem getChessBoardByID_keeps (w : World) (hall id : UInt32) :
    (w.getChessBoardByID hall id).2.sent = w.sent ∧
      ∀ (h i : UInt32) (b : BoardPtr),
        (w.halls h).chessBoardInfo[i]? = some b →
        ((w.getChessBoardByID hall id).2.halls h).chessBoardInfo[i]? =
          some b := by
  have hcreate : (w.createChessBoard hall id).2.sent = w.sent ∧
      ∀ (h i : UInt32) (b : BoardPtr),
        (w.halls h).chessBoardInfo[i]? = some b →
        ((w.createChessBoard hall id).2.halls h).chessBoardInfo[i]? =
          some b := by
    unfold World.createChessBoard
    dsimp only
    split
    · exact ⟨rfl, fun _ _ _ h => h⟩
    · refine ⟨rfl, fun h i b hb => ?_⟩
      by_cases hh : h = hall
      · subst hh
        have hmem : i ∈ (w.halls h).chessBoardInfo := by
          rw [Std.TreeMap.mem_iff_isSome_getElem?, hb]
          rfl
        dsimp only
        rw [Function.update_self, Std.TreeMap.getElem?_insertIfNew, if_neg, hb]
        rintro ⟨hsame, hnew⟩
        obtain rfl : id = i := Std.LawfulEqCmp.eq_of_compare hsame
        exact hnew hmem
      · dsimp only
        rw [Function.update_of_ne hh]
        exact hb
  unfold World.getChessBoardByID
  split
  · exact ⟨rfl, fun _ _ _ h => h⟩
  · split
    · exact ⟨rfl, fun _ _ _ h => h⟩
    · dsimp only
      split <;> exact hcreate

theorem publishNamed_sent (env : Env) (msg : Bytes) (w : World) :
    (publishNamed env msg w).sent = w.sent := by
  unfold publishNamed
  split
  · rfl
  · split
    · rfl
    · exact (getChessBoardByID_keeps ..).1

/-- Without a board nothing is sent. -/
theorem translateMsgNull_sent {env : Env} {msgType : UInt32} {msg : Bytes}
    {w w' : World} {ret : Bool}
    (h : translateMsgNull env msgType msg w = some (ret, w')) :
    w'.sent = w.sent := by
  unfold translateMsgNull at h
  split at h
  · cases h
    rfl
  · split at h
    · cases h
    · cases h
      split
      · exact publishNamed_sent env msg w
      · rfl

/-! ## What is sent -/

/-- The replies to requests to play among what was sent to a session. -/
def repliesTo (u : SessionId) (news : List Sent) : List Sent :=
  news.filter fun x => x.user == u && x.type == .requestPlayReply

/-- The replies of two batches. -/
theorem repliesTo_append (u : SessionId) (news news' : List Sent) :
    repliesTo u (news ++ news') = repliesTo u news ++ repliesTo u news' :=
  List.filter_append ..

/-- Messages of other types or to other users are no replies. -/
theorem repliesTo_eq_nil {u : SessionId} {news : List Sent}
    (h : ∀ x ∈ news, x.user = u → x.type ≠ .requestPlayReply) :
    repliesTo u news = [] := by
  refine List.filter_eq_nil_iff.mpr fun x hx => ?_
  rw [Bool.and_eq_true, beq_iff_eq, beq_iff_eq]
  rintro ⟨huser, htype⟩
  exact h x hx huser htype

/-- From `w` to `w'` the messages `news` were sent, newest first. -/
def Sends (w w' : World) (news : List Sent) : Prop :=
  w'.sent = news ++ w.sent

/-- What is sent adds up. -/
theorem Sends.trans {w₁ w₂ w₃ : World} {news news' : List Sent}
    (h₁ : Sends w₁ w₂ news) (h₂ : Sends w₂ w₃ news') :
    Sends w₁ w₃ (news' ++ news) := by
  unfold Sends at *
  rw [h₂, h₁, List.append_assoc]

/-- A reply is sent, or dropped for want of a descriptor. -/
theorem messageReply_sends {env : Env} {u : SessionId} {type : MessageType}
    {body : Payload} {w w' : World} {ret : Bool}
    (h : messageReply env u type body w = some (ret, w')) :
    ∃ news, Sends w w' news ∧ ∀ x ∈ news, x = ⟨u, type, body⟩ := by
  simp only [messageReply, onWrite, Option.bind_eq_bind,
    Option.bind_eq_some_iff] at h
  obtain ⟨s, _, _, _, h⟩ := h
  split at h
  · cases h
    exact ⟨[], getBuffer_sent _ _ _, by simp⟩
  · simp only [Option.bind_eq_some_iff] at h
    obtain ⟨_, _, _, _, h⟩ := h
    cases h
    refine ⟨[⟨u, type, body⟩], ?_, by simp⟩
    show _ :: _ = _
    rw [getBuffer_sent]
    rfl

/-- What a hall is told about. -/
def Sent.isHallNews (x : Sent) : Bool :=
  x.type == .hallInfo || x.type == .gameHallSumary

/-- It is no reply to a request. -/
theorem Sent.isHallNews_ne {x : Sent} (h : x.isHallNews = true) :
    x.type ≠ .requestPlayReply := by
  intro htype
  rw [Sent.isHallNews, htype] at h
  cases h

/-- Nothing but hall news was sent. -/
def SendsOther (w w' : World) : Prop :=
  ∃ news, Sends w w' news ∧ ∀ x ∈ news, x.isHallNews = true

theorem SendsOther.refl (w : World) : SendsOther w w := ⟨[], rfl, by simp⟩

/-- Nothing but hall messages, twice. -/
theorem SendsOther.trans {w₁ w₂ w₃ : World} (h₁ : SendsOther w₁ w₂)
    (h₂ : SendsOther w₂ w₃) : SendsOther w₁ w₃ := by
  obtain ⟨news, hs, hnews⟩ := h₁
  obtain ⟨news', hs', hnews'⟩ := h₂
  refine ⟨news' ++ news, hs.trans hs', fun x hx => ?_⟩
  rcases List.mem_append.mp hx with hx | hx
  · exact hnews' x hx
  · exact hnews x hx

theorem messageReply_sendsOther {env : Env} {u : SessionId}
    {type : MessageType} {body : Payload} {w w' : World} {ret : Bool}
    (htype : type = .hallInfo ∨ type = .gameHallSumary)
    (h : messageReply env u type body w = some (ret, w')) :
    SendsOther w w' := by
  obtain ⟨news, hs, hnews⟩ := messageReply_sends h
  refine ⟨news, hs, fun x hx => ?_⟩
  rw [hnews x hx]
  rcases htype with rfl | rfl <;> rfl

/-- Collecting a hall sends nothing. -/
theorem wrapHallInfo_sent {hallId : UInt32} {info : Option HallInfo}
    {w w' : World} (h : wrapHallInfo hallId w = some (info, w')) :
    w'.sent = w.sent := by
  unfold wrapHallInfo at h
  split at h
  · cases h
    rfl
  · rename_i hall _
    simp only [Option.bind_eq_bind, Option.bind_eq_some_iff] at h
    obtain ⟨⟨boards, w₁⟩, hloop, h⟩ := h
    cases h
    refine OptionFold.rel_of_step
      (R := fun a b : List ChessBoardInfo × World => b.2.sent = a.2.sent)
      (fun _ => rfl) (fun h₁ h₂ => h₂.trans h₁) ?_ _ hloop
    intro acc j acc' hstep
    have hget := (getChessBoardByID_keeps acc.2 hall j).1
    unfold wrapHallBoard at hstep
    revert hstep hget
    generalize acc.2.getChessBoardByID hall j = found
    obtain ⟨chessBoard, w₂⟩ := found
    intro hstep hget
    cases chessBoard with
    | none =>
        cases hstep
        exact hget
    | some b =>
        simp only [Option.bind_eq_bind, Option.bind_eq_some_iff] at hstep
        obtain ⟨info, _, hstep⟩ := hstep
        cases hstep
        exact hget

/-- The hall's news are nothing else. -/
theorem broadCastHallInfo_sendsOther {env : Env} {b : BoardPtr}
    {u : SessionId} {w w' : World}
    (h : broadCastHallInfo env b u w = some w') : SendsOther w w' := by
  simp only [broadCastHallInfo, Option.bind_eq_bind,
    Option.bind_eq_some_iff] at h
  obtain ⟨_, _, _, _, ⟨info, w₁⟩, hwrap, hloop⟩ := h
  have hfirst : SendsOther w w₁ :=
    ⟨[], wrapHallInfo_sent hwrap, by simp⟩
  refine hfirst.trans (OptionFold.rel_of_step SendsOther.refl
    SendsOther.trans ?_ _ hloop)
  intro w v w' h
  have hboth : ∀ {data}, (∃ r, messageReply env v .hallInfo data w = some r ∧
      ∃ r', gameHallSumaryHandle env v r.2 = some r' ∧ r'.2 = w') →
      SendsOther w w' := by
    rintro data ⟨r, hreply, r', hsum, rfl⟩
    refine (messageReply_sendsOther (Or.inl rfl) hreply).trans ?_
    simp only [gameHallSumaryHandle, Option.bind_eq_bind,
      Option.bind_eq_some_iff] at hsum
    obtain ⟨_, _, r'', hreply', hsum⟩ := hsum
    cases hsum
    exact messageReply_sendsOther (Or.inr rfl) hreply'
  simp only [sendHallInfo, Option.bind_eq_bind, Option.bind_eq_some_iff] at h
  obtain ⟨s, _, h⟩ := h
  split at h
  · simp only [Option.bind_eq_some_iff] at h
    obtain ⟨r, hreply, r', hsum, h⟩ := h
    exact hboth ⟨r, hreply, r', hsum, by simpa using h⟩
  · simp only [Option.bind_eq_some_iff] at h
    obtain ⟨r, hreply, r', hsum, h⟩ := h
    exact hboth ⟨r, hreply, r', hsum, by simpa using h⟩
  · cases h
    exact .refl w

/-! ## GameRequestHandle -/

/-- Everybody stays connected when a connected session takes a chair, or
writes down that it does. -/
theorem Layout.Connected.guest {l l' : Layout} (hl : l.Connected)
    {u : SessionId} {p : Place} (hregistry : l'.registry = l.registry)
    (hothers : ∀ v, v ≠ u → l'.place v = l.place v)
    (hself : l'.place u = some p) (honline : p.Online)
    (hstate : p.stateMachine.isSome)
    (hseats : ∀ b seat v, l'.seats b seat = some v →
      v = u ∨ l.seats b seat = some v) : l'.Connected := by
  refine ⟨fun {fd v} hv => ?_, fun {b seat v} hv => ?_⟩
  · by_cases hvu : v = u
    · subst hvu
      exact ⟨p, hself, honline⟩
    · rw [hregistry] at hv
      rw [hothers v hvu]
      exact hl.registered hv
  · by_cases hvu : v = u
    · subst hvu
      exact ⟨p, hself, honline, hstate⟩
    · rcases hseats b seat v hv with h | h
      · exact absurd h hvu
      · rw [hothers v hvu]
        exact hl.seated h

/-- A session with a connection and a state object, in a world where
everybody is connected. -/
structure Guest (w : World) (u : SessionId) (s : UserSession) : Prop where
  session : w.users u = some s
  online : s.place.Online
  state : s.stateMachine.isSome
  connected : w.layout.Connected

theorem Guest.place {w : World} {u : SessionId} {s : UserSession}
    (h : Guest w u s) : w.layout.place u = some s.place := by
  simp [World.layout, h.session]

/-- A guest stays one when its game data changes. -/
theorem Guest.set {w : World} {u : SessionId} {s s' : UserSession}
    (h : Guest w u s) (hclifd : s'.place.clifd = s.place.clifd)
    (hthread : s'.place.thread = s.place.thread)
    (hbufev : s'.place.bufev = s.place.bufev)
    (hstate : s'.place.stateMachine = s.place.stateMachine) :
    Guest (w.setUser u s') u s' := by
  have honline : s'.place.Online := by
    constructor
    · rw [hclifd]
      exact h.online.clifd
    · rw [hthread]
      exact h.online.thread
    · rw [hbufev]
      exact h.online.bufev
  have hsome : s'.place.stateMachine.isSome := by
    rw [hstate]
    exact h.state
  have hself : (w.setUser u s').layout.place u = some s'.place := by
    simp [World.layout]
  refine ⟨setUser_users_self .., honline, hsome, h.connected.guest rfl
    (fun v hv => ?_) hself honline hsome fun _ _ _ hv => Or.inr hv⟩
  simp [World.layout, World.setUser, hv]

/-- Or the users of a board. -/
theorem Guest.board {w : World} {u : SessionId} {s : UserSession}
    (h : Guest w u s) (b : BoardPtr) {f : ChessBoard → ChessBoard}
    (hf : ∀ seat v, (f (w.boards b)).seat seat = some v →
      v = u ∨ (w.boards b).seat seat = some v) :
    Guest (w.modifyBoard b f) u s := by
  have hself : (w.modifyBoard b f).layout.place u = some s.place := by
    simp [World.layout, World.modifyBoard, h.session]
  refine ⟨h.session, h.online, h.state, h.connected.guest rfl
    (fun _ _ => rfl) hself h.online h.state fun c seat v hv => ?_⟩
  rw [layout_modifyBoard] at hv
  dsimp only at hv
  by_cases hc : c = b
  · subst hc
    rw [Function.update_self] at hv
    exact hf seat v hv
  · rw [Function.update_of_ne hc] at hv
    exact Or.inr hv

theorem gameBegan_completes {w : World} {b : BoardPtr}
    (hc : w.layout.Connected) : ∃ began, gameBegan b w = some began := by
  have hstatus := fun seat => seatStatus_completes (b := b) hc seat
    fun status => decide (UserGameStatus.began.code < status.code)
  have hl := hstatus .left
  have hr := hstatus .right
  have hb := hstatus .bottom
  simp only [ChessBoard.seat] at hl hr hb
  simp only [gameBegan, World.countSeats, hl, hr, hb, Option.bind_eq_bind,
    Option.bind_some]
  exact ⟨_, rfl⟩

/-- Asking for a chair completes. -/
theorem joinBoard_completes {c : BoardPtr} {u : SessionId} {s : UserSession}
    {w : World} (locate : Location) (h : Guest w u s) :
    ∃ ok w', joinBoard c u locate w = some (ok, w') := by
  have h₁ : Guest (w.setUser u { s with locate := locate }) u
      { s with locate := locate } := h.set rfl rfl rfl rfl
  obtain ⟨began, hbegan⟩ := gameBegan_completes (b := c) h₁.connected
  simp only [joinBoard, modifyUser_eq h.session, hbegan, Option.bind_eq_bind,
    Option.bind_some]
  split
  · exact ⟨_, _, rfl⟩
  · rcases hadd : ((w.setUser u { s with locate := locate }).boards c).addUser
      u locate with ⟨added, board⟩
    dsimp only
    cases added with
    | true => exact ⟨_, _, rfl⟩
    | false => exact ⟨_, _, rfl⟩

/-- So does granting it, with a reply that says so. -/
theorem joinAccepted_completes {c : BoardPtr} {u : SessionId}
    {s : UserSession} {w : World} (locate : Location) (h : Guest w u s) :
    ∃ reply w', joinAccepted c u locate w = some (reply, w') ∧
      reply.status = 1 := by
  have h₁ : Guest (w.setUser u { s with status := .ready }) u
      { s with status := .ready } := h.set rfl rfl rfl rfl
  have h₂ : Guest ((w.setUser u { s with status := .ready }).setUser u
      { s with status := .ready, currChessBoard := some c }) u
      { s with status := .ready, currChessBoard := some c } :=
    h₁.set rfl rfl rfl rfl
  simp only [joinAccepted, modifyUser_eq h.session, modifyUser_eq h₁.session,
    Option.bind_eq_bind, Option.bind_some]
  have hrest : ∀ w₃, Guest w₃ u { s with
      status := .ready, currChessBoard := some c } →
      ∃ reply w', (wrapChessBoardInfo c w₃).bind (fun info =>
        (setNextState u .gamePlay w₃).bind fun w₄ =>
          some ((⟨1, (w₃.boards c).firstComeUserLocate, some info⟩ :
            RequestPlayReply), w₄)) = some (reply, w') ∧ reply.status = 1 := by
    intro w₃ h₃
    obtain ⟨info, hinfo⟩ := wrapChessBoardInfo_completes c h₃.connected
    exact ⟨_, _, by
      rw [hinfo, Option.bind_some, setNextState, modifyUser_eq h₃.session,
        Option.bind_some], rfl⟩
  split
  · exact hrest _ (h₂.board c fun seat v hv => by
      cases seat <;> exact Or.inr hv)
  · exact hrest _ h₂

/-- What a request must leave alone when it is refused. -/
def UserSession.standing (s : UserSession) :=
  (s.status, s.currChessBoard, s.stateMachine, s.nextState, s.userInfo.score)

/-- Every board, every seat, and every session's status, board, state and
score are as before. -/
structure World.Kept (w w' : World) : Prop where
  boards : w'.boards = w.boards
  known : ∀ (hall id : UInt32) (b : BoardPtr),
    (w.halls hall).chessBoardInfo[id]? = some b →
      (w'.halls hall).chessBoardInfo[id]? = some b
  sessions : ∀ v, (w'.users v).map UserSession.standing =
    (w.users v).map UserSession.standing

/-- A reply that grants a request. -/
def Sent.grants (x : Sent) : Bool :=
  match x.body with
  | .requestPlayReply reply => reply.status == 1
  | _ => false

/-- The user of session `u` has a chair on `board` and is READY there, and
nobody else is touched. -/
structure World.Granted (w w' : World) (u : SessionId)
    (board : Option BoardPtr) (locate : Location) : Prop where
  seated : ∃ s b, w'.users u = some s ∧ board = some b ∧
    s.currChessBoard = some b ∧ s.locate = locate ∧ s.status = .ready ∧
    s.nextState = some .gamePlay ∧
    (w'.boards b).getUserByLocation locate = some u
  others : ∀ v, v ≠ u → (w'.users v).map UserSession.standing =
    (w.users v).map UserSession.standing

/-- Between `w` and `w'` session `u` got one reply to its request for a chair
on `board`: one that granted it and the user has the chair, or another one
and nothing has changed. -/
def Answered (u : SessionId) (board : Option BoardPtr) (locate : Location)
    (w w' : World) : Prop :=
  ∃ news x, Sends w w' news ∧ repliesTo u news = [x] ∧
    if x.grants then w.Granted w' u board locate else w.Kept w'

/-- The audience of a board sits there. -/
theorem mem_audience {w : World} {b : BoardPtr} {filter : UInt32}
    {v : SessionId} (h : v ∈ w.audience b filter) :
    ∃ seat : Seat, seat.location ≠ filter ∧ (w.boards b).seat seat = some v := by
  unfold World.audience at h
  obtain ⟨locate, hmem, huser⟩ := List.mem_filterMap.mp h
  obtain ⟨seat, rfl, hseat⟩ := getUserByLocation_eq_some huser
  exact ⟨seat, by simpa using (List.mem_filter.mp hmem).2, hseat⟩

/-- Whoever has a state object is a guest. -/
theorem guest_of_state {w : World} {u : SessionId} {s : UserSession}
    {state : StateType} (hinv : w.layout.Inv) (hs : w.users u = some s)
    (hstate : s.stateMachine = some state) : Guest w u s := by
  have hp : w.layout.place u = some s.place := by simp [World.layout, hs]
  have hreg : w.layout.registry s.place.clifd = some u := by
    refine hinv.registry.registered_of_online hp fun hidle => ?_
    have hnone : s.stateMachine = none := hidle.stateMachine
    rw [hstate] at hnone
    cases hnone
  obtain ⟨p, hp', _, honline⟩ := hinv.registry.registered hreg
  rw [hp] at hp'
  cases hp'
  exact ⟨hs, honline, Option.isSome_of_eq_some hstate, hinv.connected⟩

/-- A guest stays one whatever is sent. -/
theorem Guest.notified {w w' : World} {u : SessionId} {s : UserSession}
    (h : Guest w u s) (n : Notified w w') : Guest w' u s :=
  ⟨by rw [n.users, h.session], h.online, h.state, n.connected h.connected⟩

theorem messageReply_halls {env : Env} {u : SessionId} {type : MessageType}
    {body : Payload} {w w' : World} {ret : Bool}
    (h : messageReply env u type body w = some (ret, w')) :
    w'.halls = w.halls := by
  have hbuf := (getBuffer_buffers u
    ((body.bytes env).length + dataHeadLength) w).halls
  simp only [messageReply, onWrite, Option.bind_eq_bind,
    Option.bind_eq_some_iff] at h
  obtain ⟨s, _, _, _, h⟩ := h
  split at h
  · cases h
    exact hbuf
  · simp only [Option.bind_eq_some_iff] at h
    obtain ⟨_, _, _, _, h⟩ := h
    cases h
    exact hbuf

/-- A reply to a guest is sent. -/
theorem Guest.reply {w : World} {u : SessionId} {s : UserSession}
    (h : Guest w u s) (env : Env) (type : MessageType) (body : Payload) :
    ∃ w', messageReply env u type body w = some (true, w') ∧
      Notified w w' ∧ w'.halls = w.halls ∧ Sends w w' [⟨u, type, body⟩] := by
  obtain ⟨ret, w', hw'⟩ := messageReply_completes env type body h.place
    h.online
  obtain ⟨rfl, hsent⟩ := messageReply_sent (fun s' hs' => by
    rw [h.session] at hs'
    cases hs'
    exact h.online.clifd) hw'
  exact ⟨w', hw', messageReply_notified hw', messageReply_halls hw', hsent⟩

theorem repliesTo_own (u : SessionId) (body : Payload) :
    repliesTo u [⟨u, .requestPlayReply, body⟩] =
      [⟨u, .requestPlayReply, body⟩] := by
  simp [repliesTo]

/-- A broadcast that leaves the chair of `u` out is no reply to `u`. -/
theorem repliesTo_broadcast {w : World} {b : BoardPtr} {seat : Seat}
    {u : SessionId} {type : MessageType} {body : Payload}
    (halone : ∀ seat', (w.boards b).seat seat' = some u → seat' = seat) :
    repliesTo u ((w.audience b seat.location).map fun v =>
      (⟨v, type, body⟩ : Sent)).reverse = [] := by
  refine repliesTo_eq_nil fun x hx huser => ?_
  simp only [List.mem_reverse, List.mem_map] at hx
  obtain ⟨v, hv, rfl⟩ := hx
  obtain ⟨seat', hne, hseat'⟩ := mem_audience hv
  dsimp only at huser
  rw [huser] at hseat'
  exact absurd (congrArg Seat.location (halone seat' hseat')) hne

theorem seated_seat (board : ChessBoard) (u : SessionId) (seat : Seat) :
    (board.seated u seat).seat = Function.update board.seat seat (some u) := by
  rw [← setSeat_seat]
  funext x
  cases x <;> rfl

@[simp] theorem owned_seat (board : ChessBoard) (locate : Location) :
    (board.owned locate).seat = board.seat := by
  unfold ChessBoard.owned
  split
  · funext x
    cases x <;> rfl
  · rfl

/-- Who takes a chair is a guest on it. -/
theorem Guest.join {w w' : World} {c : BoardPtr} {u : SessionId}
    {s : UserSession} {seat : Seat} (h : Guest w u s)
    (hw' : w' = (w.setUser u { s with locate := seat.location }).modifyBoard c
      (·.seated u seat)) :
    Guest w' u { s with locate := seat.location } ∧
      (w'.boards c).seat = Function.update (w.boards c).seat seat (some u) ∧
      (∀ v, v ≠ u → w'.users v = w.users v) ∧ Sends w w' [] := by
  subst hw'
  have h₁ : Guest (w.setUser u { s with locate := seat.location }) u
      { s with locate := seat.location } := h.set rfl rfl rfl rfl
  refine ⟨h₁.board c fun seat' v hv => ?_, ?_, fun v hv => ?_, rfl⟩
  · rw [seated_seat] at hv
    by_cases hseat' : seat' = seat
    · rw [hseat', Function.update_self] at hv
      exact Or.inl (Option.some.inj hv).symm
    · rw [Function.update_of_ne hseat'] at hv
      exact Or.inr hv
  · rw [← seated_seat]
    simp [World.modifyBoard, World.setUser]
  · simp [World.modifyBoard, World.setUser, hv]

/-- The session of a user whose request was granted. -/
def UserSession.granted (s : UserSession) (c : BoardPtr) : UserSession :=
  { s with
    status := .ready
    currChessBoard := some c
    nextState := some .gamePlay }

/-- Whoever has taken a chair is told so, and so are the others at the board
and in the halls. -/
theorem joinAccepted_answers (env : Env) {c : BoardPtr} {u : SessionId}
    {s : UserSession} {seat : Seat} {w₀ w : World} (h : Guest w u s)
    (hlocate : s.locate = seat.location)
    (halone : ∀ seat', (w.boards c).seat seat' = some u ↔ seat' = seat)
    (hothers : ∀ v, v ≠ u → w.users v = w₀.users v)
    (hsent : Sends w₀ w []) :
    ∃ reply w₁ w₂ w₃ w', joinAccepted c u seat.location w = some (reply, w₁) ∧
      messageReply env u .requestPlayReply (.requestPlayReply reply) w₁ =
        some (true, w₂) ∧
      broadCastMsg env c .requestPlayReply
        (.requestPlayReply { reply with status := 2 }) seat.location w₂ =
          some w₃ ∧
      broadCastHallInfo env c u w₃ = some w' ∧
      Answered u (some c) seat.location w₀ w' := by
  obtain ⟨reply, w₁, hacc, hgrant⟩ :=
    joinAccepted_completes (c := c) seat.location h
  have hw₁ := joinAccepted_eq h.session hacc
  have hseats : (w₁.boards c).seat = (w.boards c).seat := by
    rw [← owned_seat (w.boards c) seat.location, hw₁]
    simp [World.modifyBoard, World.setUser]
  have g₁ : Guest w₁ u (s.granted c) := by
    have howned : Guest (w.modifyBoard c (·.owned seat.location)) u s :=
      h.board c fun seat' v hv => Or.inr (by rwa [owned_seat] at hv)
    rw [hw₁]
    exact howned.set rfl rfl rfl rfl
  obtain ⟨w₂, hreply, n₂, _, hsends₂⟩ := g₁.reply env .requestPlayReply
    (.requestPlayReply reply)
  have hconnected := n₂.connected g₁.connected
  obtain ⟨w₃, hsend⟩ := broadCastMsg_completes env c .requestPlayReply
    (.requestPlayReply { reply with status := 2 }) seat.location hconnected
  have n₃ := broadCastMsg_notified hsend
  have hsends₃ := broadCastMsg_sent (hconnected.online c) hsend
  have g₃ := (g₁.notified n₂).notified n₃
  obtain ⟨w', hhalls⟩ := broadCastHallInfo_completes env c g₃.connected
    g₃.place g₃.state
  have n' := broadCastHallInfo_notified hhalls
  obtain ⟨news, hsends', hother⟩ := broadCastHallInfo_sendsOther hhalls
  have hsent₁ : Sends w₀ w₁ [] := by
    unfold Sends
    rw [hw₁]
    exact hsent
  refine ⟨reply, w₁, w₂, w₃, w', hacc, hreply, hsend, hhalls, _,
    ⟨u, .requestPlayReply, .requestPlayReply reply⟩,
    ((hsent₁.trans hsends₂).trans hsends₃).trans hsends', ?_, ?_⟩
  · have hother' : ∀ seat', (w₂.boards c).seat seat' = some u →
        seat' = seat := by
      intro seat' hu
      rw [n₂.boards, hseats] at hu
      exact (halone seat').mp hu
    rw [repliesTo_append, repliesTo_append, repliesTo_append,
      repliesTo_broadcast hother', repliesTo_own,
      repliesTo_eq_nil fun x hx _ => Sent.isHallNews_ne (hother x hx)]
    rfl
  · have hgrants : Sent.grants ⟨u, .requestPlayReply,
        .requestPlayReply reply⟩ = true := by
      simp [Sent.grants, hgrant]
    rw [if_pos hgrants]
    refine ⟨⟨s.granted c, c, (g₃.notified n').session, rfl, rfl, hlocate, rfl,
      rfl, ?_⟩, fun v hv => ?_⟩
    · rw [getUserByLocation_location, n'.boards, n₃.boards, n₂.boards, hseats]
      exact (halone seat).mpr rfl
    · rw [n'.users, n₃.users, n₂.users, hw₁, ← hothers v hv]
      simp [World.modifyBoard, World.setUser, hv]

/-- Whoever has not taken a chair is told so; nothing but the session's
`locate` has been written. -/
theorem joinRefused_answers (env : Env) {c : BoardPtr} {u : SessionId}
    {s : UserSession} {locate : Location} (board : Option BoardPtr)
    {w w' : World} (h : Guest w u s)
    (hw' : w' = w.setUser u { s with locate := locate }) :
    ∃ w'', messageReply env u .requestPlayReply (.requestPlayReply
        ⟨0, (w'.boards c).firstComeUserLocate, none⟩) w' = some (true, w'') ∧
      Answered u board locate w w'' := by
  have g' : Guest w' u { s with locate := locate } := by
    rw [hw']
    exact h.set rfl rfl rfl rfl
  obtain ⟨w'', hreply, n, hhalls, hsends⟩ := g'.reply env .requestPlayReply
    (.requestPlayReply ⟨0, (w'.boards c).firstComeUserLocate, none⟩)
  have hsent : Sends w w' [] := by
    unfold Sends
    rw [hw']
    rfl
  refine ⟨w'', hreply, _, _, hsent.trans hsends, repliesTo_own u _, ?_⟩
  have hkept : w.Kept w'' := by
    refine ⟨?_, fun hall id b hb => ?_, fun v => ?_⟩
    · rw [n.boards, hw']
      rfl
    · rw [hhalls, hw']
      exact hb
    · rw [n.users, hw']
      by_cases hv : v = u
      · subst hv
        simp [h.session, UserSession.standing]
      · simp [World.setUser, hv]
  exact hkept

/-- Who was answered after the board was looked up was answered. -/
theorem Answered.before {u : SessionId} {board : Option BoardPtr}
    {locate : Location} {w w₁ w' : World} (n : Notified w w₁)
    (hsent : w₁.sent = w.sent)
    (hknown : ∀ (hall id : UInt32) (b : BoardPtr),
      (w.halls hall).chessBoardInfo[id]? = some b →
        (w₁.halls hall).chessBoardInfo[id]? = some b)
    (h : Answered u board locate w₁ w') : Answered u board locate w w' := by
  obtain ⟨news, x, hsends, hone, hdone⟩ := h
  refine ⟨news, x, ?_, hone, ?_⟩
  · unfold Sends at hsends ⊢
    rw [hsends, hsent]
  · split
    · rw [if_pos (by assumption)] at hdone
      exact ⟨hdone.seated, fun v hv => by rw [hdone.others v hv, n.users]⟩
    · rw [if_neg (by assumption)] at hdone
      exact ⟨hdone.boards.trans n.boards,
        fun hall id b hb => hdone.known hall id b (hknown hall id b hb),
        fun v => by rw [hdone.sessions v, n.users]⟩

/-- Once a board is found the request is handled and answered. -/
theorem gameRequestHandle_answers (env : Env) {u : SessionId}
    {s : UserSession} {msg : Bytes} {m : RequestPlay} {hall : UInt32}
    {c : BoardPtr} {w : World} (hinv : w.layout.Inv)
    (hs : w.users u = some s) (hstate : s.stateMachine = some .gameReady)
    (hmsg : env.proto.requestPlay msg = some m)
    (hhall : getGameHall m.gameHallId.toUInt32 = some hall)
    (hboard : (w.getChessBoardByID hall m.chessBoardId.toUInt32).1 = some c) :
    ∃ w', gameRequestHandle env u msg w = some (true, w') ∧
      Answered u (some c) m.locate.toUInt32 w w' := by
  have hp : w.layout.place u = some s.place := by simp [World.layout, hs]
  have hstand : s.place.currChessBoard = none :=
    standing_of_settled (hinv.settled u s.place hp (by simp))
      (by simp [hstate])
  have n₁ := getChessBoardByID_notified hall m.chessBoardId.toUInt32 w
  obtain ⟨hsent₁, hknown₁⟩ :=
    getChessBoardByID_keeps w hall m.chessBoardId.toUInt32
  simp only [gameRequestHandle, hmsg, hhall, Option.bind_eq_bind]
  revert hboard n₁ hsent₁ hknown₁
  generalize w.getChessBoardByID hall m.chessBoardId.toUInt32 = found
  obtain ⟨chessBoard, w₁⟩ := found
  intro hboard n₁ hsent₁ hknown₁
  dsimp only at hboard n₁ hsent₁ hknown₁ ⊢
  subst hboard
  have g₁ : Guest w₁ u s := (guest_of_state hinv hs hstate).notified n₁
  obtain ⟨ok, w₂, hjoin⟩ := joinBoard_completes (c := c) m.locate.toUInt32 g₁
  simp only [Option.bind_some, hjoin]
  rcases joinBoard_cases g₁.session hjoin with
    ⟨rfl, _, _, seat, hlocate, hfree, hw₂⟩ | ⟨rfl, hw₂, _⟩
  · rw [hlocate] at hw₂ ⊢
    obtain ⟨g₂, hseats, hothers, hsent₂⟩ := g₁.join hw₂
    have halone : ∀ seat', (w₂.boards c).seat seat' = some u ↔
        seat' = seat := by
      intro seat'
      rw [hseats]
      by_cases hseat' : seat' = seat
      · simp [hseat']
      · rw [Function.update_of_ne hseat', n₁.boards]
        exact iff_of_false (hinv.seating.not_seated hp hstand c seat') hseat'
    obtain ⟨reply, w₃, w₄, w₅, w', hacc, hreply, hsend, hhalls, hanswered⟩ :=
      joinAccepted_answers env g₂ rfl halone hothers hsent₂
    refine ⟨w', ?_, hanswered.before n₁ hsent₁ hknown₁⟩
    simp only [if_true, hacc, Option.bind_some, hreply, hsend, hhalls]
  · obtain ⟨w', hreply, hanswered⟩ :=
      joinRefused_answers env (c := c) (some c) g₁ hw₂
    refine ⟨w', ?_, hanswered.before n₁ hsent₁ hknown₁⟩
    simp only [Bool.false_eq_true, if_false, hreply, Option.bind_some]

/-! ## GameAgainHandle -/

/-- Whoever sits on a board sits on one chair of it. -/
theorem seat_alone {w : World} (hinv : w.layout.Inv) {b : BoardPtr}
    {u : SessionId} {s : UserSession} {seat : Seat} (hs : w.users u = some s)
    (hseat : (w.boards b).seat seat = some u) :
    s.currChessBoard = some b ∧ s.locate = seat.location := by
  obtain ⟨p, hp, hboard, hlocate⟩ :=
    hinv.seating.seated (show w.layout.seats b seat = some u from hseat)
  simp only [World.layout, hs, Option.map_some, Option.some.injEq] at hp
  subst hp
  exact ⟨hboard, hlocate⟩

/-- The state in which a session is READY again. -/
def World.readied (w : World) (v : SessionId) (s : UserSession) : World :=
  w.setUser v { s with status := .ready }

/-- A snapshot shows boards and sessions only. -/
theorem wrapChessBoardInfo_congr {w w' : World} (c : BoardPtr)
    (hboards : w'.boards = w.boards) (husers : w'.users = w.users) :
    wrapChessBoardInfo c w' = wrapChessBoardInfo c w := by
  simp only [wrapChessBoardInfo, World.wrapUser, hboards, husers]

theorem readied_notified {w w' : World} (n : Notified w w') (v : SessionId)
    (s : UserSession) : Notified (w.readied v s) (w'.readied v s) where
  users := by simp only [World.readied, World.setUser, n.users]
  nextUser := n.nextUser
  boards := n.boards
  fdSessionMap := n.fdSessionMap
  sessionList := n.sessionList
  sqlLog := n.sqlLog

/-- The reply carries the owner of the board that was named, and its snapshot
if the request is granted. -/
theorem playAgain_completes {c : BoardPtr} {v : SessionId} {s : UserSession}
    {w : World} (h : Guest w v s) :
    ∃ ok reply w', playAgain c v w = some (ok, reply, w') ∧
      reply.firstComeUserLocate = (w.boards c).firstComeUserLocate ∧
      ((ok = true ∧ reply.status = 1 ∧
        ((w.table c).began = true ∧ s.status = .ended) ∧
        (∃ info, reply.chessBoard = some info ∧
          wrapChessBoardInfo c (w.readied v s) = some info) ∧
        w' = w.readied v s) ∨
      (ok = false ∧ reply.status = 0 ∧
        ¬ ((w.table c).began = true ∧ s.status = .ended) ∧
        reply.chessBoard = none ∧ w' = w)) := by
  obtain ⟨began, hbegan⟩ := gameBegan_completes (b := c) h.connected
  have hbegan' := gameBegan_eq hbegan
  simp only [playAgain, hbegan, h.session, Option.bind_eq_bind,
    Option.bind_some]
  split
  · rename_i hok
    have h₁ : Guest (w.readied v s) v { s with status := .ready } :=
      h.set rfl rfl rfl rfl
    obtain ⟨info, hinfo⟩ := wrapChessBoardInfo_completes c h₁.connected
    refine ⟨true, ⟨1, (w.boards c).firstComeUserLocate, some info⟩,
      w.readied v s, ?_, rfl, Or.inl ⟨rfl, rfl, ⟨hbegan' ▸ hok.1, hok.2⟩,
        ⟨info, rfl, hinfo⟩, rfl⟩⟩
    rw [modifyUser_eq h.session, Option.bind_some, ← World.readied, hinfo,
      Option.bind_some]
  · rename_i hno
    rw [hbegan'] at hno
    exact ⟨false, _, w, rfl, rfl, Or.inr ⟨rfl, rfl, hno, rfl, rfl⟩⟩

/-- Everybody at the board is READY, or the halls are not told. -/
theorem shouldUpdateHall_completes {w : World} {c : BoardPtr}
    (hc : w.layout.Connected) :
    ∃ update, shouldUpdateHall c w = some update ∧
      (update = true → (w.table c).count (· != .ready) = 0) := by
  have hstatus := fun seat =>
    seatStatus_completes (b := c) hc seat (· != .ready)
  have hl := hstatus .left
  have hr := hstatus .right
  have hb := hstatus .bottom
  simp only [ChessBoard.seat] at hl hr hb
  obtain ⟨num, hnum⟩ : ∃ num, w.countSeats c (· != .ready) = some num := by
    simp only [World.countSeats, hl, hr, hb, Option.bind_eq_bind,
      Option.bind_some]
    exact ⟨_, rfl⟩
  simp only [shouldUpdateHall, hnum, Option.bind_eq_bind, Option.bind_some,
    Option.some.injEq, exists_eq_left', decide_eq_true_eq]
  rw [countSeats_eq hnum]
  exact id

/-- The others at board `b` are told what user `v` was told. -/
def againNews (w : World) (b : BoardPtr) (locate : Location) (v : SessionId)
    (reply : RequestPlayReply) : List Sent :=
  ((w.audience b locate).map fun x => (⟨x, .requestPlayReply,
    .requestPlayReply { reply with status := 2 }⟩ : Sent)).reverse ++
    [⟨v, .requestPlayReply, .requestPlayReply reply⟩]

/-- What is sent when a request of user `v` at board `b` for another game is
granted: it is told, and everybody at its board with it, what is known of
board `c`; the halls are told only if everybody at `c` is READY. -/
structure ToldAgain (b c : BoardPtr) (v : SessionId) (s : UserSession)
    (reply : RequestPlayReply) (w w' : World) : Prop where
  status : reply.status = 1
  granted : (w.table c).began = true ∧ s.status = .ended
  snapshot : ∃ info, reply.chessBoard = some info ∧
    wrapChessBoardInfo c (w.readied v s) = some info
  sends : ∃ news, (∀ x ∈ news, x.isHallNews = true) ∧
    (news ≠ [] → ((w.readied v s).table c).count (· != .ready) = 0) ∧
    Sends w w' (news ++ againNews w b s.locate v reply)

/-- A request is granted: the user is READY. -/
structure PlaysAgain (b c : BoardPtr) (v : SessionId) (s : UserSession)
    (reply : RequestPlayReply) (w w' : World) : Prop
    extends ToldAgain b c v s reply w w' where
  boards : w'.boards = w.boards
  users : w'.users = (w.readied v s).users

/-- What is sent when it is refused: only the user is told. -/
structure ToldOn (c : BoardPtr) (v : SessionId) (s : UserSession)
    (reply : RequestPlayReply) (w w' : World) : Prop where
  status : reply.status = 0
  refused : ¬ ((w.table c).began = true ∧ s.status = .ended)
  snapshot : reply.chessBoard = none
  sends : Sends w w' [⟨v, .requestPlayReply, .requestPlayReply reply⟩]

/-- A request is refused: nothing changes. -/
structure PlaysOn (c : BoardPtr) (v : SessionId) (s : UserSession)
    (reply : RequestPlayReply) (w w' : World) : Prop
    extends ToldOn c v s reply w w' where
  kept : w.Kept w'

/-- What follows a granted request: the replies and the news. -/
theorem playsAgain_sends (env : Env) {b c : BoardPtr} {v : SessionId}
    {s : UserSession} {w w₁ : World} (reply : RequestPlayReply)
    (h : Guest w₁ v { s with status := .ready })
    (hboards : w₁.boards = w.boards)
    (husers : w₁.users = (w.readied v s).users) (hsent : Sends w w₁ []) :
    ∃ w₂ w₃ update w', messageReply env v .requestPlayReply
        (.requestPlayReply reply) w₁ = some (true, w₂) ∧
      w₂.users v = some { s with status := .ready } ∧
      broadCastMsg env b .requestPlayReply
        (.requestPlayReply { reply with status := 2 }) s.locate w₂ =
          some w₃ ∧
      shouldUpdateHall c w₃ = some update ∧
      (if update then broadCastHallInfo env c v w₃ else some w₃) = some w' ∧
      Notified w₁ w' ∧
      ∃ news, (∀ x ∈ news, x.isHallNews = true) ∧
        (news ≠ [] → ((w.readied v s).table c).count (· != .ready) = 0) ∧
        Sends w w' (news ++ againNews w b s.locate v reply) := by
  obtain ⟨w₂, hreply, n₂, _, hsends₂⟩ := h.reply env .requestPlayReply
    (.requestPlayReply reply)
  have g₂ := h.notified n₂
  obtain ⟨w₃, hsend⟩ := broadCastMsg_completes env b .requestPlayReply
    (.requestPlayReply { reply with status := 2 }) s.locate g₂.connected
  have hsends₃ := broadCastMsg_sent (g₂.connected.online b) hsend
  have n₃ := broadCastMsg_notified hsend
  have g₃ := g₂.notified n₃
  obtain ⟨update, hupdate, hready⟩ := shouldUpdateHall_completes (c := c)
    g₃.connected
  obtain ⟨w', hlast, ⟨news, hsends', hnews⟩, n', hquiet⟩ : ∃ w',
      (if update then broadCastHallInfo env c v w₃ else some w₃) = some w' ∧
      SendsOther w₃ w' ∧ Notified w₃ w' ∧
      (update = false → w'.sent = w₃.sent) := by
    cases update with
    | true =>
        obtain ⟨w', h'⟩ := broadCastHallInfo_completes env c g₃.connected
          g₃.place g₃.state
        exact ⟨w', h', broadCastHallInfo_sendsOther h',
          broadCastHallInfo_notified h', by simp⟩
    | false => exact ⟨w₃, rfl, .refl w₃, .refl w₃, fun _ => rfl⟩
  have htable : w₃.table c = (w.readied v s).table c := by
    rw [(n₂.trans n₃).quiet.table c]
    unfold World.table
    rw [husers, hboards]
    rfl
  have haudience : w₂.audience b s.locate = w.audience b s.locate := by
    unfold World.audience
    rw [n₂.boards, hboards]
  refine ⟨w₂, w₃, update, w', hreply, g₂.session, hsend, hupdate, hlast,
    (n₂.trans n₃).trans n', news, hnews, fun hne => ?_, ?_⟩
  · rw [← htable]
    refine hready ?_
    by_contra hno
    rw [Sends, hquiet (Bool.eq_false_of_not_eq_true hno)] at hsends'
    exact hne (List.self_eq_append_left.mp hsends')
  · rw [haudience] at hsends₃
    have hall := ((hsent.trans hsends₂).trans hsends₃).trans hsends'
    rwa [List.append_nil] at hall

/-- Once a board is found and somebody sits on the seat that is named, the
request is handled: that user is READY for another game, and the others at
its board are told; or nothing changes. -/
theorem gameAgainHandle_answers (env : Env) {b : BoardPtr} {v : SessionId}
    {s : UserSession} {msg : Bytes} {m : RequestPlay} {hall : UInt32}
    {c : BoardPtr} {w : World} (hg : Guest w v s)
    (hcurr : s.currChessBoard = some b)
    (hmsg : env.proto.requestPlay msg = some m)
    (hhall : getGameHall m.gameHallId.toUInt32 = some hall)
    (hboard : (w.getChessBoardByID hall m.chessBoardId.toUInt32).1 = some c)
    (hv : (w.boards b).getUserByLocation m.locate.toUInt32 = some v) :
    ∃ reply w', gameAgainHandle env b msg w = some (true, w') ∧
      reply.firstComeUserLocate = (w.boards c).firstComeUserLocate ∧
      (PlaysAgain b c v s reply w w' ∨ PlaysOn c v s reply w w') := by
  have n₁ := getChessBoardByID_notified hall m.chessBoardId.toUInt32 w
  obtain ⟨hsent₁, hknown₁⟩ :=
    getChessBoardByID_keeps w hall m.chessBoardId.toUInt32
  simp only [gameAgainHandle, hmsg, hhall, Option.bind_eq_bind]
  revert hboard n₁ hsent₁ hknown₁
  generalize w.getChessBoardByID hall m.chessBoardId.toUInt32 = found
  obtain ⟨chessBoard, w₁⟩ := found
  intro hboard n₁ hsent₁ hknown₁
  dsimp only at hboard n₁ hsent₁ hknown₁ ⊢
  subst hboard
  rw [n₁.boards, hv]
  have g₁ := hg.notified n₁
  obtain ⟨ok, reply, w₂, hagain, hfirst, hcase⟩ :=
    playAgain_completes (c := c) g₁
  rw [n₁.boards] at hfirst
  simp only [Option.bind_some, hagain]
  rw [n₁.quiet.table c] at hcase
  rcases hcase with ⟨rfl, hgrant, hended, ⟨info, hinfo, hwrap⟩, hw₂⟩ |
    ⟨rfl, hrefuse, hno, hnone, rfl⟩
  · have nr := readied_notified n₁ v s
    have g₂ : Guest w₂ v { s with status := .ready } := by
      rw [hw₂]
      exact g₁.set rfl rfl rfl rfl
    have hboards₂ : w₂.boards = w.boards := by rw [hw₂]; exact nr.boards
    have husers₂ : w₂.users = (w.readied v s).users := by
      rw [hw₂]
      exact nr.users
    have hsent₂ : Sends w w₂ [] := by
      unfold Sends
      rw [hw₂]
      exact hsent₁
    obtain ⟨w₃, w₄, update, w', hreply, hsession, hsend, hupdate, hlast, n,
      hsends⟩ := playsAgain_sends env (c := c) reply g₂ hboards₂ husers₂ hsent₂
    refine ⟨reply, w', ?_, hfirst, Or.inl
      ⟨⟨hgrant, hended, ⟨info, hinfo, ?_⟩, hsends⟩,
        n.boards.trans hboards₂, n.users.trans husers₂⟩⟩
    · simp only [hreply, Option.bind_some, if_true, hsession, hcurr, hsend,
        hupdate, hlast]
    · rw [← wrapChessBoardInfo_congr c nr.boards nr.users, hwrap]
  · obtain ⟨w₃, hreply, n₃, hhalls, hsends₃⟩ := g₁.reply env
      .requestPlayReply (.requestPlayReply reply)
    refine ⟨reply, w₃, ?_, hfirst, Or.inr ⟨⟨hrefuse, hno, hnone, ?_⟩,
      ⟨n₃.boards.trans n₁.boards, fun h i c hc => ?_, fun x => ?_⟩⟩⟩
    · simp only [hreply, Option.bind_some, Bool.false_eq_true, if_false]
    · unfold Sends at hsends₃ ⊢
      rw [hsends₃, hsent₁]
    · rw [hhalls]
      exact hknown₁ h i c hc
    · rw [n₃.users, n₁.users]

end ChessServer
