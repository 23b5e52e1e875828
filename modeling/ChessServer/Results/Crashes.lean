import ChessServer.Proofs.Fatal
import ChessServer.Results.FrameBounds

/-!
# When the process dies

A null pointer that is followed kills the process, and with it everybody's
games.  In every state that the server reaches, the events that do this are
the messages of `World.fatalMessage`; nothing else that can happen does
(`dies_exactly`).
-/

namespace ChessServer

variable {env : Env} {u : SessionId} {s : UserSession} {msg : Bytes}
  {w : World}

/-- The event completes a message that is fatal. -/
def World.fatal (env : Env) (w : World) : Event → Bool
  | .read u data =>
      match w.received u data with
      | .message msgType msg => w.fatalMessage env u msgType msg
      | _ => false
  | _ => false

/-! ## StateGamePlay -/

theorem stateGamePlaySwitch_returns {type : MessageType} {msgType : UInt32}
    (hinv : w.layout.Inv) (hw : w.Published) (h : Guest w u s)
    (hcode : MessageType.ofCode msgType = some type)
    (hlive : w.fatalPlay env s type msg = false) :
    Returns (fun r => r.1 = true ∨ ∃ s', Guest r.2 u s')
      (stateGamePlaySwitch env u msgType msg w) := by
  have hkeeps : ∀ {r : Option (Bool × World)}, Survives u r →
      Returns (fun r => r.1 = true ∨ ∃ s', Guest r.2 u s') r := by
    intro r hr
    exact hr.mono fun _ => Or.inr
  have hrefused : Returns (fun r => r.1 = true ∨ ∃ s', Guest r.2 u s')
      (some (false, w)) := .pure (Or.inr ⟨s, h⟩)
  unfold stateGamePlaySwitch
  rw [hcode]
  split
  · exact hkeeps (gameHallSumaryHandle_survives env h)
  · exact hkeeps (hallInfoReqHandle_survives env msg h)
  · exact hkeeps (echoMsgHandle_survives env _ h)
  · rename_i heq
    cases heq
    unfold chessBoardReq
    cases hmsg : env.proto.chessBoardInfoReq msg with
    | none => exact .pure (Or.inl rfl)
    | some req =>
        apply Returns.bind_some h.session
        cases hboard : s.currChessBoard with
        | none =>
            simp [World.fatalPlay, hboard, needsBoard, hmsg] at hlive
        | some b =>
            obtain ⟨info, hinfo⟩ := wrapChessBoardInfo_completes b h.connected
            apply Returns.bind_some rfl
            apply Returns.bind_some hinfo
            apply (h.replies env _ _).bind
            intro r _
            exact .pure (Or.inl rfl)
  · exact hkeeps (updateUserInfos_survives env msg h)
  · rename_i heq
    cases heq
    apply Returns.ite
    · intro hgame
      apply Returns.bind_some h.session
      cases hboard : s.currChessBoard with
      | none =>
          have hblind : looksAtBoard env msg type = false := by
            have hboth := hlive
            simp only [World.fatalPlay, hboard, needsBoard,
              Bool.or_eq_false_iff] at hboth
            exact hboth.1
          obtain ⟨r, hr⟩ : ∃ r, translateMsgNull env msgType msg w = some r := by
            simp [translateMsgNull, hcode, hblind]
          obtain ⟨_, hret, hkept, n⟩ := translateMsgNull_notified hcode hr
          exact ⟨r, hr, Or.inr ⟨s, h.notified n⟩⟩
      | some b =>
          have hlive' : w.fatalOnBoard env b type msg = false := by
            simpa [World.fatalPlay, hboard] using hlive
          apply (translateMsg_returns hinv hw hcode hlive').mono
          intro r hr
          rcases hr with hr | hr
          · exact Or.inl hr
          · exact Or.inr ⟨s, hr.symm ▸ h⟩
    · intro _
      exact hrefused
  · exact hrefused

theorem stateGamePlayMsgHandle_returns {type : MessageType}
    {msgType : UInt32} (hinv : w.layout.Inv) (hw : w.Published)
    (h : Guest w u s) (hcode : MessageType.ofCode msgType = some type)
    (hlive : w.fatalPlay env s type msg = false) :
    Returns (fun _ => True) (stateGamePlayMsgHandle env u msgType msg w) := by
  unfold stateGamePlayMsgHandle
  apply (stateGamePlaySwitch_returns hinv hw h hcode hlive).bind
  intro r hr
  apply Returns.ite
  · intro _
    exact .pure trivial
  · intro hret
    obtain ⟨s', g⟩ := hr.resolve_left hret
    apply (setNextState_survives .gameReady g).bind
    intro w₁ hw₁
    obtain ⟨s₁, g₁⟩ := hw₁
    apply (g₁.assign rfl rfl rfl rfl).bind
    intro _ _
    exact .pure trivial

/-- Only the messages of a game look at the board. -/
theorem looksAtBoard_inGame {type : MessageType}
    (h : looksAtBoard env msg type = true) : type.inGame = true := by
  cases type <;> first | rfl | cases h

theorem stateGamePlayMsgHandle_dies {type : MessageType} {msgType : UInt32}
    (hw : w.Published) (hs : w.users u = some s)
    (hcode : MessageType.ofCode msgType = some type)
    (hfatal : w.fatalPlay env s type msg = true) :
    stateGamePlayMsgHandle env u msgType msg w = none := by
  have hswitch : stateGamePlaySwitch env u msgType msg w = none := by
    unfold World.fatalPlay at hfatal
    cases hboard : s.currChessBoard with
    | none =>
        -- a session that was sent away from its board
        rw [hboard] at hfatal
        rcases Bool.or_eq_true _ _ ▸ hfatal with hlooks | hinfo
        · rw [stateGamePlaySwitch_inGame hcode (looksAtBoard_inGame hlooks), hs]
          show s.currChessBoard.elim (translateMsgNull env msgType msg w) _ =
            none
          rw [hboard]
          simp [translateMsgNull, hcode, hlooks]
        · rw [Bool.and_eq_true, beq_iff_eq] at hinfo
          obtain ⟨rfl, hparses⟩ := hinfo
          obtain ⟨req, hreq⟩ := Option.isSome_iff_exists.mp hparses
          simp [stateGamePlaySwitch, hcode, chessBoardReq, hreq, hs, hboard]
    | some b =>
        rw [hboard] at hfatal
        have hdies := translateMsg_dies hw hcode hfatal
        cases type with
        | moveChess | undoReq | undoReps | requestPlay =>
            simp [stateGamePlaySwitch, hcode, MessageType.inGame, hs, hboard,
              hdies]
        | _ => cases hfatal
  simp [stateGamePlayMsgHandle, hswitch]

/-! ## UserSession::MessageHandle -/

theorem fatalMessage_eq {msgType : UInt32} {type : MessageType}
    (hs : w.users u = some s) (hcode : MessageType.ofCode msgType = some type) :
    w.fatalMessage env u msgType msg = w.fatalIn env s type msg := by
  simp only [World.fatalMessage, hs, hcode]

/-- A code that is no type is refused by every state. -/
theorem msgHandle_unknown {state : StateType} {msgType : UInt32}
    (h : Guest w u s) (hcode : MessageType.ofCode msgType = none) :
    Returns (fun _ => True) (state.msgHandle env u msgType msg w) := by
  cases state with
  | auth =>
      simp only [StateType.msgHandle, stateAuthMsgHandle, hcode]
      exact .pure trivial
  | downAd =>
      simp only [StateType.msgHandle, stateAdPictureDownloadMsgHandle, hcode]
      exact .pure trivial
  | gameReady =>
      simp only [StateType.msgHandle, stateGameReadyMsgHandle, hcode]
      exact .pure trivial
  | gamePlay =>
      simp only [StateType.msgHandle, stateGamePlayMsgHandle,
        stateGamePlaySwitch, hcode]
      apply Returns.bind_some rfl
      apply (setNextState_survives .gameReady h).bind
      intro w₁ hw₁
      obtain ⟨s₁, g₁⟩ := hw₁
      apply (g₁.assign rfl rfl rfl rfl).bind
      intro _ _
      exact .pure trivial

theorem msgHandle_returns {state : StateType} {msgType : UInt32}
    (hinv : w.layout.Inv) (hw : w.Published) (hs : w.users u = some s)
    (hstate : s.stateMachine = some state)
    (hlive : w.fatalMessage env u msgType msg = false) :
    Returns (fun _ => True) (state.msgHandle env u msgType msg w) := by
  have h : Guest w u s := guest_of_state hinv hs hstate
  have hsome : s.state = state := by simp [UserSession.state, hstate]
  cases hcode : MessageType.ofCode msgType with
  | none => exact msgHandle_unknown h hcode
  | some type =>
      rw [fatalMessage_eq hs hcode] at hlive
      unfold World.fatalIn at hlive
      rw [hsome] at hlive
      cases state with
      | auth =>
          apply (stateAuthMsgHandle_survives h ?_).mono
          · intro _ _
            trivial
          · intro hlogin
            rw [hcode] at hlogin
            cases hlogin
            exact hlive
      | downAd =>
          apply (stateAdPictureDownloadMsgHandle_survives env _ _ h).mono
          intro _ _
          trivial
      | gameReady =>
          have hkeeps : ∀ {r : Option (Bool × World)}, Survives u r →
              Returns (fun _ => True) r := by
            intro r hr
            exact hr.mono fun _ _ => trivial
          simp only [StateType.msgHandle, stateGameReadyMsgHandle, hcode]
          split
          · exact hkeeps (gameHallSumaryHandle_survives env h)
          · exact hkeeps (hallInfoReqHandle_survives env msg h)
          · rename_i heq
            cases heq
            exact gameRequestHandle_returns hinv hw hs hstate hlive
          · exact hkeeps (echoMsgHandle_survives env _ h)
          · exact hkeeps (updateUserInfos_survives env msg h)
          · exact .pure trivial
      | gamePlay =>
          exact stateGamePlayMsgHandle_returns hinv hw h hcode hlive

theorem msgHandle_dies {state : StateType} {msgType : UInt32}
    (hinv : w.layout.Inv) (hw : w.Published) (hs : w.users u = some s)
    (hstate : s.stateMachine = some state)
    (hfatal : w.fatalMessage env u msgType msg = true) :
    state.msgHandle env u msgType msg w = none := by
  have hsome : s.state = state := by simp [UserSession.state, hstate]
  cases hcode : MessageType.ofCode msgType with
  | none => simp [World.fatalMessage, hs, hcode] at hfatal
  | some type =>
      rw [fatalMessage_eq hs hcode] at hfatal
      unfold World.fatalIn at hfatal
      rw [hsome] at hfatal
      cases state with
      | auth =>
          simp only [Bool.and_eq_true, beq_iff_eq] at hfatal
          have hlogin := handleLogin_dies (guest_of_state hinv hs hstate)
            hfatal.2
          simp [StateType.msgHandle, stateAuthMsgHandle, hcode, hfatal.1,
            hlogin]
      | downAd => cases hfatal
      | gameReady =>
          simp only [Bool.and_eq_true, beq_iff_eq] at hfatal
          have hplay := gameRequestHandle_dies (u := u) hw hfatal.2
          simp [StateType.msgHandle, stateGameReadyMsgHandle, hcode, hfatal.1,
            hplay]
      | gamePlay => exact stateGamePlayMsgHandle_dies hw hs hcode hfatal

/-- What decides whether a message is fatal. -/
theorem fatalMessage_congr {w' : World} {s' : UserSession} (msgType : UInt32)
    (msg : Bytes) (hs : w.users u = some s) (hs' : w'.users u = some s')
    (hstate : s'.state = s.state)
    (hboard : s'.currChessBoard = s.currChessBoard)
    (hboards : w'.boards = w.boards) (hlog : w'.sqlLog = w.sqlLog)
    (hmap : w'.fdSessionMap = w.fdSessionMap)
    (haccount : ∀ v, (w'.users v).map (fun s => s.userInfo.account) =
      (w.users v).map fun s => s.userInfo.account) :
    w'.fatalMessage env u msgType msg = w.fatalMessage env u msgType msg := by
  have hlogin : w'.fatalLogin env msg = w.fatalLogin env msg := by
    unfold World.fatalLogin World.userRows World.query
    simp only [hlog, fun account =>
      getIndividualUser_congr account hmap haccount]
  have hplay : ∀ type, w'.fatalPlay env s' type msg =
      w.fatalPlay env s type msg := by
    intro type
    unfold World.fatalPlay World.fatalOnBoard
    rw [hboard, hboards]
  have hin : ∀ type, w'.fatalIn env s' type msg = w.fatalIn env s type msg := by
    intro type
    unfold World.fatalIn
    rw [hstate, hlogin, hplay]
  unfold World.fatalMessage
  rw [hs, hs']
  cases MessageType.ofCode msgType with
  | none => rfl
  | some type => exact hin type

/-- A state object's handler decides, whatever follows it without fail. -/
theorem msgHandle_bind_iff {state : StateType} {fd : Int} {msgType : UInt32}
    {k : Bool × World → Option (Bool × World)} (hinv : w.layout.Inv)
    (hw : w.Published) (hreg : w.layout.registry fd = some u)
    (hs : w.users u = some s) (hstate : s.stateMachine = some state)
    (hk : ∀ r : Bool × World, (r.1 = true → ∃ t, r.2.users u = some t) →
      Returns (fun _ => True) (k r)) :
    (state.msgHandle env u msgType msg w).bind k = none ↔
      w.fatalMessage env u msgType msg = true := by
  have hp : w.layout.place u = some s.place := by simp [World.layout, hs]
  apply eq_none_iff_of
  · intro hfatal
    rw [msgHandle_dies hinv hw hs hstate hfatal]
    rfl
  · intro hlive
    obtain ⟨⟨ret, w'⟩, hr, _⟩ := msgHandle_returns hinv hw hs hstate
      (Bool.not_eq_true _ ▸ hlive)
    apply Returns.bind_some hr
    apply hk
    intro hret
    dsimp only at hret
    have hstand : state ≠ .gamePlay → s.currChessBoard = none := fun hne =>
      standing_of_settled (hinv.settled u _ hp (by simp))
        (by simpa [hstate] using hne)
    rcases msgHandle_outcome hinv.seating hs hstate hstand hr with
      ⟨_, hout⟩ | ⟨hno, _⟩ | ⟨hno, _⟩
    · obtain ⟨p, hp', _⟩ := (hout.kept hinv hreg hp
        (by simp [UserSession.place, hstate])).pending
      obtain ⟨t, ht, _⟩ := place_session hp'
      exact ⟨t, ht⟩
    · rw [hno] at hret
      cases hret
    · rw [hno] at hret
      cases hret

theorem sessionMessageHandle_iff {fd : Int} {msgType : UInt32}
    (hinv : w.layout.Inv) (hw : w.Published)
    (hreg : w.layout.registry fd = some u) :
    sessionMessageHandle env u msgType msg w = none ↔
      w.fatalMessage env u msgType msg = true := by
  obtain ⟨s, hs, _⟩ := registered_session hinv.registry hreg
  simp only [sessionMessageHandle, hs, Option.bind_eq_bind, Option.bind_some]
  have hswitch : ∀ r : Bool × World,
      (r.1 = true → ∃ t, r.2.users u = some t) →
      ∀ {k : UserSession → Option (Bool × World)},
        (∀ t, Returns (fun _ => True) (k t)) →
        Returns (fun _ => True)
          (if r.1 then (r.2.users u).bind k else some (false, r.2)) := by
    intro r hr k hk
    apply Returns.ite
    · intro hret
      obtain ⟨t, ht⟩ := hr hret
      exact Returns.bind_some ht (hk t)
    · intro _
      exact .pure trivial
  cases hstate : s.stateMachine with
  | none =>
      -- the session gets its first state object
      have hsettles := start_settles hinv hreg hs hstate
      have hself := setUser_users_self w u
        { s with stateMachine := some .auth, nextState := some .auth }
      refine (msgHandle_bind_iff hsettles.inv ⟨hw.max, hw.known, hw.seated⟩
        (hsettles.registry ▸ hreg) hself rfl ?_).trans ?_
      · intro r hr
        apply hswitch r hr
        intro t
        split
        · apply Returns.ite <;> exact fun _ => .pure trivial
        · exact .pure trivial
      · rw [fatalMessage_congr msgType msg hs hself
          (by simp [UserSession.state, hstate]) rfl rfl rfl rfl]
        intro v
        by_cases hv : v = u
        · subst hv
          rw [hself, hs]
          rfl
        · simp [World.setUser, hv]
  | some state =>
      refine msgHandle_bind_iff hinv hw hreg hs hstate ?_
      intro r hr
      apply hswitch r hr
      intro t
      split
      · apply Returns.ite <;> exact fun _ => .pure trivial
      · exact .pure trivial

/-! ## WorkThread -/

/-- A message that is turned down leaves everybody connected. -/
theorem Dismissed.connected {w' : World} {rejected : Bool}
    (hs : w.users u = some s) (d : Dismissed u w w' rejected) :
    w'.layout.Connected where
  registered := by
    intro fd v hv
    obtain ⟨p, hp, _, honline⟩ := d.registryInv.registered hv
    exact ⟨p, hp, honline⟩
  seated := by
    intro b seat v hv
    obtain ⟨p, hp, hboard, _⟩ := d.seating.seated hv
    obtain ⟨q, hq, _, honline⟩ :=
      d.registryInv.registered (d.registryInv.onBoard hp hboard)
    rw [hp] at hq
    cases hq
    refine ⟨p, hp, honline, ?_⟩
    by_cases hvu : v = u
    · subst hvu
      obtain ⟨s', hs', hstate, _⟩ := d.session s hs
      obtain ⟨t, ht, rfl⟩ := place_session hp
      rw [hs'] at ht
      cases ht
      exact hstate
    · have hsettled := d.settled v p hp (by simpa using hvu)
      rw [Place.Settled, if_pos (by simp [hboard])] at hsettled
      simp [hsettled.1]

/-- A connection can always be closed. -/
theorem closingClientCon_returns (env : Env) {fd : Int}
    (hregistry : w.layout.Registry none) (hseating : w.layout.Seating)
    (hsettled : w.layout.Settled (some u)) (hc : w.layout.Connected)
    (hreg : w.layout.registry fd = some u) (hs : w.users u = some s)
    (hstate : s.stateMachine = none → s.nextState = none) :
    Returns (fun _ => True) (closingClientCon env fd w) := by
  cases hboard : s.currChessBoard with
  | some b =>
      obtain ⟨seat, _, hseat, _⟩ := chair_eq hseating hs hboard
      obtain ⟨w', h, _⟩ := closingClientCon_hangs env fd hregistry hseating
        hsettled hc hreg hs hboard hseat hstate
      exact ⟨w', h, trivial⟩
  | none =>
      have hlookup : w.fdSessionMap[fd]? = some u := hreg
      have hdestruct := destructResource_standing env
        (w := { w with fdSessionMap := w.fdSessionMap.erase fd }) hs hboard
      have hseating₁ : ({ w with fdSessionMap := w.fdSessionMap.erase fd } :
          World).layout.Seating := by
        rw [layout_erase]
        exact ⟨hseating.seated, hseating.onBoard, hseating.count⟩
      have c := destructResource_closes hseating₁ hs hstate
        (registered_open hregistry hreg hs).2 hdestruct
      have hinv := recycled_inv hregistry hseating hsettled hreg hs
        (by rw [c.layout, layout_erase]; rfl)
      simp only [closingClientCon, hlookup, recycleSession, hdestruct,
        Option.bind_eq_bind, Option.bind_some]
      split
      · obtain ⟨w', h⟩ := destrorySessionsFromPool_completes env
          connectionMaxStep hinv
        exact ⟨w', h, trivial⟩
      · exact .pure trivial

theorem closing_returns (env : Env) {fd : Int} (hinv : w.layout.Inv)
    (hreg : w.layout.registry fd = some u) :
    Returns (fun _ => True) (closingClientCon env fd w) := by
  obtain ⟨s, hs, _⟩ := registered_session hinv.registry hreg
  refine closingClientCon_returns env hinv.registry hinv.seating
    hinv.settled.mono hinv.connected hreg hs fun hnone => ?_
  have hsettled := hinv.settled u s.place (by simp [World.layout, hs])
    (by simp)
  unfold Place.Settled at hsettled
  have hnone' : s.place.stateMachine = none := hnone
  rw [hnone'] at hsettled
  split at hsettled
  · cases hsettled.1
  · rcases hsettled with hsame | hplay
    · exact hsame.1
    · cases hplay.1

theorem messageHandle_iff {fd : Int} {msgType : UInt32}
    (hinv : w.layout.Inv) (hw : w.Published)
    (hreg : w.layout.registry fd = some u) :
    messageHandle env fd msgType msg w = none ↔
      w.fatalMessage env u msgType msg = true := by
  have hlookup : w.fdSessionMap[fd]? = some u := hreg
  have hsession : sessionMessageHandle env u msgType msg w = none ↔ _ :=
    sessionMessageHandle_iff hinv hw hreg
  simp only [messageHandle, hlookup, Option.bind_eq_bind]
  rw [← hsession]
  apply eq_none_iff_of
  · intro hnone
    rw [hnone]
    rfl
  · intro hsome
    obtain ⟨⟨ret, w'⟩, hr⟩ := Option.ne_none_iff_exists'.mp hsome
    obtain ⟨s, hs, _⟩ := registered_session hinv.registry hreg
    apply Returns.bind_some hr
    apply Returns.ite
    · intro _
      exact .pure trivial
    · intro hret
      obtain ⟨rejected, d⟩ : ∃ rejected, Dismissed u w w' rejected := by
        rcases sessionMessageHandle_cases hinv hreg hs hr with
          ⟨hyes, _⟩ | ⟨_, _, d⟩ | ⟨_, _, _, d⟩
        · exact absurd hyes hret
        · exact ⟨false, d⟩
        · exact ⟨true, d⟩
      obtain ⟨s', hs', hstate, _⟩ := d.session s hs
      apply (closingClientCon_returns env d.registryInv d.seating d.settled
        (d.connected hs) (d.registry ▸ hreg) hs' fun hnone => ?_).bind
      · intro _ _
        exact .pure trivial
      · rw [hnone] at hstate
        cases hstate

/-- A frame that passed its checks has a body. -/
theorem received_ne_broken {info : ReadBufInfo} {input : Bytes}
    (h : info.Peeked input) : info.received input ≠ .broken := by
  unfold ReadBufInfo.received
  cases hrefuse : info.refuses input with
  | true => simp
  | false =>
      by_cases hcomplete : (info.accept input).complete input = true
      · have hlower := ((h.accept hrefuse).bounds hcomplete).1
        simp [hcomplete, ReadBufInfo.body, Nat.not_lt.mpr hlower]
      · simp [hcomplete]

theorem Buffers.fatalMessage {w₁ : World} (hb : Buffers u w w₁)
    (hs : w.users u = some s) (msgType : UInt32) (msg : Bytes) :
    w₁.fatalMessage env u msgType msg = w.fatalMessage env u msgType msg := by
  obtain ⟨s₁, hs₁, hcore⟩ := hb.session s hs
  obtain ⟨_, _, _, hboard, hstate, _, hinfo, _⟩ := core_eq hcore
  apply fatalMessage_congr msgType msg hs hs₁
    (by rw [UserSession.state, hstate, UserSession.state]) hboard hb.boards
    hb.sqlLog hb.fdSessionMap
  intro v
  by_cases hv : v = u
  · subst hv
    rw [hs, hs₁, Option.map_some, Option.map_some, hinfo]
  · rw [hb.users v hv]

theorem Buffers.published {w₁ : World} (hb : Buffers u w w₁)
    (hw : w.Published) : w₁.Published where
  max := by
    rw [hb.halls]
    exact hw.max
  known := by
    rw [hb.halls]
    exact hw.known
  seated := by
    rw [hb.halls, hb.boards]
    exact hw.seated

theorem read_iff {data : Bytes} (hinv : w.layout.Inv) (hw : w.Published)
    (hpeeked : w.layout.Peeked) (henabled : (Event.read u data).Enabled w) :
    World.step env (.read u data) w = none ↔
      w.fatal env (.read u data) = true := by
  obtain ⟨s, hs, hbuf⟩ := henabled
  have hreg := enabled_registered hinv hs (Or.inl hbuf)
  obtain ⟨input, hinput⟩ := Option.ne_none_iff_exists'.mp hbuf
  obtain ⟨s', hs', _, honline⟩ := registered_session hinv.registry hreg
  rw [hs] at hs'
  cases hs'
  obtain ⟨w₁, _, hb, _, _, hstep⟩ :=
    read_step env data hs hinput honline.thread
  have hinv₁ := hb.inv hinv hreg
  have hreg₁ : w₁.layout.registry s.clifd = some u := by rw [hb.registry, hreg]
  rw [hstep]
  cases hrecv : w.received u data with
  | waiting => simp [World.handleReceived, World.fatal, hrecv]
  | refused =>
      have hclose := (closing_returns env hinv₁ hreg₁).ne_none
      simp [World.handleReceived, World.fatal, hrecv, hclose]
  | broken =>
      have hbefore := hpeeked _ u input s.bufInfo hreg (by
        rw [input_eq hs, hinput])
      rw [received_eq hs hinput] at hrecv
      exact absurd hrecv (received_ne_broken (hbefore.append data))
  | message msgType msg =>
      have hmsg : messageHandle env s.clifd msgType msg w₁ = none ↔ _ :=
        messageHandle_iff hinv₁ (hb.published hw) hreg₁
      rw [hb.fatalMessage hs] at hmsg
      simp only [World.handleReceived, World.fatal, hrecv,
        Option.bind_eq_bind]
      rw [← hmsg]
      apply eq_none_iff_of
      · intro hnone
        rw [hnone]
        rfl
      · intro hsome
        obtain ⟨⟨ret, w₂⟩, hr⟩ := Option.ne_none_iff_exists'.mp hsome
        apply Returns.bind_some hr
        apply Returns.ite
        · intro hret
          dsimp only at hret
          rcases messageHandle_cases hinv₁ hreg₁ hr with
            ⟨_, hh⟩ | ⟨hno, _⟩
          · have hreg₂ : w₂.layout.registry s.clifd = some u := by
              rw [hh.registry, hreg₁]
            obtain ⟨t, ht, _⟩ := registered_session hh.inv.registry hreg₂
            exact ⟨_, modifyUser_eq ht _, trivial⟩
          · rw [hno] at hret
            cases hret
        · intro _
          exact .pure trivial

end ChessServer
