import ChessServer.Proofs.Close

/-!
# Nothing is dereferenced in vain

A handler fails where the process would die on a pointer.  As long as every
session that a notification can reach is connected, replies and broadcasts
complete (`broadCastHallInfo_completes`), and so do leaving a board and closing
a connection.
-/

namespace ChessServer

/-- Everybody whom a notification can reach can be written to, and who is
seated has a state object. -/
structure Layout.Connected (l : Layout) : Prop where
  registered : ∀ {fd v}, l.registry fd = some v →
    ∃ p, l.place v = some p ∧ p.Online
  seated : ∀ {b seat v}, l.seats b seat = some v →
    ∃ p, l.place v = some p ∧ p.Online ∧ p.stateMachine.isSome

/-- In every state with the invariant, whoever has a connection can be written
to. -/
theorem Layout.Inv.connected {l : Layout} (hinv : l.Inv) : l.Connected where
  registered := by
    intro fd v hv
    obtain ⟨p, hp, _, honline⟩ := hinv.registry.registered hv
    exact ⟨p, hp, honline⟩
  seated := by
    intro b seat v hv
    obtain ⟨p, hp, hboard, _⟩ := hinv.seating.seated hv
    obtain ⟨q, hq, _, honline⟩ :=
      hinv.registry.registered (hinv.registry.onBoard hp hboard)
    rw [hp] at hq
    cases hq
    have hsettled := hinv.settled v p hp (by simp)
    rw [Place.Settled, if_pos (by simp [hboard])] at hsettled
    exact ⟨p, hp, honline, by simp [hsettled.1]⟩

/-- Changing what a session knows beyond its connection. -/
theorem Layout.Connected.modify {l : Layout} (hl : l.Connected)
    {u : SessionId} {f : Place → Place}
    (hf : ∀ p, l.place u = some p → (f p).clifd = p.clifd ∧
      (f p).thread = p.thread ∧ (f p).bufev.isSome = p.bufev.isSome ∧
      (f p).stateMachine = p.stateMachine) : (l.modify u f).Connected := by
  have hkeep : ∀ {v p}, l.place v = some p → p.Online →
      ∃ q, (l.modify u f).place v = some q ∧ q.Online ∧
        q.stateMachine = p.stateMachine := by
    intro v p hp honline
    by_cases hv : v = u
    · subst hv
      obtain ⟨hclifd, hthread, hbufev, hstate⟩ := hf p hp
      exact ⟨f p, by simp [hp], ⟨hclifd ▸ honline.clifd,
        hthread ▸ honline.thread, hbufev ▸ honline.bufev⟩, hstate⟩
    · exact ⟨p, (Layout.modify_other hv).trans hp, honline, rfl⟩
  refine ⟨fun hv => ?_, fun hv => ?_⟩
  · obtain ⟨p, hp, honline⟩ := hl.registered hv
    obtain ⟨q, hq, honline', _⟩ := hkeep hp honline
    exact ⟨q, hq, honline'⟩
  · obtain ⟨p, hp, honline, hstate⟩ := hl.seated hv
    obtain ⟨q, hq, honline', hstate'⟩ := hkeep hp honline
    exact ⟨q, hq, honline', hstate' ▸ hstate⟩

/-! ## Replies and broadcasts -/

/-- A place is that of a session. -/
theorem place_session {w : World} {u : SessionId} {p : Place}
    (hp : w.layout.place u = some p) :
    ∃ s, w.users u = some s ∧ s.place = p := by
  simpa [World.layout, Option.map_eq_some_iff] using hp

/-- A reply to a session with a connection completes. -/
theorem messageReply_completes (env : Env) {u : SessionId}
    (type : MessageType) (body : Payload) {w : World} {p : Place}
    (hp : w.layout.place u = some p) (honline : p.Online) :
    ∃ ret w', messageReply env u type body w = some (ret, w') := by
  obtain ⟨s, hs, rfl⟩ := place_session hp
  obtain ⟨t, ht⟩ := Option.isSome_iff_exists.mp honline.thread
  obtain ⟨bufev, hbufev⟩ := Option.isSome_iff_exists.mp honline.bufev
  simp only [UserSession.place] at ht hbufev
  have hbuf := getBuffer_notified u ((body.bytes env).length + dataHeadLength) w
  simp only [messageReply, hs, ht, Option.bind_eq_bind, Option.bind_some,
    onWrite]
  split
  · exact ⟨_, _, rfl⟩
  · rw [hbuf.users, hs]
    simp [hbufev]

theorem Notified.connected {w w' : World} (h : Notified w w')
    (hc : w.layout.Connected) : w'.layout.Connected := h.layout ▸ hc

/-- So does a broadcast to a board. -/
theorem broadCastMsg_completes (env : Env) (this : BoardPtr)
    (type : MessageType) (body : Payload) (filter : UInt32) {w : World}
    (hc : w.layout.Connected) :
    ∃ w', broadCastMsg env this type body filter w = some w' := by
  obtain ⟨w', h, _⟩ : ∃ w', broadCastMsg env this type body filter w =
      some w' ∧ w'.layout.Connected :=
    OptionFold.completes locations hc fun w locate _ hc => by
      by_cases hfilter : locate ≠ filter
      · rw [if_pos hfilter]
        cases hu : (w.boards this).getUserByLocation locate with
        | none => exact ⟨w, rfl, hc⟩
        | some u =>
            obtain ⟨seat, _, hseat⟩ := getUserByLocation_eq_some hu
            obtain ⟨p, hp, honline, _⟩ := hc.seated (b := this) hseat
            obtain ⟨ret, w', hw'⟩ := messageReply_completes env type
              body hp honline
            exact ⟨w', by simp [hw'], (messageReply_notified hw').connected hc⟩
      · rw [if_neg hfilter]
        exact ⟨w, rfl, hc⟩
  exact ⟨w', h⟩

theorem wrapChessBoardInfo_completes (this : BoardPtr) {w : World}
    (hc : w.layout.Connected) :
    ∃ info, wrapChessBoardInfo this w = some info := by
  have huser : ∀ seat, ∃ r, w.wrapUser ((w.boards this).seat seat) = some r := by
    intro seat
    cases hu : (w.boards this).seat seat with
    | none => exact ⟨_, rfl⟩
    | some u =>
        obtain ⟨p, hp, _⟩ := hc.seated (b := this) hu
        obtain ⟨s, hs, _⟩ := place_session hp
        simp only [World.wrapUser, hs]
        exact ⟨_, rfl⟩
  obtain ⟨left, hleft⟩ := huser .left
  obtain ⟨right, hright⟩ := huser .right
  obtain ⟨bottom, hbottom⟩ := huser .bottom
  simp only [ChessBoard.seat] at hleft hright hbottom
  simp only [wrapChessBoardInfo, hleft, hright, hbottom, Option.bind_eq_bind,
    Option.bind_some]
  exact ⟨_, rfl⟩

/-- And collecting a hall. -/
theorem wrapHallInfo_completes (hallId : UInt32) {w : World}
    (hc : w.layout.Connected) :
    ∃ info w', wrapHallInfo hallId w = some (info, w') := by
  unfold wrapHallInfo
  cases hhall : getGameHall hallId with
  | none => exact ⟨_, _, rfl⟩
  | some hall =>
      obtain ⟨r, hr, _⟩ := OptionFold.completes
        (P := fun acc : List ChessBoardInfo × World => acc.2.layout.Connected)
        (f := wrapHallBoard hall) (idsUpTo chessBoardMaxNum)
        (a := ([], w)) hc fun acc j _ hacc => by
          have n := getChessBoardByID_notified hall j acc.2
          unfold wrapHallBoard
          cases hget : acc.2.getChessBoardByID hall j with
          | mk chessBoard w₁ =>
              rw [hget] at n
              have hc₁ := n.connected hacc
              cases chessBoard with
              | none => exact ⟨_, rfl, hc₁⟩
              | some b =>
                  obtain ⟨info, hinfo⟩ :=
                    wrapChessBoardInfo_completes b hc₁
                  exact ⟨(acc.1 ++ [info], w₁), by simp [hinfo], hc₁⟩
      exact ⟨_, _, by simp only [hr, Option.bind_eq_bind, Option.bind_some]; rfl⟩

theorem gameHallSumaryHandle_completes (env : Env) {u : SessionId}
    {w : World} {p : Place} (hp : w.layout.place u = some p)
    (honline : p.Online) :
    ∃ ret w', gameHallSumaryHandle env u w = some (ret, w') := by
  obtain ⟨s, hs, _⟩ := place_session hp
  obtain ⟨ret, w', h⟩ := messageReply_completes env .gameHallSumary (.gameHallSumary
      { account := s.userInfo.account
        username := s.userInfo.userName
        score := s.userInfo.score
        hallNum := gameHallMaxNum
        headPicture := lit "Unknown head_picture"
        adPicture1 := lit "Unknown ad_picture1"
        hallInfo := (idsUpTo gameHallMaxNum).map w.sumaryHallInfo }) hp honline
  exact ⟨true, w', by simp [gameHallSumaryHandle, hs, h]⟩

/-- A session with a connection can be told of its hall. -/
theorem sendHallInfo_completes {env : Env} {data : Payload} {w : World}
    {u : SessionId} {p : Place} (hp : w.layout.place u = some p)
    (honline : p.Online) :
    ∃ w', sendHallInfo env data w u = some w' ∧ Notified w w' := by
  obtain ⟨s, hs, _⟩ := place_session hp
  obtain ⟨_, w₁, h₁⟩ := messageReply_completes env .hallInfo data hp honline
  have n₁ := messageReply_notified h₁
  obtain ⟨_, w₂, h₂⟩ := gameHallSumaryHandle_completes env
    (n₁.layout ▸ hp) honline
  have n₂ := gameHallSumaryHandle_notified h₂
  simp only [sendHallInfo, hs, Option.bind_eq_bind, Option.bind_some]
  split
  · exact ⟨w₂, by simp [h₁, h₂], n₁.trans n₂⟩
  · exact ⟨w₂, by simp [h₁, h₂], n₁.trans n₂⟩
  · exact ⟨w, rfl, Notified.refl w⟩

/-- Who is in the map is registered. -/
theorem mem_fdSessionMap {w : World} {v : SessionId}
    (h : v ∈ w.fdSessionMap.toList.map Prod.snd) :
    ∃ fd, w.layout.registry fd = some v := by
  obtain ⟨⟨fd, _⟩, hmem, rfl⟩ := List.mem_map.mp h
  exact ⟨fd, Std.TreeMap.mem_toList_iff_getElem?_eq_some.mp hmem⟩

/-- The loop over the registered sessions. -/
theorem sendHallInfos_completes {env : Env} {data : Payload} {w : World}
    (hc : w.layout.Connected) :
    ∃ w', (w.fdSessionMap.toList.map Prod.snd).foldlM
      (sendHallInfo env data) w = some w' := by
  obtain ⟨w', h, _⟩ := OptionFold.completes
    (P := fun w' : World => Notified w w')
    (w.fdSessionMap.toList.map Prod.snd) (Notified.refl w)
    (f := sendHallInfo env data) fun w₁ v hv n₁ => by
      obtain ⟨fd, hreg⟩ := mem_fdSessionMap hv
      obtain ⟨p, hp, honline⟩ := hc.registered hreg
      rw [← n₁.layout] at hp
      obtain ⟨w₂, h₂, n₂⟩ := sendHallInfo_completes hp honline
      exact ⟨w₂, h₂, n₁.trans n₂⟩
  exact ⟨w', h⟩

/-- Telling a hall completes when its sender has a state. -/
theorem broadCastHallInfo_completes (env : Env) (this : BoardPtr)
    {u : SessionId} {w : World} {p : Place} (hc : w.layout.Connected)
    (hp : w.layout.place u = some p) (hstate : p.stateMachine.isSome) :
    ∃ w', broadCastHallInfo env this u w = some w' := by
  obtain ⟨s, hs, rfl⟩ := place_session hp
  obtain ⟨state, hstate⟩ := Option.isSome_iff_exists.mp hstate
  simp only [UserSession.place] at hstate
  obtain ⟨info, w₁, hwrap⟩ :=
    wrapHallInfo_completes ((w.boards this).currentHall) hc
  simp only [broadCastHallInfo, hs, hstate, hwrap, Option.bind_eq_bind,
    Option.bind_some]
  exact sendHallInfos_completes ((wrapHallInfo_notified hwrap).connected hc)

end ChessServer
