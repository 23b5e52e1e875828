import ChessServer.Model.Changes
import ChessServer.Proofs.Notify

/-!
# The changes that the handlers make

One lemma for each function of the source: a call that returns has made
elementary changes only, up to `broadCastHallInfo_changes`.
-/

namespace ChessServer

variable {u : SessionId}

/-! ## Snapshots -/

/-- An entry is not empty exactly when somebody is shown. -/
theorem wrapUser_empty {w : World} {user : Option SessionId}
    {entry : ChessBoardUser} (h : w.wrapUser user = some entry) :
    (!entry.chessBoardEmpty) = user.isSome := by
  cases user with
  | none =>
      cases h
      rfl
  | some v =>
      simp only [World.wrapUser, Option.map_eq_some_iff] at h
      obtain ⟨s, _, rfl⟩ := h
      rfl

/-- A snapshot shows as many users as it counts. -/
theorem wrapChessBoardInfo_sound {b : BoardPtr} {w : World}
    {info : ChessBoardInfo} (h : wrapChessBoardInfo b w = some info)
    (hcounted : w.Counted) : info.Sound := by
  simp only [wrapChessBoardInfo, Option.bind_eq_bind,
    Option.bind_eq_some_iff] at h
  obtain ⟨left, hl, right, hr, bottom, hb, h⟩ := h
  cases h
  simp only [ChessBoardInfo.Sound, ChessBoardInfo.users, wrapUser_empty hl,
    wrapUser_empty hr, wrapUser_empty hb]
  exact hcounted b

/-! ## Replies -/

/-- What is sent does not change what is counted. -/
theorem Notified.counted {w w' : World} (h : Notified w w') :
    w'.Counted ↔ w.Counted := by
  simp only [World.Counted, h.boards]

theorem onWrite_changes {env : Env} {fd : Int} {type : MessageType}
    {body : Payload} {v : SessionId} {w w' : World} {ret : Bool}
    (h : onWrite env fd type body v w = some (ret, w'))
    (hbody : w.Counted → body.Sound) : Changes u w w' := by
  unfold onWrite at h
  have hbuf := getBuffer_notified v ((body.bytes env).length + dataHeadLength) w
  have hc := Changes.single (u := u)
    (.buffer (w := w) v ((body.bytes env).length + dataHeadLength))
  split at h
  · cases h
    exact hc
  · simp only [Option.bind_eq_bind, Option.bind_eq_some_iff] at h
    obtain ⟨s, _, bufev, _, h⟩ := h
    cases h
    exact hc.trans (.single (.send _ fun hcounted =>
      hbody (hbuf.counted.mp hcounted)))

theorem messageReply_changes {env : Env} {v : SessionId}
    {type : MessageType} {body : Payload} {w w' : World} {ret : Bool}
    (h : messageReply env v type body w = some (ret, w'))
    (hbody : w.Counted → body.Sound) : Changes u w w' := by
  simp only [messageReply, Option.bind_eq_bind, Option.bind_eq_some_iff] at h
  obtain ⟨s, _, t, _, h⟩ := h
  exact onWrite_changes h hbody

/-- A broadcast sends to the users of a board. -/
theorem broadCastMsg_changes {env : Env} {this : BoardPtr}
    {type : MessageType} {body : Payload} {filter : UInt32} {w w' : World}
    (h : broadCastMsg env this type body filter w = some w')
    (hbody : w.Counted → body.Sound) : Changes u w w' := by
  refine (OptionFold.rel_of_step
    (R := fun a b => (a.Counted → body.Sound) →
      Changes u a b ∧ (b.Counted → body.Sound))
    (fun a ha => ⟨.refl a, ha⟩) ?_ ?_ locations h hbody).1
  · intro a b c h₁ h₂ ha
    obtain ⟨c₁, hb⟩ := h₁ ha
    obtain ⟨c₂, hc⟩ := h₂ hb
    exact ⟨c₁.trans c₂, hc⟩
  · intro a locate b h ha
    split at h
    · split at h
      · simp only [Option.map_eq_some_iff] at h
        obtain ⟨r, hr, rfl⟩ := h
        exact ⟨messageReply_changes hr ha,
          fun hb => ha ((messageReply_notified hr).counted.mp hb)⟩
      · cases h
        exact ⟨.refl _, ha⟩
    · cases h
      exact ⟨.refl _, ha⟩

/-! ## Halls -/

theorem getGameHall_self {id hall : UInt32} (h : getGameHall id = some hall) :
    hall = id ∧ getGameHall hall = some hall := by
  unfold getGameHall at h
  split at h
  · cases h
  · rename_i hid
    cases h
    exact ⟨rfl, if_neg hid⟩

/-- A lookup publishes a board at most. -/
theorem getChessBoardByID_changes {hall : UInt32} (id : UInt32) (w : World)
    (hhall : getGameHall hall = some hall) :
    Changes u w (w.getChessBoardByID hall id).2 := by
  unfold World.getChessBoardByID
  split
  · exact .refl w
  · rename_i hid
    simp only [not_or, gt_iff_lt, UInt32.not_lt] at hid
    have hc := Changes.single (u := u)
      (.publish (w := w) hhall hid.1 hid.2)
    split
    · exact .refl w
    · dsimp only
      split
      · exact hc
      · exact hc

/-- So does a message that names a board. -/
theorem publishNamed_changes (env : Env) (msg : Bytes) (w : World) :
    Changes u w (publishNamed env msg w) := by
  unfold publishNamed
  split
  · exact .refl w
  · split
    · exact .refl w
    · rename_i hall hhall
      obtain ⟨_, hself⟩ := getGameHall_self hhall
      exact getChessBoardByID_changes _ w hself

/-- Collecting a hall publishes boards, and the snapshots are right. -/
theorem wrapHallInfo_changes {hallId : UInt32} {info : Option HallInfo}
    {w w' : World} (h : wrapHallInfo hallId w = some (info, w')) :
    Changes u w w' ∧
      (w.Counted → ∀ hall ∈ info, hall.Sound) := by
  unfold wrapHallInfo at h
  split at h
  · cases h
    exact ⟨.refl w, fun _ hall hhall => by cases hhall⟩
  · rename_i hall hhall
    obtain ⟨_, hself⟩ := getGameHall_self hhall
    simp only [Option.bind_eq_bind, Option.bind_eq_some_iff] at h
    obtain ⟨⟨boards, w₁⟩, hloop, h⟩ := h
    cases h
    have hrel := OptionFold.rel_of_step
      (R := fun a b : List ChessBoardInfo × World => Changes u a.2 b.2 ∧
        (b.2.Counted ↔ a.2.Counted) ∧
        (a.2.Counted → (∀ i ∈ a.1, i.Sound) → ∀ i ∈ b.1, i.Sound))
      (fun a => ⟨.refl a.2, Iff.rfl, fun _ ha => ha⟩) ?_ ?_ _ hloop
    · refine ⟨hrel.1, fun hcounted hall hmem => ?_⟩
      simp only [Option.mem_def, Option.some.injEq] at hmem
      subst hmem
      exact hrel.2.2 hcounted (by simp)
    · intro a b c h₁ h₂
      exact ⟨h₁.1.trans h₂.1, h₂.2.1.trans h₁.2.1,
        fun ha hi => h₂.2.2 (h₁.2.1.mpr ha) (h₁.2.2 ha hi)⟩
    · intro acc j acc' hstep
      have hget := getChessBoardByID_notified hall j acc.2
      have hc := getChessBoardByID_changes (u := u) j acc.2 hself
      unfold wrapHallBoard at hstep
      revert hstep hget hc
      generalize acc.2.getChessBoardByID hall j = found
      obtain ⟨chessBoard, w₂⟩ := found
      intro hstep hget hc
      cases chessBoard with
      | none =>
          cases hstep
          exact ⟨hc, hget.counted, fun _ hi => hi⟩
      | some b =>
          simp only [Option.bind_eq_bind, Option.bind_eq_some_iff] at hstep
          obtain ⟨info, hinfo, hstep⟩ := hstep
          cases hstep
          refine ⟨hc, hget.counted, fun hcounted hi i hmem => ?_⟩
          rcases List.mem_append.mp hmem with hmem | hmem
          · exact hi i hmem
          · cases List.mem_singleton.mp hmem
            exact wrapChessBoardInfo_sound hinfo (hget.counted.mpr hcounted)

theorem gameHallSumaryHandle_changes {env : Env} {v : SessionId}
    {w w' : World} {ret : Bool}
    (h : gameHallSumaryHandle env v w = some (ret, w')) : Changes u w w' := by
  simp only [gameHallSumaryHandle, Option.bind_eq_bind,
    Option.bind_eq_some_iff] at h
  obtain ⟨s, _, ⟨r, w₁⟩, hreply, h⟩ := h
  cases h
  -- the entries of the summary show no boards
  refine messageReply_changes hreply ?_
  intro _ info hinfo
  simp only [List.mem_map] at hinfo
  obtain ⟨hall, _, rfl⟩ := hinfo
  intro board hboard
  cases hboard

theorem sendHallInfo_changes {env : Env} {data : Payload}
    {sessions : List SessionId} {w w' : World}
    (hdata : w.Counted → data.Sound)
    (h : sessions.foldlM (sendHallInfo env data) w = some w') :
    Changes u w w' := by
  refine (OptionFold.rel_of_step
    (R := fun a b => (a.Counted → data.Sound) →
      Changes u a b ∧ (b.Counted → data.Sound))
    (fun a ha => ⟨.refl a, ha⟩) ?_ ?_ _ h hdata).1
  · intro a b c h₁ h₂ ha
    obtain ⟨c₁, hb⟩ := h₁ ha
    obtain ⟨c₂, hc⟩ := h₂ hb
    exact ⟨c₁.trans c₂, hc⟩
  · intro a v b h ha
    have hsend : ∀ {w₂ w₃ : World} {r r' : Bool},
        messageReply env v .hallInfo data a = some (r, w₂) →
        gameHallSumaryHandle env v w₂ = some (r', w₃) →
        Changes u a w₃ ∧ (w₃.Counted → data.Sound) := by
      intro w₂ w₃ r r' hreply hsum
      refine ⟨(messageReply_changes hreply ha).trans
        (gameHallSumaryHandle_changes hsum), fun hb => ha ?_⟩
      exact ((messageReply_notified hreply).trans
        (gameHallSumaryHandle_notified hsum)).counted.mp hb
    simp only [sendHallInfo, Option.bind_eq_bind, Option.bind_eq_some_iff] at h
    obtain ⟨s, _, h⟩ := h
    split at h
    · simp only [Option.bind_eq_some_iff] at h
      obtain ⟨⟨_, w₂⟩, hreply, ⟨_, w₃⟩, hsum, h⟩ := h
      cases h
      exact hsend hreply hsum
    · simp only [Option.bind_eq_some_iff] at h
      obtain ⟨⟨_, w₂⟩, hreply, ⟨_, w₃⟩, hsum, h⟩ := h
      cases h
      exact hsend hreply hsum
    · cases h
      exact ⟨.refl _, ha⟩

/-- The whole hall is told of a change. -/
theorem broadCastHallInfo_changes {env : Env} {this : BoardPtr}
    {user : SessionId} {w w' : World}
    (h : broadCastHallInfo env this user w = some w') : Changes u w w' := by
  simp only [broadCastHallInfo, Option.bind_eq_bind,
    Option.bind_eq_some_iff] at h
  obtain ⟨s, _, state, _, ⟨info, w₁⟩, hwrap, hloop⟩ := h
  obtain ⟨hc, hsound⟩ := wrapHallInfo_changes (u := u) hwrap
  refine hc.trans (sendHallInfo_changes (fun hcounted => ?_) hloop)
  have hw := (wrapHallInfo_notified hwrap).counted.mp hcounted
  cases info with
  | none => trivial
  | some info => exact hsound hw info rfl

end ChessServer
