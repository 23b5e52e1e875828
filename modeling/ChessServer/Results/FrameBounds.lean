import ChessServer.Results.Stream

/-!
# The bounds of a frame

`OnReadCb` only checks a header from above.  That no frame is shorter than
its own header holds because the header is peeked at and stays in the buffer
until the whole frame has arrived; this is carried over callbacks, failed
messages and sessions that are used again (`frame_bounds`).
-/

namespace ChessServer

/-! ## Every connection -/

/-- The headers that the open connections have accepted. -/
def Layout.Peeked (l : Layout) : Prop :=
  ∀ fd u input info, l.registry fd = some u →
    l.input u = some (some input, info) → info.Peeked input

/-- Closing a connection leaves the others as they are. -/
theorem Closed.peeked {u : SessionId} {fd : Int} {w w₁ w' : World}
    (c : Closed u fd w₁ w') (hregistry : w₁.layout.Registry none)
    (hreg : w.layout.registry fd = some u)
    (hsame : w₁.layout.registry = w.layout.registry)
    (hplace : ∀ v, v ≠ u → w₁.layout.place v = w.layout.place v)
    (hpeeked : w.layout.Peeked) : w'.layout.Peeked := by
  intro k v input info hk hinput
  obtain ⟨hvu, hk₁, hkept⟩ :=
    c.place_registered hregistry (hsame ▸ hreg) hk
  rw [Layout.input, hkept, hplace v hvu] at hinput
  exact hpeeked k v input info (hsame ▸ hk₁) hinput

/-- A closing event. -/
theorem closing_peeked {env : Env} {u : SessionId} {fd : Int}
    {w w₁ w' : World} (hinv : w.layout.Inv) (hpeeked : w.layout.Peeked)
    (hreg : w.layout.registry fd = some u) (hb : Buffers u w w₁)
    (h : closingClientCon env fd w₁ = some w') : w'.layout.Peeked :=
  (closing_step hinv hreg hb h).1.peeked (hb.inv hinv hreg).registry hreg
    hb.registry (fun _ hv => hb.place hv) hpeeked

/-- The read callback of a session that keeps its connection. -/
theorem read_peeked {env : Env} {u : SessionId} {data : Bytes}
    {w w' : World} (hinv : w.layout.Inv) (hpeeked : w.layout.Peeked)
    (henabled : (Event.read u data).Enabled w)
    (hkeep : w.received u data ≠ .refused)
    (hregistry : w'.layout.registry = w.layout.registry)
    (h : World.step env (.read u data) w = some w') : w'.layout.Peeked := by
  intro k v input info hk hinput
  have hk₀ : w.layout.registry k = some v := by rw [← hregistry, hk]
  rw [(step_spec hinv henabled h).input v k hk₀ hk] at hinput
  by_cases hv : v = u
  · subst hv
    obtain ⟨s, hs, hbuf⟩ := henabled
    obtain ⟨old, hold⟩ := Option.ne_none_iff_exists'.mp hbuf
    rw [received_eq hs hold] at hkeep
    have hrefuse : s.bufInfo.refuses (old ++ data) = false := by
      cases hr : s.bufInfo.refuses (old ++ data) with
      | false => rfl
      | true => exact absurd (by simp [ReadBufInfo.received, hr]) hkeep
    rw [inputAfter_read hs hold, Option.some.injEq, Prod.mk.injEq,
      Option.some.injEq] at hinput
    obtain ⟨rfl, rfl⟩ := hinput
    have hbefore := hpeeked k v old s.bufInfo hk₀ (by rw [input_eq hs, hold])
    exact (hbefore.append data).after hrefuse
  · rw [inputAfter_other hv] at hinput
    exact hpeeked k v input info hk₀ hinput

/-- Every event keeps the headers of the open connections. -/
theorem step_peeked {env : Env} {e : Event} {w w' : World}
    (hinv : w.layout.Inv) (hpeeked : w.layout.Peeked)
    (henabled : e.Enabled w) (h : World.step env e w = some w') :
    w'.layout.Peeked := by
  cases e with
  | accept fd =>
      obtain ⟨_, u, s, hregistry, hidle, hnew, _⟩ :=
        notifyAddEvent_admitted hinv henabled.1 henabled.2 h
      intro k v input info hk hinput
      by_cases hkfd : k = fd
      · -- a session from the pool has no header
        rw [hregistry, hkfd, Function.update_self, Option.some.injEq] at hk
        subst hk
        rw [input_eq hnew, Option.some.injEq, Prod.mk.injEq] at hinput
        have hinfo : s.bufInfo = {} := hidle.bufInfo
        rw [← hinput.2, hinfo]
        exact ReadBufInfo.peeked_fresh input
      · have hk₀ : w.layout.registry k = some v := by
          rw [hregistry, Function.update_of_ne hkfd] at hk
          exact hk
        rw [(step_spec hinv henabled h).input v k hk₀ hk] at hinput
        exact hpeeked k v input info hk₀ hinput
  | read u data =>
      obtain ⟨s, hs, hbuf⟩ := henabled
      have hreg := enabled_registered hinv hs (Or.inl hbuf)
      obtain ⟨old, hold⟩ := Option.ne_none_iff_exists'.mp hbuf
      obtain ⟨s', hs', _, honline⟩ := registered_session hinv.registry hreg
      rw [hs, Option.some.injEq] at hs'
      subst hs'
      obtain ⟨w₁, _, hb, _, _, hstep⟩ :=
        read_step env data hs hold honline.thread
      have hrun := hstep.symm.trans h
      cases hrecv : w.received u data with
      | waiting =>
          rw [hrecv] at hrun
          cases hrun
          exact read_peeked hinv hpeeked ⟨s, hs, hbuf⟩ (by simp [hrecv])
            hb.registry h
      | refused =>
          rw [hrecv] at hrun
          exact closing_peeked hinv hpeeked hreg hb hrun
      | broken =>
          rw [hrecv] at hrun
          cases hrun
      | message msgType msg =>
          rw [hrecv] at hrun
          simp only [World.handleReceived, Option.bind_eq_bind,
            Option.bind_eq_some_iff] at hrun
          obtain ⟨⟨ret, w₂⟩, hmsg, hrun⟩ := hrun
          have hreg₁ : w₁.layout.registry s.clifd = some u := by
            rw [hb.registry, hreg]
          rcases messageHandle_cases (hb.inv hinv hreg) hreg₁ hmsg with
            ⟨rfl, hh⟩ |
            ⟨rfl, _, w₃, c, hregistry, hsame, _, hplace, _, _⟩
          · have hreg₂ : w₂.layout.registry s.clifd = some u := by
              rw [hh.registry, hreg₁]
            obtain ⟨s₂, hs₂, _⟩ := registered_session hh.inv.registry hreg₂
            rw [if_pos rfl, modifyUser_eq hs₂, Option.some.injEq] at hrun
            subst hrun
            have hb₂ : Buffers u w₂ (w₂.setUser u { s₂ with bufInfo := {} }) :=
              setUser_buffers hs₂ rfl
            exact read_peeked hinv hpeeked ⟨s, hs, hbuf⟩ (by simp [hrecv])
              (hb₂.registry.trans (hh.registry.trans hb.registry)) h
          · -- a message that failed closes its connection
            rw [if_neg (by simp), Option.some.injEq] at hrun
            subst hrun
            exact c.peeked hregistry hreg (hsame.trans hb.registry)
              (fun v hv => (hplace v hv).trans (hb.place hv)) hpeeked
  | event u events =>
      obtain ⟨s, hs, hbuf⟩ := henabled
      have hreg := enabled_registered hinv hs (Or.inl hbuf)
      simp only [World.step, onEventCb, hs, Option.bind_eq_bind,
        Option.bind_some, Option.bind_eq_some_iff] at h
      obtain ⟨_, _, h⟩ := h
      split at h
      · exact closing_peeked hinv hpeeked hreg (Buffers.refl u w) h
      · cases h
        exact hpeeked
  | timer u =>
      obtain ⟨s, hs, hclifd⟩ := henabled
      have hreg := enabled_registered hinv hs (Or.inr hclifd)
      simp only [World.step, timerOutHandle, hs, Option.bind_eq_bind,
        Option.bind_some, Option.bind_eq_some_iff] at h
      obtain ⟨_, _, h⟩ := h
      exact closing_peeked hinv hpeeked hreg (Buffers.refl u w) h

theorem reachable_peeked {env : Env} {w : World}
    (h : (server env).Reachable w) : w.layout.Peeked := by
  have hstart : World.init.layout.Peeked := by
    intro fd u input info hreg
    simp [World.layout, World.init] at hreg
  exact h.invariant_of (I := fun w => w.layout.Peeked)
    (fun hw => reachable_inv hw) hstart
    fun hinv hpeeked henabled _ hstep =>
      step_peeked hinv hpeeked henabled hstep

/-! ## The message body -/

/-- Whenever a read callback builds a message body, the recorded size and
type are within their bounds, the buffer holds the frame, the frame is all
that is taken, and the body goes to `MessageHandle` with its type. -/
theorem frame_bounds {env : Env} {u : SessionId} {s : UserSession}
    {old data : Bytes} {w : World} (hreach : (server env).Reachable w)
    (hs : w.users u = some s) (hbuf : s.bufev = some old)
    (hkeep : s.bufInfo.refuses (old ++ data) = false)
    (hcomplete : (s.bufInfo.accept (old ++ data)).complete (old ++ data) =
      true) :
    let input := old ++ data
    let info := s.bufInfo.accept input
    dataHeadLength ≤ info.totalSize.toNat ∧
      info.totalSize.toNat ≤ 512 * maxDataLength ∧
      info.msgType ≤ msgTypeMax ∧
      info.totalSize.toNat ≤
        (w.getBuffer u info.totalSize.toNat).bufSize u ∧
      (info.totalSize - dataHeadLength.toUInt32).toNat =
        info.totalSize.toNat - dataHeadLength ∧
      (input.take info.totalSize.toNat).length = info.totalSize.toNat ∧
      input.drop info.totalSize.toNat = [] ∧
      info.body input = some (input.drop dataHeadLength) ∧
      w.received u data =
        .message info.msgType (input.drop dataHeadLength) ∧
      w.ReadsAs env u s.clifd data := by
  intro input info
  have hreg := enabled_registered (reachable_inv hreach) hs
    (Or.inl (by simp [hbuf]))
  have hpeeked : s.bufInfo.Peeked old :=
    reachable_peeked hreach _ u old _ hreg (by rw [input_eq hs, hbuf])
  obtain ⟨hlower, hupper, htype, hlen⟩ :=
    ((hpeeked.append data).accept hkeep).bounds hcomplete
  have hwhole : input.take info.totalSize.toNat = input :=
    List.take_of_length_le (Nat.le_of_eq hlen)
  have hbody : info.body input = some (input.drop dataHeadLength) := by
    rw [ReadBufInfo.body, if_neg (Nat.not_lt.mpr hlower), hwhole]
  refine ⟨hlower, hupper, htype, getBuffer_capacity _ _ w, ?_, ?_, ?_, hbody,
    ?_, (reachable_inv hreach).readsAs env hs (by simp [hbuf]) data⟩
  · exact UInt32.toNat_sub_of_le _ _ hlower
  · rw [hwhole]
    exact hlen
  · exact List.drop_of_length_le (Nat.le_of_eq hlen)
  · have hsome : (s.bufInfo.accept (old ++ data)).body (old ++ data) =
        some (input.drop dataHeadLength) := hbody
    simp [received_eq hs hbuf, ReadBufInfo.received, hkeep, hcomplete, hsome,
      info, input]

/-- The bounds of a login whose header arrives in two pieces. -/
theorem frame_bounds_login : ∃ w s, (server Client.env).Reachable w ∧
    w.users 0 = some s ∧ s.bufev = some (loginFrame.bytes.take 5) ∧
    dataHeadLength ≤
      (s.bufInfo.accept loginFrame.bytes).totalSize.toNat ∧
    w.received 0 (loginFrame.bytes.drop 5) =
      .message loginFrame.msgType loginFrame.body := by
  obtain ⟨w, hreach, htest⟩ := Client.reachable_after (fun _ _ => True)
    [.accept 10, .read 0 (loginFrame.bytes.take 5)]
    (fun w => (w.users 0).any fun s : UserSession =>
      decide (s.bufev = some (loginFrame.bytes.take 5)) &&
        !s.bufInfo.refuses loginFrame.bytes &&
        (s.bufInfo.accept loginFrame.bytes).complete loginFrame.bytes &&
        (s.bufInfo.accept loginFrame.bytes).msgType == loginFrame.msgType)
    (by decide +kernel)
  simp only [Bool.and_eq_true, Option.any_eq_true, decide_eq_true_eq,
    Bool.not_eq_true', beq_iff_eq] at htest
  obtain ⟨s, hs, ⟨⟨hbuf, hkeep⟩, hcomplete⟩, htype⟩ := htest
  have hwhole : loginFrame.bytes.take 5 ++ loginFrame.bytes.drop 5 =
      loginFrame.bytes := List.take_append_drop _ _
  rw [← hwhole] at hkeep hcomplete
  have hbounds := frame_bounds hreach hs hbuf hkeep hcomplete
  rw [hwhole] at hbounds
  obtain ⟨hlower, _, _, _, _, _, _, _, hrecv, _⟩ := hbounds
  rw [htype] at hrecv
  exact ⟨w, s, hreach, hs, hbuf, hlower, hrecv⟩

end ChessServer
