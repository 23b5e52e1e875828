import ChessServer.Model.Client
import ChessServer.Model.Frames
import ChessServer.Proofs.Step

/-!
# Reassembly of a client's stream

A connection on which frames arrive in pieces.  The frames are handed on one
by one exactly when no piece holds bytes of two of them
(`frames_handed_on_iff`); otherwise the first frame whose last byte came
together with a later one is never handed on (`merged_frames_lost`).
-/

namespace ChessServer

open Pieces Wire

/-! ## A connection -/

/-- The bytes that an event brings to session `u`. -/
def Event.arrived (u : SessionId) : Event → List Bytes
  | .read v data => if v = u then [data] else []
  | _ => []

/-- What `OnReadCb` passes to `MessageHandle` for session `u`. -/
def World.handedOn (w : World) (u : SessionId) : Event → List (UInt32 × Bytes)
  | .read v data =>
      if v = u then
        match w.received u data with
        | .message msgType msg => [(msgType, msg)]
        | _ => []
      else []
  | _ => []

/-- A run from `w₀` during which session `u` gets the pieces `chunks` on
descriptor `fd` and hands on `msgs`: every message handed on is answered with
`true`, and nothing but the read callback itself may close the connection. -/
inductive Converses (env : Env) (u : SessionId) (fd : Int) (w₀ : World) :
    List Bytes → List (UInt32 × Bytes) → World → Prop where
  | start : Converses env u fd w₀ [] [] w₀
  | step {chunks : List Bytes} {msgs : List (UInt32 × Bytes)} {e : Event}
      {w w' : World} (hrun : Converses env u fd w₀ chunks msgs w)
      (henabled : e.Enabled w) (hstep : World.step env e w = some w')
      (hkept : e.arrived u = [] ∨ w.handedOn u e ≠ [] →
        w'.layout.registry fd = some u) :
      Converses env u fd w₀ (chunks ++ e.arrived u) (msgs ++ w.handedOn u e) w'

theorem Converses.reachable {env : Env} {u : SessionId} {fd : Int}
    {w₀ w : World} {chunks : List Bytes} {msgs : List (UInt32 × Bytes)}
    (h : Converses env u fd w₀ chunks msgs w)
    (hreach : (server env).Reachable w₀) : (server env).Reachable w := by
  induction h with
  | start => exact hreach
  | step _ henabled hstep _ ih => exact .step ih henabled trivial hstep

/-- An accepted connection has received nothing. -/
theorem accepted_input {env : Env} {u : SessionId} {fd : Int} {w w₀ : World}
    (hinv : w.layout.Inv) (henabled : (Event.accept fd).Enabled w)
    (haccept : World.step env (.accept fd) w = some w₀)
    (hreg : w₀.layout.registry fd = some u) :
    w₀.layout.input u = some (some [], {}) := by
  obtain ⟨_, v, s, hregistry, hidle, hnew, _⟩ :=
    notifyAddEvent_admitted hinv henabled.1 henabled.2 haccept
  rw [hregistry, Function.update_self] at hreg
  cases hreg
  have hinfo : s.bufInfo = {} := hidle.bufInfo
  rw [input_eq hnew, ← hinfo]

theorem received_of_input {w : World} {u : SessionId} {input : Bytes}
    (data : Bytes)
    {info : ReadBufInfo} (h : w.layout.input u = some (some input, info)) :
    w.received u data = info.received (input ++ data) ∧
      w.inputAfter (.read u data) u =
        some (some (info.after (input ++ data)).1,
          (info.after (input ++ data)).2) := by
  simp only [Layout.input, World.layout, Option.map_map,
    Option.map_eq_some_iff, Function.comp_apply, UserSession.place,
    Prod.mk.injEq] at h
  obtain ⟨s, hs, hbuf, rfl⟩ := h
  exact ⟨received_eq hs hbuf, inputAfter_read hs hbuf⟩

/-- A callback that waits keeps the connection. -/
theorem waiting_registry {env : Env} {u : SessionId} {data : Bytes}
    {w w' : World} (hinv : w.layout.Inv)
    (henabled : (Event.read u data).Enabled w)
    (hrecv : w.received u data = .waiting)
    (hstep : World.step env (.read u data) w = some w') :
    w'.layout.registry = w.layout.registry := by
  obtain ⟨s, hs, hbuf⟩ := henabled
  obtain ⟨s', hs', _, honline⟩ := registered_session hinv.registry
    (enabled_registered hinv hs (Or.inl hbuf))
  rw [hs] at hs'
  cases hs'
  obtain ⟨input, hinput⟩ := Option.ne_none_iff_exists'.mp hbuf
  obtain ⟨w₁, _, hb, _, _, hread⟩ :=
    read_step env data hs hinput honline.thread
  rw [hread, hrecv] at hstep
  cases hstep
  exact hb.registry

/-! ## The frames of the stream -/

/-- As long as the pieces belong to a stream of frames, some of the frames
have been handed on, in order, and the rest is still ahead. -/
theorem Converses.listening {env : Env} {u : SessionId} {fd : Int}
    {w₀ w : World} {chunks : List Bytes} {msgs : List (UInt32 × Bytes)}
    (frames : List Frame) (h : Converses env u fd w₀ chunks msgs w)
    (hreach : (server env).Reachable w₀)
    (hreg : w₀.layout.registry fd = some u)
    (hfresh : w₀.layout.input u = some (some [], {}))
    (hpre : chunks.flatten <+: Frame.stream frames) :
    ∃ done todo input info, frames = done ++ todo ∧
      msgs = done.map Frame.message ∧ w.layout.registry fd = some u ∧
      w.layout.input u = some (some input, info) ∧
      Listening chunks done todo input info := by
  induction h with
  | start =>
      exact ⟨[], frames, [], {}, rfl, rfl, hreg, hfresh,
        listening_start frames⟩
  | @step chunks msgs e w w' hrun henabled hstep hkept ih =>
      obtain ⟨done, todo, input, info, rfl, rfl, hregw, hinput, hlisten⟩ :=
        ih ((List.prefix_append _ _).trans (by simpa using hpre))
      have hinv := reachable_inv (hrun.reachable hreach)
      have st := step_spec hinv henabled hstep
      by_cases hread : ∃ data, e = .read u data
      · obtain ⟨data, rfl⟩ := hread
        obtain ⟨hrecv, hafter⟩ := received_of_input data hinput
        have harrived : Event.arrived u (.read u data) = [data] := if_pos rfl
        rw [harrived] at hpre hkept ⊢
        rcases hlisten.arrive hpre with ⟨hwait, hl⟩ | ⟨f, rest, rfl, hmsg, hl⟩
        · have hregw' : w'.layout.registry fd = some u := by
            rw [waiting_registry hinv henabled (hrecv.trans hwait) hstep, hregw]
          refine ⟨done, todo, _, _, rfl, ?_, hregw',
            (st.input u fd hregw hregw').trans hafter, hl⟩
          simp [World.handedOn, hrecv, hwait]
        · have hhanded : w.handedOn u (.read u data) = [f.message] := by
            simp [World.handedOn, hrecv, hmsg, Frame.message]
          have hregw' := hkept (Or.inr (by simp [hhanded]))
          refine ⟨done ++ [f], rest, _, {}, by simp, by simp [hhanded], hregw',
            (st.input u fd hregw hregw').trans (hafter.trans ?_), hl⟩
          rw [ReadBufInfo.after, hmsg]
      · have hnone : e.arrived u = [] ∧ w.handedOn u e = [] ∧
            w.inputAfter e u = w.layout.input u := by
          cases e with
          | read v data =>
              have hv : v ≠ u := fun hv => hread ⟨data, by rw [hv]⟩
              simp [Event.arrived, World.handedOn, World.inputAfter, hv]
          | _ => exact ⟨rfl, rfl, rfl⟩
        obtain ⟨harrived, hhanded, hafter⟩ := hnone
        have hregw' := hkept (Or.inl harrived)
        refine ⟨done, todo, input, info, rfl, by simp [hhanded], hregw', ?_, ?_⟩
        · rw [st.input u fd hregw hregw', hafter, hinput]
        · rwa [harrived, List.append_nil]

/-- A stream of frames has arrived on a connection in pieces.  The messages
handed on are the frames, in order, if and only if every frame ends where a
piece ends; and what is handed on is what the read callback gives to
`MessageHandle`. -/
theorem frames_handed_on_iff {env : Env} {u : SessionId} {fd : Int}
    {w w₀ w' : World} {chunks : List Bytes} {msgs : List (UInt32 × Bytes)}
    {frames : List Frame} (hreach : (server env).Reachable w)
    (henabled : (Event.accept fd).Enabled w)
    (haccept : World.step env (.accept fd) w = some w₀)
    (hreg : w₀.layout.registry fd = some u)
    (hrun : Converses env u fd w₀ chunks msgs w')
    (hall : chunks.flatten = Frame.stream frames) :
    (msgs = frames.map Frame.message ↔
      Refines chunks (frames.map Frame.bytes)) ∧
    ∀ (w₁ : World) (data : Bytes), (server env).Reachable w₁ →
      w₁.layout.registry fd = some u → (Event.read u data).Enabled w₁ →
      w₁.ReadsAs env u fd data := by
  refine ⟨?_, fun w₁ data hreach₁ hreg₁ henabled₁ => ?_⟩
  case refine_2 =>
    obtain ⟨s, hs, hbuf⟩ := henabled₁
    have hinv := reachable_inv hreach₁
    obtain ⟨s', hs', hclifd, _⟩ := registered_session hinv.registry hreg₁
    rw [hs, Option.some.injEq] at hs'
    subst hs'
    exact hclifd ▸ hinv.readsAs env hs hbuf data
  have hguard : (server env).enabled (.accept fd) w := henabled
  have hreach₀ : (server env).Reachable w₀ :=
    .step hreach hguard trivial haccept
  obtain ⟨done, todo, input, info, rfl, rfl, _, _, hlisten⟩ :=
    hrun.listening frames hreach₀ hreg
      (accepted_input (reachable_inv hreach) henabled haccept hreg)
      ⟨[], by rw [List.append_nil, hall]⟩
  rw [← hlisten.all_iff]
  constructor
  · intro h
    have hlen := congrArg List.length h
    simp only [List.map_append, List.length_append, List.length_map] at hlen
    exact List.eq_nil_of_length_eq_zero (by omega)
  · rintro rfl
    simp

/-- The frame of a login. -/
def loginFrame : Frame where
  msgType := MessageType.login.code
  body := encode [(1, .bytes (lit "a")), (2, .bytes (lit "p"))]
  msgType_le := by decide
  size_le := by decide +kernel

/-- The frame of a request for the last picture. -/
def adImageFrame : Frame where
  msgType := MessageType.adImageReq.code
  body := encode [(1, .varint 1), (2, .varint 1), (3, .varint 1)]
  msgType_le := by decide
  size_le := by decide +kernel

/-- Pieces that are read one after the other on a connection that stays
open. -/
theorem Converses.reads {env : Env} [∀ e w, Decidable ((server env).enabled e w)]
    {u : SessionId} {fd : Int} {w₀ w w' : World} {done : List Bytes}
    {msgs : List (UInt32 × Bytes)} (chunks : List Bytes)
    (h : Converses env u fd w₀ done msgs w)
    (hrun : (server env).run (fun _ w => w.fdSessionMap[fd]? = some u)
      (chunks.map (.read u)) w = some w')
    (hkept : w'.fdSessionMap[fd]? = some u) :
    ∃ msgs', Converses env u fd w₀ (done ++ chunks) msgs' w' := by
  induction chunks generalizing w done msgs with
  | nil =>
      cases hrun
      exact ⟨msgs, by rwa [List.append_nil]⟩
  | cons chunk chunks ih =>
      simp only [List.map_cons, Machine.run] at hrun
      split at hrun
      · rename_i hguard
        split at hrun
        · rename_i w₁ hstep
          have hreg : w₁.fdSessionMap[fd]? = some u := by
            cases chunks with
            | nil =>
                cases hrun
                exact hkept
            | cons chunk' chunks' =>
                simp only [List.map_cons, Machine.run] at hrun
                split at hrun
                · rename_i hguard'
                  exact hguard'.2
                · cases hrun
          have hnext := h.step (show Event.Enabled w (.read u chunk) from hguard.1) hstep
            fun _ => hreg
          rw [show Event.arrived u (.read u chunk) = [chunk] from if_pos rfl]
            at hnext
          obtain ⟨msgs', hall⟩ := ih hnext hrun
          exact ⟨msgs', by rwa [List.append_assoc] at hall⟩
        · cases hrun
      · cases hrun

/-- A login and a request for the last picture arrive in four pieces, cut
inside the header of the one and inside the body of the other: both are
handed on. -/
theorem frames_handed_on_login :
    ∃ w₀ w', World.step Client.env (.accept 10) World.init = some w₀ ∧
      Converses Client.env 0 10 w₀
        [ loginFrame.bytes.take 5, loginFrame.bytes.drop 5
        , adImageFrame.bytes.take 11, adImageFrame.bytes.drop 11 ]
        [loginFrame.message, adImageFrame.message] w' := by
  have htest : (World.step Client.env (.accept 10) World.init).any (fun w₀ =>
      w₀.fdSessionMap[(10 : Int)]? == some 0 &&
      ((server Client.env).run
        (fun _ w => w.fdSessionMap[(10 : Int)]? = some 0)
        ([ loginFrame.bytes.take 5, loginFrame.bytes.drop 5
        , adImageFrame.bytes.take 11, adImageFrame.bytes.drop 11 ].map
          (.read 0)) w₀).any fun w' =>
        w'.fdSessionMap[(10 : Int)]? == some 0) = true := by decide +kernel
  simp only [Bool.and_eq_true, Option.any_eq_true, beq_iff_eq] at htest
  obtain ⟨w₀, haccept, hreg, w', hread, hkept⟩ := htest
  obtain ⟨msgs, hrun⟩ := Converses.reads _ .start hread hkept
  have hall : [ loginFrame.bytes.take 5, loginFrame.bytes.drop 5
      , adImageFrame.bytes.take 11, adImageFrame.bytes.drop 11 ].flatten =
      Frame.stream [loginFrame, adImageFrame] := by decide +kernel
  have hcut := refines_flatten
    [ [loginFrame.bytes.take 5, loginFrame.bytes.drop 5]
    , [adImageFrame.bytes.take 11, adImageFrame.bytes.drop 11] ]
  simp only [List.map_cons, List.map_nil, List.flatten_cons, List.flatten_nil,
    List.append_nil, List.take_append_drop] at hcut
  have hmsgs := (frames_handed_on_iff .start (by decide) haccept hreg hrun
    hall).1.mpr hcut
  rw [hmsgs] at hrun
  exact ⟨w₀, w', haccept, hrun⟩

/-- Two logins that arrive in one piece are not handed on. -/
theorem merged_frames_lost :
    ¬ ∀ (u : SessionId) (fd : Int) (w w₀ w' : World) (chunks : List Bytes)
      (msgs : List (UInt32 × Bytes)) (frames : List Frame),
      (server Client.env).Reachable w → (Event.accept fd).Enabled w →
      World.step Client.env (.accept fd) w = some w₀ →
      w₀.layout.registry fd = some u →
      Converses Client.env u fd w₀ chunks msgs w' →
      chunks.flatten = Frame.stream frames →
      msgs = frames.map Frame.message := by
  intro hclaim
  let data := loginFrame.bytes ++ loginFrame.bytes
  have htest : (World.step Client.env (.accept 10) World.init).any (fun w₀ =>
      w₀.fdSessionMap[(10 : Int)]? == some 0 &&
      decide ((Event.read 0 data).Enabled w₀) &&
      w₀.received 0 data == .waiting &&
      (World.step Client.env (.read 0 data) w₀).isSome) = true := by
    decide +kernel
  simp only [Bool.and_eq_true, Option.any_eq_true, beq_iff_eq,
    decide_eq_true_eq, Option.isSome_iff_exists] at htest
  obtain ⟨w₀, haccept, ⟨⟨hreg, henabled⟩, hwait⟩, w', hread⟩ := htest
  have hhanded : w₀.handedOn 0 (.read 0 data) = [] := by
    simp [World.handedOn, hwait]
  have hrun : Converses Client.env 0 10 w₀ [data] _ w' :=
    .step .start henabled hread fun h => by
      rcases h with h | h
      · cases h
      · exact absurd hhanded h
  have h := hclaim 0 10 World.init w₀ w' [data] _ [loginFrame, loginFrame]
    .start (by decide) haccept hreg hrun (by simp [data])
  rw [hhanded] at h
  cases h

end ChessServer
