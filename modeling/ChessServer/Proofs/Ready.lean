import ChessServer.Model.Ready
import ChessServer.Proofs.Captures

/-!
# Ready requests are handled

`GameReadyHandle` looks for nobody who might be missing: it marks the user of
the seat it is given if there is one, and starts a game only when it has seen
three users (`gameReadyHandle_completes`).
-/

namespace ChessServer

/-- Getting ready completes, whoever is named. -/
theorem readyRequest_completes {b : BoardPtr} {w : World} (m : GameReadyReq)
    (hc : w.layout.Connected) : ∃ w', readyRequest b m w = some w' := by
  have hmark : ∃ w₁, w.setSeatStatus
      ((w.boards b).getUserByLocation m.srcUserLocate) .began = some w₁ := by
    cases hu : (w.boards b).getUserByLocation m.srcUserLocate with
    | none => exact ⟨w, rfl⟩
    | some u =>
        obtain ⟨s, hs, _⟩ := hc.session hu
        exact ⟨_, modifyUser_eq hs _⟩
  obtain ⟨w₁, h₁⟩ := hmark
  simp only [readyRequest, h₁, Option.bind_eq_bind, Option.bind_some]
  cases m.totalTime with
  | none => exact ⟨_, rfl⟩
  | some total =>
      cases m.singleStepTime with
      | none => exact ⟨_, rfl⟩
      | some single =>
          dsimp only
          split <;> exact ⟨_, rfl⟩

/-- With a user on every chair the game starts. -/
theorem startGame_completes (env : Env) {b : BoardPtr} {w : World}
    (hc : w.layout.Connected) (hdistinct : w.layout.Distinct)
    (htaken : ∀ seat, ∃ u, (w.boards b).seat seat = some u) :
    ∃ w', startGame env b w = some w' := by
  have hplay : ∀ {w₁ : World}, w₁.layout = w.layout → ∀ seat,
      ∃ u w₂, (w₁.boards b).seat seat = some u ∧
        (w₁.modifyUser u fun s => { s with status := .playing }) = some w₂ ∧
        w₂.layout = w.layout := by
    intro w₁ hlayout seat
    obtain ⟨u, hu⟩ := htaken seat
    have hu₁ : (w₁.boards b).seat seat = some u := by
      have hseats := congrFun (congrFun (congrArg Layout.seats hlayout) b) seat
      exact hseats.trans hu
    obtain ⟨s, hs, _⟩ := (hlayout.symm ▸ hc : w₁.layout.Connected).session
      ((getUserByLocation_location _ seat).trans hu₁)
    have hset := modifyUser_eq hs fun s => { s with status := .playing }
    have p := setStatus_plays seat (hlayout.symm ▸ hdistinct) hu₁ hset
    exact ⟨u, _, hu₁, hset, p.layout.trans hlayout⟩
  obtain ⟨right, w₁, hright, h₁, hl₁⟩ := hplay rfl .right
  obtain ⟨left, w₂, hleft, h₂, hl₂⟩ := hplay hl₁ .left
  obtain ⟨bottom, w₃, hbottom, h₃, hl₃⟩ := hplay hl₂ .bottom
  have hc₃ : w₃.layout.Connected := hl₃.symm ▸ hc
  have hseat : (w.boards b).seat .bottom = some bottom := by
    have hseats := congrFun (congrFun (congrArg Layout.seats hl₂) b) .bottom
    exact hseats.symm.trans hbottom
  obtain ⟨q, hq, _, hstate'⟩ :=
    hc.seated (show w.layout.seats b .bottom = some bottom from hseat)
  obtain ⟨w₄, h₄⟩ := broadCastHallInfo_completes env b hc₃
    (hl₃.symm ▸ hq) hstate'
  simp only [ChessBoard.seat] at hright hleft hbottom
  refine ⟨w₄, ?_⟩
  simp only [startGame, hright, h₁, hleft, h₂, hbottom, h₃, h₄,
    Option.bind_eq_bind, Option.bind_some]

/-- So does the start of the game. -/
theorem gameReadyHandle_completes (env : Env) {b : BoardPtr} {msg : Bytes}
    {m : GameReadyReq} {w : World} (hinv : w.layout.Inv)
    (hmsg : env.proto.gameReadyReq msg = some m) :
    ∃ w', gameReadyHandle env b msg w = some (true, w') := by
  have hc := hinv.connected
  obtain ⟨w₁, h₁⟩ := readyRequest_completes (b := b) m hc
  have p₁ := readyRequest_plays hinv.seating.distinct h₁
  have hc₁ : w₁.layout.Connected := p₁.layout.symm ▸ hc
  have hstatus := fun seat =>
    seatStatus_completes (b := b) hc₁ seat (· == .began)
  have hl := hstatus .left
  have hr := hstatus .right
  have hb := hstatus .bottom
  simp only [ChessBoard.seat] at hl hr hb
  simp only [gameReadyHandle, hmsg, h₁, hl, hr, hb, Option.bind_eq_bind,
    Option.bind_some]
  obtain ⟨w₂, h₂⟩ := broadCastMsg_completes env b .gameStatus
    (.gameStatusReply
      { leftUserStatus := (w₁.table b).passes (· == .began) .left
        rightUserStatus := (w₁.table b).passes (· == .began) .right
        bottomUserStatus := (w₁.table b).passes (· == .began) .bottom
        tokenLocate := locationBottom
        totalTime := (w₁.boards b).totalTime
        singleStepTime := (w₁.boards b).singleStepTime }) locationMax hc₁
  have n₂ := broadCastMsg_notified h₂
  rw [h₂, Option.bind_some]
  split
  · rename_i hthree
    have hall := Table.count_eq_three.mp
      (show (w₁.table b).count (· == .began) = 3 from hthree)
    obtain ⟨w₃, h₃⟩ := startGame_completes env (b := b) (n₂.connected hc₁)
      (n₂.layout ▸ p₁.distinct hinv.seating.distinct) (by
        intro seat
        obtain ⟨p, hp, _⟩ := Option.map_eq_some_iff.mp (hall seat)
        simp only [World.table, Option.bind_eq_bind,
          Option.bind_eq_some_iff] at hp
        obtain ⟨u, hu, _⟩ := hp
        exact ⟨u, by rw [n₂.boards, hu]⟩)
    exact ⟨w₃, by rw [h₃, Option.bind_some]⟩
  · exact ⟨w₂, rfl⟩

end ChessServer
