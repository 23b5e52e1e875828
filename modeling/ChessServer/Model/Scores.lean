import ChessServer.Lib.Ledger
import ChessServer.Model.Acts
import ChessServer.Model.Chairs

/-!
# The calls of IncreaseScore and ReduceScore

Scores are accounts of 32-bit words.  `Act.calls` lists the calls that an act
makes for the player on a chair, in the order of the source; a score after
the act is the balance after these calls.
-/

namespace ChessServer

open Ledger (Entry balance)

/-- A call of `IncreaseScore` or of `ReduceScore`. -/
abbrev ScoreCall := Entry 32

/-- `IncreaseScore(10)`, the only amount that is ever added. -/
def increase : ScoreCall := .credit 10

/-- `ReduceScore(score)`. -/
def reduce (score : UInt32) : ScoreCall := .debit score.toBitVec

namespace Table

/-- A last player PLAYING wins. -/
def crownCalls (t : Table) (seat : Seat) : List ScoreCall :=
  if t.active = 1 ∧ t.isPlaying seat = true then [increase] else []

/-- Who leaves a running game pays for it. -/
def leaveCalls (t : Table) (gone seat : Seat) : List ScoreCall :=
  if seat = gone then if t.isPlaying gone then [reduce 30] else []
  else (t.vacate gone).crownCalls seat

/-- Giving up costs the same. -/
def surrenderCalls (t : Table) (loser seat : Seat) : List ScoreCall :=
  if t.isPlaying loser then
    (if seat = loser then [reduce 30] else []) ++
      (t.modify loser fun p => setStatus .ended (lose 30 p)).crownCalls seat
  else (t.modify loser (setStatus .ended)).crownCalls seat

/-- A capture gives the captor points and takes them from the captive. -/
def captureCalls (m : MoveChess) (seat : Seat) : List ScoreCall :=
  if m.isWinner then
    (if m.srcLocate = seat.location then [increase] else []) ++
      (if m.targetLocate = seat.location then [reduce 10] else [])
  else []

/-- An undo takes the points back. -/
def undoCalls (t : Table) (seat : Seat) : List ScoreCall :=
  if t.recentWinnerLocate ≠ locationMax then
    (if t.recentWinnerLocate = seat.location then [reduce 10] else []) ++
      (if t.recentLoserLocate = seat.location then [increase] else [])
  else []

end Table

/-- The calls of an act for the player on a chair. -/
def Act.calls (t : Table) (seat : Seat) : Act → List ScoreCall
  | .leave gone => t.leaveCalls gone seat
  | .reject gone =>
      (t.modify gone (Table.setStatus .notStart)).leaveCalls gone seat
  | .surrender loser => t.surrenderCalls loser seat
  | .move m => Table.captureCalls m seat
  | .undo => t.undoCalls seat
  | _ => []

/-- The calls of an act for a session. -/
def World.actCalls (w : World) (act : Option (BoardPtr × Act))
    (u : SessionId) : List ScoreCall :=
  match act, w.chair u with
  | some (b, a), some (c, seat) => if b = c then a.calls (w.table b) seat else []
  | _, _ => []

/-- The calls of an event for a session. -/
def World.scoreCalls (env : Env) (w : World) (e : Event) (u : SessionId) :
    List ScoreCall := w.actCalls (w.act env e) u

/-! ## Scores are balances -/

/-- The score on a chair is the balance after some calls. -/
def Table.Books (t t' : Table) (seat : Seat) (calls : List ScoreCall) : Prop :=
  ∀ p', t'.players seat = some p' → ∃ p, t.players seat = some p ∧
    p'.score.toBitVec = balance p.score.toBitVec calls

/-- A change of a player is some calls. -/
def Player.Books (f : Player → Player) (calls : List ScoreCall) : Prop :=
  ∀ p, (f p).score.toBitVec = balance p.score.toBitVec calls

namespace Table

theorem Books.refl (t : Table) (seat : Seat) : t.Books t seat [] :=
  fun p hp => ⟨p, hp, rfl⟩

theorem Books.trans {t₁ t₂ t₃ : Table} {seat : Seat}
    {calls calls' : List ScoreCall} (h₁ : t₁.Books t₂ seat calls)
    (h₂ : t₂.Books t₃ seat calls') : t₁.Books t₃ seat (calls ++ calls') := by
  intro p₃ hp₃
  obtain ⟨p₂, hp₂, hscore₂⟩ := h₂ p₃ hp₃
  obtain ⟨p₁, hp₁, hscore₁⟩ := h₁ p₂ hp₂
  refine ⟨p₁, hp₁, ?_⟩
  rw [Ledger.balance_append, ← hscore₁, hscore₂]

/-- Changes without a call before or after. -/
theorem Books.keep {t₁ t₂ t₃ : Table} {seat : Seat}
    {calls : List ScoreCall} (h₁ : t₁.Books t₂ seat calls)
    (h₂ : t₂.Books t₃ seat []) : t₁.Books t₃ seat calls := by
  have h := h₁.trans h₂
  rwa [List.append_nil] at h

theorem Books.of_players {t t' : Table} (h : t'.players = t.players)
    (seat : Seat) : t.Books t' seat [] :=
  fun p hp => ⟨p, h ▸ hp, rfl⟩

theorem books_status (status : UserGameStatus) :
    Player.Books (setStatus status) [] := fun _ => rfl

theorem books_gain : Player.Books (gain 10) [increase] := fun _ => rfl

theorem books_lose (score : UInt32) :
    Player.Books (lose score) [reduce score] := fun _ => rfl

theorem books_modify {f : Player → Player} {calls : List ScoreCall}
    (hf : Player.Books f calls) (t : Table) (changed seat : Seat) :
    t.Books (t.modify changed f) seat (if seat = changed then calls else []) := by
  intro p' hp'
  by_cases h : seat = changed
  · subst h
    simp only [modify, Function.update_self, Option.map_eq_some_iff] at hp'
    obtain ⟨p, hp, rfl⟩ := hp'
    rw [if_pos rfl]
    exact ⟨p, hp, hf p⟩
  · simp only [modify, Function.update_of_ne h] at hp'
    rw [if_neg h]
    exact ⟨p', hp', rfl⟩

theorem books_modifyAt {f : Player → Player} {calls : List ScoreCall}
    (hf : Player.Books f calls) (t : Table) (locate : Location)
    (seat : Seat) : t.Books (t.modifyAt locate f) seat
      (if locate = seat.location then calls else []) := by
  unfold modifyAt
  split
  · rename_i changed hchanged
    rw [seatAt_eq_some_iff] at hchanged
    subst hchanged
    have hsame : changed.location = seat.location ↔ seat = changed :=
      ⟨fun h => (Seat.location_injective h).symm, fun h => h ▸ rfl⟩
    simpa only [hsame] using books_modify hf t changed seat
  · rename_i hnone
    have hne : locate ≠ seat.location := by
      rintro rfl
      rw [seatAt_location] at hnone
      cases hnone
    rw [if_neg hne]
    exact .refl t seat

/-- A change of status alone. -/
theorem books_mark (status : UserGameStatus) (t : Table) (changed seat : Seat) :
    t.Books (t.modify changed (setStatus status)) seat [] := by
  have h := books_modify (books_status status) t changed seat
  rwa [ite_self] at h

theorem books_markAt (status : UserGameStatus) (t : Table)
    (locate : Location) (seat : Seat) :
    t.Books (t.modifyAt locate (setStatus status)) seat [] := by
  have h := books_modifyAt (books_status status) t locate seat
  rwa [ite_self] at h

theorem books_markAll (status : UserGameStatus) (t : Table) (seat : Seat) :
    t.Books (t.modifyAll (setStatus status)) seat [] := by
  intro p' hp'
  simp only [modifyAll, Option.map_eq_some_iff] at hp'
  obtain ⟨p, hp, rfl⟩ := hp'
  exact ⟨p, hp, rfl⟩

theorem books_crown (t : Table) (seat : Seat) :
    t.Books t.crown seat (t.crownCalls seat) := by
  unfold crown crownCalls
  by_cases hone : t.active = 1
  · intro p' hp'
    rw [if_pos hone] at hp'
    simp only [modifyAll, Option.map_eq_some_iff] at hp'
    obtain ⟨p, hp, rfl⟩ := hp'
    have hplaying : t.isPlaying seat = (p.status == .playing) := by
      simp [isPlaying, passes, status, hp]
    refine ⟨p, hp, ?_⟩
    by_cases hstatus : p.status = .playing
    · rw [if_pos hstatus, if_pos ⟨hone, by simp [hplaying, hstatus]⟩]
      exact books_gain p
    · rw [if_neg hstatus, if_neg fun h => hstatus (by simpa [hplaying] using h.2)]
      rfl
  · rw [if_neg hone, if_neg fun h => hone h.1]
    exact .refl t seat

theorem books_vacate {t : Table} {gone seat : Seat} (h : seat ≠ gone) :
    t.Books (t.vacate gone) seat [] := by
  intro p hp
  simp only [vacate, Function.update_of_ne h] at hp
  exact ⟨p, hp, rfl⟩

theorem books_leave (t : Table) (gone seat : Seat) :
    t.Books (t.leave gone) seat (t.leaveCalls gone seat) := by
  by_cases h : seat = gone
  · subst h
    intro p' hp'
    have hnobody := sitter_leave t seat seat
    rw [if_pos rfl, sitter, hp'] at hnobody
    cases hnobody
  · have hcrown : t.Books (t.vacate gone).crown seat
        ((t.vacate gone).crownCalls seat) :=
      (books_vacate h).trans (books_crown _ seat)
    unfold leave leaveCalls
    rw [if_neg h]
    split
    · exact hcrown.keep (books_markAll .ended _ seat)
    · exact hcrown

theorem books_surrender (t : Table) (loser seat : Seat) :
    t.Books (t.surrender loser) seat (t.surrenderCalls loser seat) := by
  unfold surrender surrenderCalls
  split
  · have hlose := @books_modify (fun p => setStatus .ended (lose 30 p))
      [reduce 30] (fun p => books_lose 30 p) t loser seat
    exact (hlose.trans (books_crown _ seat)).keep (books_markAll .ended _ seat)
  · exact (books_mark .ended t loser seat).trans (books_crown _ seat)

theorem books_capture (t : Table) (m : MoveChess) (seat : Seat) :
    t.Books (t.capture m) seat (captureCalls m seat) := by
  unfold capture captureCalls
  split
  · have hgain := books_modifyAt books_gain
      (t.setRecent m.srcLocate m.targetLocate) m.srcLocate seat
    have hlose := @books_modifyAt (fun p => setStatus .ended (lose 10 p))
      [reduce 10] (fun p => books_lose 10 p)
      ((t.setRecent m.srcLocate m.targetLocate).modifyAt m.srcLocate (gain 10))
      m.targetLocate seat
    exact (Books.of_players rfl seat).trans (hgain.trans hlose)
  · exact .of_players rfl seat

theorem books_undo (t : Table) (seat : Seat) :
    t.Books t.undo seat (t.undoCalls seat) := by
  unfold undo undoCalls
  split
  · have hlose := books_modifyAt (books_lose 10) t t.recentWinnerLocate seat
    have hgain := @books_modifyAt (fun p => setStatus .playing (gain 10 p))
      [increase] (fun p => books_gain p)
      (t.modifyAt t.recentWinnerLocate (lose 10)) t.recentLoserLocate seat
    exact hlose.trans hgain
  · exact .refl t seat

theorem books_ready (t : Table) (m : GameReadyReq) (seat : Seat) :
    t.Books (t.ready m) seat [] := by
  have hmark : t.Books ((t.modifyAt m.srcUserLocate
      (setStatus .began)).chooseTime m) seat [] :=
    (books_markAt .began t m.srcUserLocate seat).trans
      (.of_players (players_chooseTime _ m) seat)
  unfold ready
  dsimp only
  split
  · exact hmark.keep (books_markAll .playing _ seat)
  · exact hmark

end Table

/-- What an act makes of the score on a chair that nobody sits down on. -/
theorem Act.books {t : Table} {a : Act} {seat : Seat}
    (hjoin : ∀ user score, a ≠ .join seat user score) :
    t.Books (a.apply t) seat (a.calls t seat) := by
  cases a with
  | join chair user score =>
      have hne : seat ≠ chair := by
        rintro rfl
        exact hjoin user score rfl
      intro p' hp'
      refine ⟨p', ?_, rfl⟩
      simp only [Act.apply, Table.join] at hp'
      split at hp' <;> simpa only [Function.update_of_ne hne] using hp'
  | leave gone => exact Table.books_leave t gone seat
  | reject gone =>
      exact (Table.books_mark .notStart t gone seat).trans
        (Table.books_leave _ gone seat)
  | surrender loser => exact Table.books_surrender t loser seat
  | move m =>
      simp only [Act.apply, Act.calls, Table.move]
      split
      · exact Table.books_capture t m seat
      · exact (Table.books_capture t m seat).keep
          (Table.books_markAt .ended _ m.srcLocate seat)
  | draw => exact Table.books_markAll .ended t seat
  | undo => exact Table.books_undo t seat
  | ready m => exact Table.books_ready t m seat
  | again chair began =>
      simp only [Act.apply, Act.calls, Table.again]
      split
      · exact Table.books_mark .ready t chair seat
      · exact .refl t seat

end ChessServer
