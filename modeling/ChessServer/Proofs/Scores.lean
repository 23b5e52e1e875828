import ChessServer.Model.Scores
import ChessServer.Proofs.Message

/-!
# What a handled message does to the scores

The score of a session that has logged in changes by the calls of the act and
by nothing else, whether the session is the sender, a player at the same
table or anybody else (`Outcome.scores`).
-/

namespace ChessServer

open Ledger (balance)

/-- The session has a state object other than `StateAuth`. -/
def UserSession.LoggedIn (s : UserSession) : Prop :=
  s.stateMachine ≠ none ∧ s.stateMachine ≠ some .auth

instance (s : UserSession) : Decidable s.LoggedIn :=
  inferInstanceAs (Decidable (_ ∧ _))

/-- The chair of a session is where it sits. -/
theorem chair_of_seat {w : World} {b : BoardPtr} {seat : Seat} {v : SessionId}
    (hseating : w.layout.Seating) (hseat : (w.boards b).seat seat = some v) :
    w.chair v = some (b, seat) := by
  obtain ⟨p, hp, hboard, hlocate⟩ := hseating.seated (b := b) hseat
  simp only [World.layout, Option.map_eq_some_iff] at hp
  obtain ⟨s, hs, rfl⟩ := hp
  simp only [UserSession.place] at hboard hlocate
  simp [World.chair, hs, hboard, hlocate]

/-- And it sits there. -/
theorem seat_of_chair {w : World} {b : BoardPtr} {seat : Seat} {v : SessionId}
    (hseating : w.layout.Seating) (h : w.chair v = some (b, seat)) :
    (w.boards b).seat seat = some v := by
  simp only [World.chair, Option.bind_eq_bind, Option.bind_eq_some_iff,
    Option.some.injEq] at h
  obtain ⟨s, hs, c, hboard, seat', hlocate, h⟩ := h
  cases h
  obtain ⟨seat', hlocate', hseat, _⟩ := chair_eq hseating hs hboard
  rw [hlocate', seatAt_location, Option.some.injEq] at hlocate
  exact hlocate ▸ hseat

/-- An act at another board makes no calls for a session. -/
theorem actCalls_elsewhere {w : World} {b : BoardPtr} {a : Act}
    {v : SessionId} (h : ∀ seat, w.chair v ≠ some (b, seat)) :
    w.actCalls (some (b, a)) v = [] := by
  unfold World.actCalls
  split
  · rename_i b' a' c seat hact hchair
    cases hact
    split
    · rename_i hsame
      exact absurd (hsame ▸ hchair) (h seat)
    · rfl
  · rfl

/-- The calls for a session on a chair of the table. -/
theorem actCalls_here {w : World} {b : BoardPtr} {a : Act} {seat : Seat}
    {v : SessionId} (h : w.chair v = some (b, seat)) :
    w.actCalls (some (b, a)) v = a.calls (w.table b) seat := by
  simp [World.actCalls, h]

theorem actCalls_standing {w : World} {v : SessionId}
    (h : w.chair v = none) (act : Option (BoardPtr × Act)) :
    w.actCalls act v = [] := by
  unfold World.actCalls
  rw [h]
  cases act <;> rfl

@[simp] theorem actCalls_none (w : World) (v : SessionId) :
    w.actCalls none v = [] := rfl

/-- The calls depend on who sits where and on the table of the act. -/
theorem actCalls_congr {w w' : World} {act : Option (BoardPtr × Act)}
    {v : SessionId} (hchair : w'.chair v = w.chair v)
    (htable : ∀ b, w'.table b = w.table b) :
    w'.actCalls act v = w.actCalls act v := by
  simp only [World.actCalls, hchair, htable]

/-- Scores at the tables give scores of the sessions on the chairs. -/
theorem score_on_chair {w w' : World} {b : BoardPtr} {seat : Seat}
    {v : SessionId} {s s' : UserSession} {calls : List ScoreCall}
    (hs : w.users v = some s) (hs' : w'.users v = some s')
    (hseat : (w.boards b).seat seat = some v)
    (hseat' : (w'.boards b).seat seat = some v)
    (h : (w.table b).Books (w'.table b) seat calls) :
    s'.userInfo.score.toBitVec = balance s.userInfo.score.toBitVec calls := by
  obtain ⟨p, hp, hscore⟩ := h _ (table_players hseat' hs')
  rw [table_players hseat hs, Option.some.injEq] at hp
  rw [hscore, ← hp]

/-- The score of a session that stays on its chair. -/
theorem score_seated {w w' : World} {act : Option (BoardPtr × Act)}
    {b : BoardPtr} {seat : Seat} {v : SessionId} {s s' : UserSession}
    (hseating : w.layout.Seating)
    (hfree : ∀ b seat user score, act = some (b, .join seat user score) →
      (w.table b).players seat = none)
    (htable : w'.table b = w.tableAfter act b)
    (hs : w.users v = some s) (hs' : w'.users v = some s')
    (hseat : (w.boards b).seat seat = some v)
    (hseat' : (w'.boards b).seat seat = some v) :
    s'.userInfo.score.toBitVec =
      balance s.userInfo.score.toBitVec (w.actCalls act v) := by
  have hchair := chair_of_seat hseating hseat
  refine score_on_chair hs hs' hseat hseat' ?_
  rw [htable]
  cases act with
  | none => exact .refl _ seat
  | some a =>
      obtain ⟨c, a⟩ := a
      simp only [World.tableAfter]
      by_cases hc : b = c
      · subst hc
        rw [if_pos rfl, actCalls_here hchair]
        refine Act.books fun user score ha => ?_
        have hnone := hfree b seat user score (by rw [ha])
        rw [table_players hseat hs] at hnone
        cases hnone
      · rw [if_neg hc, actCalls_elsewhere fun seat' h => ?_]
        · exact .refl _ seat
        · rw [hchair, Option.some.injEq, Prod.mk.injEq] at h
          exact hc h.1

/-- The scores of all sessions after an act. -/
def ScoredBy (u : SessionId) (w w' : World) (act : Option (BoardPtr × Act)) :
    Prop :=
  ∀ v s s', w.users v = some s → w'.users v = some s' →
    (v = u → s.LoggedIn) → s'.userInfo.score.toBitVec =
      balance s.userInfo.score.toBitVec (w.actCalls act v)

/-- A session whose mark is the same has the same score. -/
theorem scored_of_mark {w w' : World} {v : SessionId} {s s' : UserSession}
    (hs : w.users v = some s) (hs' : w'.users v = some s')
    (h : w'.mark v = w.mark v) : s'.userInfo.score = s.userInfo.score := by
  obtain ⟨t, ht, hscore⟩ := score_of_mark hs h
  rw [hs'] at ht
  cases ht
  exact hscore

/-- An act that leaves everybody on their chairs. -/
theorem Plays.score {b : BoardPtr} {w w' : World} {t : Table}
    {v : SessionId} {s s' : UserSession} (hseating : w.layout.Seating)
    (hs : w.users v = some s) (hs' : w'.users v = some s')
    (h : Plays b w w' t) (calls : Seat → List ScoreCall)
    (hbooks : ∀ seat, (w.boards b).seat seat = some v →
      (w.table b).Books t seat (calls seat))
    {es : List ScoreCall}
    (hhere : ∀ seat, w.chair v = some (b, seat) → es = calls seat)
    (helse : (∀ seat, w.chair v ≠ some (b, seat)) → es = []) :
    s'.userInfo.score.toBitVec = balance s.userInfo.score.toBitVec es := by
  by_cases hon : ∃ seat, w.chair v = some (b, seat)
  · obtain ⟨seat, hchair⟩ := hon
    have hseat := seat_of_chair hseating hchair
    rw [hhere seat hchair]
    exact score_on_chair hs hs' hseat (by rwa [h.seats])
      (h.table ▸ hbooks seat hseat)
  · simp only [not_exists] at hon
    rw [helse hon]
    rw [h.outside v fun seat hseat =>
      hon seat (chair_of_seat hseating hseat), hs] at hs'
    cases hs'
    rfl

/-- The chair that a session takes shows the score that it brings. -/
theorem Joins.score {u : SessionId} {b : BoardPtr} {seat : Seat}
    {w w' : World} {s s' : UserSession} (j : Joins u b seat w w')
    (hs : w.users u = some s) (hs' : w'.users u = some s') :
    s'.userInfo.score = s.userInfo.score := by
  have hseat : (w'.boards b).seat seat = some u := by
    have := congrFun (congrFun (congrArg Layout.seats j.layout) b) seat
    simpa [World.layout, Layout.sit, Layout.setSeat, Layout.modify] using this
  have hsat : ((w.table b).join seat u s.userInfo.score).players seat =
      some ⟨u, .ready, s.userInfo.score⟩ := by
    unfold Table.join
    dsimp only
    split <;> simp
  have hplayer := table_players hseat hs'
  rw [j.table s hs, hsat, Option.some.injEq, Player.mk.injEq] at hplayer
  exact hplayer.2.2.symm

/-- Taking a chair books nothing. -/
theorem actCalls_join {w : World} {b : BoardPtr} {seat : Seat}
    {u v : SessionId} {score : UInt32} :
    w.actCalls (some (b, .join seat u score)) v = [] := by
  unfold World.actCalls
  split
  · rename_i hact _
    cases hact
    exact ite_self []
  · rfl

/-- Who gets up pays 30 points if it was PLAYING. -/
theorem Stands.score_self {v : SessionId} {b : BoardPtr} {seat : Seat}
    {w w' : World} {s s' : UserSession} (q : Stands v b seat w w')
    (hseating : w.layout.Seating) (hseat : (w.boards b).seat seat = some v)
    (hs : w.users v = some s) (hs' : w'.users v = some s') :
    s'.userInfo.score.toBitVec = balance s.userInfo.score.toBitVec
      (w.actCalls (some (b, .leave seat)) v) := by
  obtain ⟨t, ht, hscore⟩ := q.score s hs
  rw [hs'] at ht
  cases ht
  rw [actCalls_here (chair_of_seat hseating hseat), Act.calls,
    Table.leaveCalls, if_pos rfl, hscore, table_isPlaying hseat hs]
  unfold UserSession.scoreAfter
  by_cases hplay : s.status = .playing
  · rw [if_pos hplay, if_pos (by simpa using hplay)]
    rfl
  · rw [if_neg hplay, if_neg (by simpa using hplay)]
    rfl

/-- The others keep their chairs. -/
theorem Stands.score_other {v x : SessionId} {b : BoardPtr} {seat : Seat}
    {w w' : World} {s s' : UserSession} (q : Stands x b seat w w')
    (hseating : w.layout.Seating) (hseat : (w.boards b).seat seat = some x)
    (hvx : v ≠ x) (hs : w.users v = some s) (hs' : w'.users v = some s') :
    s'.userInfo.score.toBitVec = balance s.userInfo.score.toBitVec
      (w.actCalls (some (b, .leave seat)) v) := by
  by_cases hon : ∃ seat', w.chair v = some (b, seat')
  · obtain ⟨seat', hchair⟩ := hon
    have hseat₀ := seat_of_chair hseating hchair
    have hne : seat' ≠ seat := by
      rintro rfl
      rw [hseat] at hseat₀
      exact hvx (Option.some.inj hseat₀).symm
    have hseat' : (w'.boards b).seat seat' = some v := by
      have := congrFun (congrArg Layout.seats q.layout) b
      simp only [Layout.stand, Layout.vacate, Layout.modify,
        Layout.setSeat_self] at this
      rw [← hseat₀]
      have := congrFun this seat'
      rwa [Function.update_of_ne hne] at this
    rw [actCalls_here hchair]
    refine score_on_chair hs hs' hseat₀ hseat' ?_
    rw [q.table]
    exact Table.books_leave _ seat seat'
  · simp only [not_exists] at hon
    rw [actCalls_elsewhere hon]
    refine congrArg _ (scored_of_mark hs hs' (q.mark v fun seat' h => ?_))
    exact hon seat' (chair_of_seat hseating h)

/-- Whatever a message does, the scores change by its calls. -/
theorem Outcome.scores {u : SessionId} {w w' : World}
    {act : Option (BoardPtr × Act)} (hseating : w.layout.Seating)
    (hfree : ∀ b seat user score, act = some (b, .join seat user score) →
      (w.table b).players seat = none)
    (h : Outcome u w w' act) : ScoredBy u w w' act := by
  intro v s s' hs hs' hlogged
  cases h with
  | own q hstand =>
      by_cases hv : v = u
      · subst hv
        have hauth : ¬ w.InState v .auth := by
          rintro ⟨s₀, hs₀, hstate⟩
          rw [hs] at hs₀
          cases hs₀
          exact (hlogged rfl).2 hstate
        obtain ⟨t, ht, hscore⟩ := q.score hauth s hs
        rw [hs'] at ht
        cases ht
        exact congrArg UInt32.toBitVec hscore
      · exact congrArg _ (scored_of_mark hs hs' (q.mark v hv))
  | quiet q => exact congrArg _ (scored_of_mark hs hs' (q.mark v))
  | joins hs₀ hstand hchair j =>
      rw [actCalls_join]
      by_cases hv : v = u
      · subst hv
        exact congrArg UInt32.toBitVec (j.score hs hs')
      · exact congrArg _ (scored_of_mark hs hs' (j.mark v hv))
  | plays q =>
      rename_i b a
      refine q.score hseating hs hs' (a.calls (w.table b)) ?_
        (fun seat => actCalls_here) actCalls_elsewhere
      intro seat hseat
      refine Act.books fun user score ha => ?_
      have hnone := hfree b seat user score (by rw [ha])
      rw [table_players hseat hs] at hnone
      cases hnone
  | passes q =>
      exact q.score hseating hs hs' (fun _ => [])
        (fun seat _ => .refl _ seat) (fun _ _ => rfl) fun _ => rfl
  | @stands x b seat hseat q =>
      by_cases hv : v = x
      · subst hv
        exact q.score_self hseating hseat hs hs'
      · exact q.score_other hseating hseat hv hs hs'

end ChessServer
