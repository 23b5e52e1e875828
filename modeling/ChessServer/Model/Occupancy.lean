import Mathlib.Data.List.Basic
import ChessServer.Model.Layout

/-!
# The operations keep the layout's invariants

One lemma for each operation and each of the three parts of `Layout.Inv`.
Connecting and closing touch the registry, joining and leaving touch the
seating, and every operation of a session on itself may leave it unsettled.
-/

namespace ChessServer

theorem Place.Online.not_idle {p : Place} (h : p.Online) : ¬ p.Idle := by
  intro hidle
  have := h.clifd
  rw [hidle.clifd] at this
  omega

theorem Place.Idle.reset {p : Place} (h : p.Idle) : p.reset = p := by
  cases p
  simp only [Place.reset, Place.mk.injEq]
  exact ⟨h.clifd.symm, h.thread.symm, h.bufev.symm, h.bufInfo.symm, trivial,
    h.currChessBoard.symm, h.stateMachine.symm, h.nextState.symm⟩

theorem Place.reset_idle (p : Place) : p.reset.Idle :=
  ⟨rfl, rfl, rfl, rfl, rfl, rfl, rfl⟩

theorem Place.Idle.settled {p : Place} (h : p.Idle) : p.Settled := by
  unfold Place.Settled
  rw [h.currChessBoard, h.stateMachine, h.nextState]
  simp

theorem Place.Settled.congr {p p' : Place} (h : p.Settled)
    (hboard : p'.currChessBoard = p.currChessBoard)
    (hstate : p'.stateMachine = p.stateMachine)
    (hnext : p'.nextState = p.nextState) : p'.Settled := by
  unfold Place.Settled at h ⊢
  rwa [hboard, hstate, hnext]

namespace Layout

@[simp] theorem modify_self (l : Layout) (u : SessionId) (f : Place → Place) :
    (l.modify u f).place u = (l.place u).map f := by
  simp [modify]

theorem modify_other {l : Layout} {u v : SessionId} {f : Place → Place}
    (h : v ≠ u) : (l.modify u f).place v = l.place v := by
  simp [modify, h]

/-- The place of any session after one was changed. -/
theorem modify_place {l : Layout} {u v : SessionId} {f : Place → Place}
    {p : Place} (h : (l.modify u f).place v = some p) :
    ∃ q, l.place v = some q ∧ (v = u → p = f q) ∧ (v ≠ u → p = q) := by
  by_cases hv : v = u
  · subst hv
    rw [modify_self, Option.map_eq_some_iff] at h
    obtain ⟨q, hq, rfl⟩ := h
    exact ⟨q, hq, fun _ => rfl, fun hne => absurd rfl hne⟩
  · rw [modify_other hv] at h
    exact ⟨p, h, fun he => absurd he hv, fun _ => rfl⟩

/-- Received bytes stay when a change keeps them. -/
theorem modify_input {l : Layout} {u : SessionId} {f : Place → Place}
    (hf : ∀ p, l.place u = some p →
      (f p).bufev = p.bufev ∧ (f p).bufInfo = p.bufInfo) (v : SessionId) :
    (l.modify u f).input v = l.input v := by
  unfold input
  by_cases hv : v = u
  · subst hv
    rw [modify_self]
    cases hp : l.place v with
    | none => rfl
    | some p =>
        obtain ⟨hbufev, hinfo⟩ := hf p hp
        simp [hbufev, hinfo]
  · rw [modify_other hv]

theorem setSeat_self (l : Layout) (b : BoardPtr) (seat : Seat)
    (user : Option SessionId) (num : UInt32) :
    (l.setSeat b seat user num).seats b =
      Function.update (l.seats b) seat user := by
  simp [setSeat]

theorem setSeat_other {l : Layout} {b c : BoardPtr} {seat : Seat}
    {user : Option SessionId} {num : UInt32} (h : c ≠ b) :
    (l.setSeat b seat user num).seats c = l.seats c := by
  simp [setSeat, h]

/-! ## The registry -/

theorem Registry.not_mem_pool {absent : Option SessionId} {l : Layout}
    (hl : l.Registry absent) {u : SessionId} {fd : Int}
    (h : l.registry fd = some u) : u ∉ l.pool := by
  intro hpool
  obtain ⟨p, hp, _, honline⟩ := hl.registered h
  obtain ⟨q, hq, hidle⟩ := hl.pooled hpool
  rw [hp] at hq
  cases hq
  exact honline.not_idle hidle

/-- A session with an open descriptor is registered. -/
theorem Registry.registered_of_online {l : Layout} (hl : l.Registry none)
    {u : SessionId} {p : Place} (hp : l.place u = some p) (h : ¬ p.Idle) :
    l.registry p.clifd = some u := by
  rcases hl.placed hp (by simp) with hpool | hreg
  · obtain ⟨q, hq, hidle⟩ := hl.pooled hpool
    rw [hp] at hq
    cases hq
    exact absurd hidle h
  · exact hreg

/-- Changing what a session outside the pool knows beyond its connection
keeps the registry. -/
theorem Registry.modify {absent : Option SessionId} {l : Layout}
    (hl : l.Registry absent) {u : SessionId} {f : Place → Place}
    (hu : u ∉ l.pool)
    (hf : ∀ p, l.place u = some p → (f p).clifd = p.clifd ∧
      (f p).thread = p.thread ∧ (f p).bufev.isSome = p.bufev.isSome) :
    (l.modify u f).Registry absent where
  registered := by
    intro fd v hv
    obtain ⟨p, hp, hfd, honline⟩ := hl.registered hv
    by_cases hvu : v = u
    · subst hvu
      obtain ⟨hclifd, hthread, hbufev⟩ := hf p hp
      exact ⟨f p, by simp [hp], hclifd.trans hfd, hclifd ▸ honline.clifd,
        hthread ▸ honline.thread, hbufev ▸ honline.bufev⟩
    · exact ⟨p, (modify_other hvu).trans hp, hfd, honline⟩
  pooled := by
    intro v hv
    have hvu : v ≠ u := fun he => hu (he ▸ hv)
    obtain ⟨p, hp, hidle⟩ := hl.pooled hv
    exact ⟨p, (modify_other hvu).trans hp, hidle⟩
  nodup := hl.nodup
  placed := by
    intro v p hp hne
    obtain ⟨q, hq, hself, hother⟩ := modify_place hp
    have hclifd : p.clifd = q.clifd := by
      by_cases hvu : v = u
      · rw [hself hvu]
        exact (hf q (hvu ▸ hq)).1
      · rw [hother hvu]
    rw [hclifd]
    exact hl.placed hq hne
  fresh := by
    intro v hv
    have hnone := hl.fresh hv
    by_cases hvu : v = u
    · subst hvu
      simp [hnone]
    · exact (modify_other hvu).trans hnone

theorem Registry.setSeat {absent : Option SessionId} {l : Layout}
    (hl : l.Registry absent) (b : BoardPtr) (seat : Seat)
    (user : Option SessionId) (num : UInt32) :
    (l.setSeat b seat user num).Registry absent :=
  ⟨hl.registered, hl.pooled, hl.nodup, hl.placed, hl.fresh⟩

/-- A descriptor that is closed takes its session out of the registry. -/
theorem Registry.unregister {l : Layout} (hl : l.Registry none)
    {fd : Int} {u : SessionId} (hreg : l.registry fd = some u) :
    (l.unregister fd).Registry (some u) where
  registered := by
    intro fd' v hv
    by_cases hfd : fd' = fd
    · subst hfd
      simp [Layout.unregister] at hv
    · simp only [Layout.unregister, Function.update_of_ne hfd] at hv
      exact hl.registered hv
  pooled := hl.pooled
  nodup := hl.nodup
  placed := by
    intro v p hp hne
    rcases hl.placed hp (by simp) with hpool | hv
    · exact Or.inl hpool
    · right
      obtain ⟨q, hq, hfd, _⟩ := hl.registered hreg
      by_cases hclifd : p.clifd = fd
      · rw [hclifd, hreg] at hv
        exact absurd hv.symm hne
      · simpa [Layout.unregister, Function.update_of_ne hclifd] using hv
  fresh := hl.fresh

/-- A session that was destructed on its way to the pool. -/
theorem Registry.reset {l : Layout} {u : SessionId}
    (hl : l.Registry (some u)) (hu : ∀ fd, l.registry fd ≠ some u) :
    (l.modify u Place.reset).Registry (some u) where
  registered := by
    intro fd v hv
    have hvu : v ≠ u := fun he => hu fd (he ▸ hv)
    obtain ⟨p, hp, hrest⟩ := hl.registered hv
    exact ⟨p, (modify_other hvu).trans hp, hrest⟩
  pooled := by
    intro v hv
    obtain ⟨p, hp, hidle⟩ := hl.pooled hv
    by_cases hvu : v = u
    · subst hvu
      exact ⟨p.reset, by simp [hp], p.reset_idle⟩
    · exact ⟨p, (modify_other hvu).trans hp, hidle⟩
  nodup := hl.nodup
  placed := by
    intro v p hp hne
    have hvu : v ≠ u := fun he => hne (congrArg some he)
    exact hl.placed ((modify_other hvu).symm.trans hp) hne
  fresh := by
    intro v hv
    have hnone := hl.fresh hv
    by_cases hvu : v = u
    · subst hvu
      simp [hnone]
    · exact (modify_other hvu).trans hnone

theorem Registry.toPool {l : Layout} {u : SessionId} {p : Place}
    (hl : l.Registry (some u)) (hp : l.place u = some p) (hidle : p.Idle)
    (hu : u ∉ l.pool) : (l.toPool u).Registry none where
  registered := hl.registered
  pooled := by
    intro v hv
    rcases List.mem_cons.mp hv with rfl | hv
    · exact ⟨p, hp, hidle⟩
    · exact hl.pooled hv
  nodup := List.nodup_cons.mpr ⟨hu, hl.nodup⟩
  placed := by
    intro v q hq _
    by_cases hvu : v = u
    · subst hvu
      exact Or.inl List.mem_cons_self
    · rcases hl.placed hq (by simpa using hvu) with hpool | hreg
      · exact Or.inl (List.mem_cons_of_mem u hpool)
      · exact Or.inr hreg
  fresh := hl.fresh

theorem Registry.trimOne {l : Layout} (hl : l.Registry none) :
    l.trimOne.Registry none := by
  unfold Layout.trimOne
  split
  · exact hl
  · rename_i u hlast
    have hmem : u ∈ l.pool := List.mem_of_getLast? hlast
    have hsplit : l.pool.dropLast ++ [u] = l.pool :=
      List.dropLast_append_getLast? u hlast
    have hnodup := hl.nodup
    rw [← hsplit, List.nodup_append] at hnodup
    have hne : ∀ v ∈ l.pool.dropLast, v ≠ u := fun v hv =>
      hnodup.2.2 v hv u (by simp)
    obtain ⟨p, hp, hidle⟩ := hl.pooled hmem
    exact
      { registered := by
          intro fd v hv
          obtain ⟨q, hq, hfd, honline⟩ := hl.registered hv
          have hvu : v ≠ u := by
            rintro rfl
            rw [hp] at hq
            cases hq
            exact honline.not_idle hidle
          exact ⟨q, by simpa [hvu] using hq, hfd, honline⟩
        pooled := by
          intro v hv
          obtain ⟨q, hq, hq'⟩ := hl.pooled (List.dropLast_subset _ hv)
          exact ⟨q, by simpa [hne v hv] using hq, hq'⟩
        nodup := hnodup.1
        placed := by
          intro v q hq _
          have hvu : v ≠ u := by
            rintro rfl
            simp at hq
          simp only [Function.update_of_ne hvu] at hq
          rcases hl.placed hq (by simp) with hpool | hreg
          · rw [← hsplit, List.mem_append, List.mem_singleton] at hpool
            exact Or.inl (hpool.resolve_right hvu)
          · exact Or.inr hreg
        fresh := by
          intro v hv
          by_cases hvu : v = u
          · simp [hvu]
          · simpa [hvu] using hl.fresh hv }

theorem Registry.newSession {l : Layout} (hl : l.Registry none) :
    l.newSession.Registry none := by
  have hnone : l.place l.nextUser = none := hl.fresh (Nat.le_refl _)
  have hne : ∀ {v p}, l.place v = some p → v ≠ l.nextUser := by
    rintro v p hp rfl
    rw [hnone] at hp
    cases hp
  exact
    { registered := by
        intro fd v hv
        obtain ⟨p, hp, hrest⟩ := hl.registered hv
        exact ⟨p, by simpa [Layout.newSession, hne hp] using hp, hrest⟩
      pooled := by
        intro v hv
        rcases List.mem_append.mp hv with hv | hv
        · obtain ⟨p, hp, hidle⟩ := hl.pooled hv
          exact ⟨p, by simpa [Layout.newSession, hne hp] using hp, hidle⟩
        · rw [List.mem_singleton.mp hv]
          exact ⟨UserSession.place {}, by simp [Layout.newSession],
            ⟨rfl, rfl, rfl, rfl, rfl, rfl, rfl⟩⟩
      nodup := by
        refine List.nodup_append.mpr ⟨hl.nodup, by simp, ?_⟩
        intro v hv x hx
        rw [List.mem_singleton.mp hx]
        obtain ⟨p, hp, _⟩ := hl.pooled hv
        exact hne hp
      placed := by
        intro v p hp _
        by_cases hv : v = l.nextUser
        · exact Or.inl (List.mem_append.mpr (Or.inr (by simp [hv])))
        · simp only [Layout.newSession, Function.update_of_ne hv] at hp
          rcases hl.placed hp (by simp) with hpool | hreg
          · exact Or.inl (List.mem_append.mpr (Or.inl hpool))
          · exact Or.inr hreg
      fresh := by
        intro v hv
        have hv' : l.nextUser < v := hv
        have := hl.fresh (Nat.le_of_lt hv')
        simpa [Layout.newSession, Nat.ne_of_gt hv'] using this }

theorem Registry.register {l : Layout} (hl : l.Registry none) {fd : Int}
    (hfd : 0 ≤ fd) (hfree : l.registry fd = none) {u : SessionId}
    {rest : List SessionId} (hpool : l.pool = u :: rest) :
    (l.register fd u).Registry none := by
  have hmem : u ∈ l.pool := by simp [hpool]
  obtain ⟨p, hp, hidle⟩ := hl.pooled hmem
  have hnodup := hl.nodup
  rw [hpool, List.nodup_cons] at hnodup
  have hreg : ∀ {fd'}, l.registry fd' ≠ some u := fun h =>
    hl.not_mem_pool h hmem
  exact
    { registered := by
        intro fd' v hv
        by_cases hfd' : fd' = fd
        · subst hfd'
          simp only [Layout.register, Function.update_self,
            Option.some.injEq] at hv
          subst hv
          exact ⟨{ p with clifd := fd', thread := some 0, bufev := some [] },
            by simp [Layout.register, hp], rfl, ⟨hfd, rfl, rfl⟩⟩
        · simp only [Layout.register, Function.update_of_ne hfd'] at hv
          have hvu : v ≠ u := by
            rintro rfl
            exact hreg hv
          obtain ⟨q, hq, hrest⟩ := hl.registered hv
          exact ⟨q, by simpa [Layout.register, hvu] using hq, hrest⟩
      pooled := by
        intro v hv
        simp only [Layout.register, hpool, List.tail_cons] at hv
        have hvu : v ≠ u := by
          rintro rfl
          exact hnodup.1 hv
        have hmem' : v ∈ l.pool := by simp [hpool, hv]
        obtain ⟨q, hq, hq'⟩ := hl.pooled hmem'
        exact ⟨q, by simpa [Layout.register, hvu] using hq, hq'⟩
      nodup := by simpa [Layout.register, hpool] using hnodup.2
      placed := by
        intro v q hq _
        by_cases hvu : v = u
        · subst hvu
          right
          simp only [Layout.register, Function.update_self, hp,
            Option.map_some, Option.some.injEq] at hq
          subst hq
          simp [Layout.register]
        · simp only [Layout.register, Function.update_of_ne hvu] at hq
          rcases hl.placed hq (by simp) with hv | hv
          · left
            rw [hpool, List.mem_cons] at hv
            simpa [Layout.register, hpool] using hv.resolve_left hvu
          · right
            have hne : q.clifd ≠ fd := by
              rintro rfl
              rw [hfree] at hv
              cases hv
            simpa [Layout.register, hne] using hv
      fresh := by
        intro v hv
        have hnone := hl.fresh hv
        by_cases hvu : v = u
        · subst hvu
          simp [Layout.register, hnone]
        · simpa [Layout.register, hvu] using hnone }

/-! ## The seating -/

/-- Nobody sits on two chairs. -/
theorem Seating.unique {l : Layout} (hl : l.Seating) {b c : BoardPtr}
    {seat seat' : Seat} {u : SessionId} (h : l.seats b seat = some u)
    (h' : l.seats c seat' = some u) : b = c ∧ seat = seat' := by
  obtain ⟨p, hp, hboard, hlocate⟩ := hl.seated h
  obtain ⟨q, hq, hboard', hlocate'⟩ := hl.seated h'
  rw [hp] at hq
  cases hq
  rw [hboard] at hboard'
  cases hboard'
  exact ⟨rfl, Seat.location_injective (hlocate.symm.trans hlocate')⟩

/-- No session has two chairs of one board. -/
def Distinct (l : Layout) : Prop :=
  ∀ {b : BoardPtr} {seat seat' : Seat} {u : SessionId},
    l.seats b seat = some u → l.seats b seat' = some u → seat = seat'

theorem Seating.distinct {l : Layout} (hl : l.Seating) : l.Distinct :=
  fun h h' => (hl.unique h h').2

theorem Distinct.vacate {l : Layout} (hl : l.Distinct) (b : BoardPtr)
    (seat : Seat) : (l.vacate b seat).Distinct := by
  have hold : ∀ {c s u}, (l.vacate b seat).seats c s = some u →
      l.seats c s = some u := by
    intro c s u h
    by_cases hc : c = b
    · subst hc
      rw [Layout.vacate, setSeat_self] at h
      by_cases hs : s = seat
      · subst hs
        simp at h
      · rwa [Function.update_of_ne hs] at h
    · rwa [Layout.vacate, setSeat_other hc] at h
  intro c s s' u h h'
  exact hl (hold h) (hold h')

/-- A session without a board sits nowhere. -/
theorem Seating.not_seated {l : Layout} (hl : l.Seating) {u : SessionId}
    {p : Place} (hp : l.place u = some p) (hboard : p.currChessBoard = none)
    (b : BoardPtr) (seat : Seat) : l.seats b seat ≠ some u := by
  intro h
  obtain ⟨q, hq, hq', _⟩ := hl.seated h
  rw [hp] at hq
  cases hq
  rw [hboard] at hq'
  cases hq'

/-- Changing other things than board and chair keeps the seating. -/
theorem Seating.modify {l : Layout} (hl : l.Seating) {u : SessionId}
    {f : Place → Place}
    (hf : ∀ p, l.place u = some p →
      (f p).currChessBoard = p.currChessBoard ∧
        (p.currChessBoard.isSome → (f p).locate = p.locate)) :
    (l.modify u f).Seating where
  seated := by
    intro b seat v hv
    obtain ⟨p, hp, hboard, hlocate⟩ := hl.seated hv
    by_cases hvu : v = u
    · subst hvu
      obtain ⟨hb, hloc⟩ := hf p hp
      exact ⟨f p, by simp [hp], hb.trans hboard,
        (hloc (by simp [hboard])).trans hlocate⟩
    · exact ⟨p, (modify_other hvu).trans hp, hboard, hlocate⟩
  onBoard := by
    intro v p b hp hboard
    obtain ⟨q, hq, hself, hother⟩ := modify_place hp
    by_cases hvu : v = u
    · obtain rfl := hself hvu
      obtain ⟨hb, hloc⟩ := hf q (hvu ▸ hq)
      rw [hb] at hboard
      rw [hloc (by simp [hboard])]
      exact hl.onBoard hq hboard
    · obtain rfl := hother hvu
      exact hl.onBoard hq hboard
  count := hl.count

/-- Taking a free chair. -/
theorem Seating.sit {l : Layout} (hl : l.Seating) {u : SessionId} {p : Place}
    (hp : l.place u = some p) (hstand : p.currChessBoard = none)
    {b : BoardPtr} {seat : Seat} (hfree : l.seats b seat = none) :
    (l.sit u b seat).Seating where
  seated := by
    intro c seat' v hv
    have hcases : (c = b ∧ seat' = seat ∧ v = u) ∨ l.seats c seat' = some v := by
      by_cases hc : c = b
      · subst hc
        by_cases hseat : seat' = seat
        · subst hseat
          simp [Layout.sit, Layout.modify, Layout.setSeat] at hv
          exact Or.inl ⟨rfl, rfl, hv.symm⟩
        · simp [Layout.sit, Layout.modify, Layout.setSeat, hseat] at hv
          exact Or.inr hv
      · simp [Layout.sit, Layout.modify, Layout.setSeat, hc] at hv
        exact Or.inr hv
    rcases hcases with ⟨rfl, rfl, rfl⟩ | hold
    · exact ⟨{ p with
          locate := seat'.location
          currChessBoard := some c
          nextState := some .gamePlay },
        by simp [Layout.sit, Layout.modify, Layout.setSeat, hp], rfl, rfl⟩
    · have hvu : v ≠ u := by
        rintro rfl
        exact hl.not_seated hp hstand c seat' hold
      obtain ⟨q, hq, hrest⟩ := hl.seated hold
      exact ⟨q, (modify_other hvu).trans hq, hrest⟩
  onBoard := by
    intro v q c hq hboard
    obtain ⟨r, hr, hself, hother⟩ := modify_place hq
    by_cases hvu : v = u
    · obtain rfl := hself hvu
      cases hboard
      exact ⟨seat, rfl, by simp [Layout.sit, Layout.modify, Layout.setSeat, hvu]⟩
    · obtain rfl := hother hvu
      obtain ⟨seat', hlocate, hseat'⟩ := hl.onBoard hr hboard
      refine ⟨seat', hlocate, ?_⟩
      have hne : ¬ (c = b ∧ seat' = seat) := by
        rintro ⟨rfl, rfl⟩
        rw [hfree] at hseat'
        cases hseat'
      by_cases hc : c = b
      · subst hc
        have : seat' ≠ seat := fun he => hne ⟨rfl, he⟩
        simpa [Layout.sit, Layout.modify, Layout.setSeat, this] using hseat'
      · simpa [Layout.sit, Layout.modify, Layout.setSeat, hc] using hseat'
  count := by
    intro c
    by_cases hc : c = b
    · subst hc
      have hcount := hl.count c
      have hupdate := occupied_update (l.seats c) seat (some u)
      have hle := occupied_le (l.seats c)
      have hlt := occupied_le (Function.update (l.seats c) seat (some u))
      simp only [hfree, Option.isSome_none, Bool.toNat_false,
        Option.isSome_some, Bool.toNat_true] at hupdate
      simp only [Layout.sit, Layout.modify, Layout.setSeat,
        Function.update_self, UInt32.toNat_add, UInt32.reduceToNat]
      omega
    · simpa [Layout.sit, Layout.modify, Layout.setSeat, hc] using hl.count c

/-- Leaving a chair; the session forgets the board. -/
theorem Seating.leave {l : Layout} (hl : l.Seating) {u : SessionId}
    {b : BoardPtr} {seat : Seat} (hseat : l.seats b seat = some u)
    {f : Place → Place} (hf : ∀ p, (f p).currChessBoard = none) :
    ((l.vacate b seat).modify u f).Seating where
  seated := by
    intro c seat' v hv
    have hold : l.seats c seat' = some v ∧ ¬ (c = b ∧ seat' = seat) := by
      by_cases hc : c = b
      · subst hc
        by_cases hs : seat' = seat
        · subst hs
          simp [Layout.vacate, Layout.modify, Layout.setSeat] at hv
        · simp [Layout.vacate, Layout.modify, Layout.setSeat, hs] at hv
          exact ⟨hv, fun h => hs h.2⟩
      · simp [Layout.vacate, Layout.modify, Layout.setSeat, hc] at hv
        exact ⟨hv, fun h => hc h.1⟩
    have hvu : v ≠ u := by
      rintro rfl
      exact hold.2 (hl.unique hold.1 hseat)
    obtain ⟨p, hp, hrest⟩ := hl.seated hold.1
    exact ⟨p, (modify_other hvu).trans hp, hrest⟩
  onBoard := by
    intro v p c hp hboard
    obtain ⟨q, hq, hself, hother⟩ := modify_place hp
    by_cases hvu : v = u
    · obtain rfl := hself hvu
      rw [hf] at hboard
      cases hboard
    · obtain rfl := hother hvu
      obtain ⟨seat', hlocate, hseat'⟩ := hl.onBoard hq hboard
      refine ⟨seat', hlocate, ?_⟩
      by_cases hc : c = b
      · subst hc
        have : seat' ≠ seat := by
          rintro rfl
          rw [hseat] at hseat'
          exact hvu (Option.some.inj hseat').symm
        simpa [Layout.vacate, Layout.modify, Layout.setSeat, this] using hseat'
      · simpa [Layout.vacate, Layout.modify, Layout.setSeat, hc] using hseat'
  count := by
    intro c
    by_cases hc : c = b
    · subst hc
      have hcount := hl.count c
      have hupdate := occupied_update (l.seats c) seat none
      have hle := occupied_le (l.seats c)
      simp only [hseat, Option.isSome_none, Bool.toNat_false,
        Option.isSome_some, Bool.toNat_true] at hupdate
      have hpos : (1 : UInt32) ≤ l.num c := by
        rw [UInt32.le_iff_toNat_le, hcount]
        simp only [UInt32.reduceToNat]
        omega
      simp only [Layout.vacate, Layout.modify, Layout.setSeat,
        Function.update_self, UInt32.toNat_sub_of_le _ _ hpos,
        UInt32.reduceToNat]
      omega
    · simpa [Layout.vacate, Layout.modify, Layout.setSeat, hc] using hl.count c

/-- Fewer places, the same chairs: deleting a session that sits nowhere. -/
theorem Seating.delete {l : Layout} (hl : l.Seating) {u : SessionId}
    (hu : ∀ b seat, l.seats b seat ≠ some u) (pool : List SessionId) :
    Seating { l with place := Function.update l.place u none, pool } where
  seated := by
    intro b seat v hv
    have hvu : v ≠ u := fun he => hu b seat (he ▸ hv)
    obtain ⟨p, hp, hrest⟩ := hl.seated hv
    exact ⟨p, by simpa [hvu] using hp, hrest⟩
  onBoard := by
    intro v p b hp hboard
    have hvu : v ≠ u := by
      rintro rfl
      simp at hp
    exact hl.onBoard (by simpa [hvu] using hp) hboard
  count := hl.count

/-- A new session sits nowhere. -/
theorem Seating.newSession {l : Layout} (hl : l.Seating)
    (hfresh : l.place l.nextUser = none) : l.newSession.Seating where
  seated := by
    intro b seat v hv
    obtain ⟨p, hp, hrest⟩ := hl.seated hv
    have hvu : v ≠ l.nextUser := by
      rintro rfl
      rw [hfresh] at hp
      cases hp
    exact ⟨p, by simpa [Layout.newSession, hvu] using hp, hrest⟩
  onBoard := by
    intro v p b hp hboard
    by_cases hvu : v = l.nextUser
    · subst hvu
      simp only [Layout.newSession, Function.update_self,
        Option.some.injEq] at hp
      subst hp
      cases hboard
    · exact hl.onBoard (by simpa [Layout.newSession, hvu] using hp) hboard
  count := hl.count

/-- A session on a board is registered under its descriptor. -/
theorem Registry.onBoard {l : Layout} (hl : l.Registry none) {u : SessionId}
    {p : Place} {b : BoardPtr} (hp : l.place u = some p)
    (hboard : p.currChessBoard = some b) : l.registry p.clifd = some u := by
  refine hl.registered_of_online hp fun hidle => ?_
  rw [hidle.currChessBoard] at hboard
  cases hboard

/-! ## Settled sessions -/

/-- A change of `busy` alone leaves the others settled. -/
theorem Settled.modify_busy {l : Layout} {u : SessionId} {f : Place → Place}
    (hl : l.Settled (some u)) : (l.modify u f).Settled (some u) := by
  intro v p hp hne
  have hvu : v ≠ u := fun he => hne (congrArg some he)
  exact hl v p ((modify_other hvu).symm.trans hp) hne

/-- A session that settles ends the exemption. -/
theorem Settled.settle {l : Layout} {u : SessionId} (hl : l.Settled (some u))
    (hu : ∀ p, l.place u = some p → p.Settled) : l.Settled none := by
  intro v p hp _
  by_cases hvu : v = u
  · exact hu p (hvu ▸ hp)
  · exact hl v p hp (by simpa using hvu)

theorem Settled.mono {l : Layout} {busy : Option SessionId}
    (hl : l.Settled none) : l.Settled busy :=
  fun u p hp _ => hl u p hp (by simp)

theorem Settled.setSeat {l : Layout} {busy : Option SessionId}
    (hl : l.Settled busy) (b : BoardPtr) (seat : Seat)
    (user : Option SessionId) (num : UInt32) :
    (l.setSeat b seat user num).Settled busy := hl

end Layout

end ChessServer
