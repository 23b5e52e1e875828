import Mathlib.Data.List.Nodup
import ChessServer.Model.Client
import ChessServer.Proofs.Step
import ChessServer.Server.Shutdown

/-!
# Who owns a session

A session that has not been deleted waits in the pool or is registered under
its descriptor.  Every event moves at most one session from one place to the
other, and the trimming takes sessions from the far end of the pool
(`session_registry`).
-/

namespace ChessServer

/-! ## Moving one session -/

namespace Layout

/-- Trimming keeps the head of the pool and leaves it short. -/
theorem trimmedPool_cons {u : SessionId} {pool : List SessionId}
    (h : pool.length < 2 * connectionMaxStep) :
    (trimmedPool (u :: pool)).head? = some u ∧
      (trimmedPool (u :: pool)).length < 2 * connectionMaxStep := by
  have hstep : connectionMaxStep = 10 := rfl
  unfold trimmedPool
  split
  · rename_i hlong
    rw [List.length_cons] at hlong
    have hpos : (u :: pool).length - connectionMaxStep =
        (pool.length - connectionMaxStep) + 1 := by
      rw [List.length_cons]
      omega
    constructor
    · rw [hpos]
      rfl
    · rw [List.length_take, hpos, List.length_cons]
      omega
  · rename_i hshort
    exact ⟨rfl, by omega⟩

/-- A session that is moved survives, and the pool stays short. -/
theorem Transfer.short {l l' : Layout} (h : l.Transfer l')
    (hshort : l.pool.length < 2 * connectionMaxStep) :
    l'.pool.length < 2 * connectionMaxStep := by
  have hstep : connectionMaxStep = 10 := rfl
  cases h with
  | stay _ hpool =>
      rw [hpool]
      exact hshort
  | recycle _ _ hpool =>
      rw [hpool]
      exact (trimmedPool_cons hshort).2
  | serve _ _ hpool hfilled =>
      rw [hpool]
      rcases hfilled with hcons | ⟨_, hlength⟩
      · rw [hcons, List.length_cons] at hshort
        omega
      · omega

/-- Who leaves the registry is at the front of the pool. -/
theorem Transfer.recycled {l l' : Layout} (h : l.Transfer l')
    (hshort : l.pool.length < 2 * connectionMaxStep) {u : SessionId}
    {fd : Int} (hreg : l.registry fd = some u)
    (hreg' : l'.registry fd ≠ some u) : l'.pool.head? = some u := by
  cases h with
  | stay hregistry _ =>
      rw [hregistry] at hreg'
      exact absurd hreg hreg'
  | @recycle v k hv hregistry hpool =>
      rw [hregistry] at hreg'
      by_cases hk : fd = k
      · subst hk
        rw [hreg] at hv
        cases hv
        rw [hpool]
        exact (trimmedPool_cons hshort).1
      · rw [Function.update_of_ne hk] at hreg'
        exact absurd hreg hreg'
  | @serve v k rest hfree hregistry _ _ =>
      rw [hregistry] at hreg'
      by_cases hk : fd = k
      · subst hk
        rw [hreg] at hfree
        cases hfree
      · rw [Function.update_of_ne hk] at hreg'
        exact absurd hreg hreg'

/-- Only sessions of the pool are deleted. -/
theorem Transfer.deleted {l l' : Layout} (h : l.Transfer l')
    (hl : l.Registry none) (hl' : l'.Registry none)
    (hshort : l.pool.length < 2 * connectionMaxStep) {u : SessionId}
    (hu : l.place u ≠ none) (hu' : l'.place u = none) : u ∈ l.pool := by
  obtain ⟨p, hp⟩ := Option.ne_none_iff_exists'.mp hu
  rcases hl.placed hp (by simp) with hpool | hreg
  · exact hpool
  · -- a registered session is registered or pooled afterwards
    by_cases hreg' : l'.registry p.clifd = some u
    · obtain ⟨q, hq, _⟩ := hl'.registered hreg'
      rw [hu'] at hq
      cases hq
    · have hhead := h.recycled hshort hreg hreg'
      obtain ⟨q, hq, _⟩ := hl'.pooled (List.mem_of_head? hhead)
      rw [hu'] at hq
      cases hq

end Layout

/-! ## The sweep -/

/-- No pooled session is on a board. -/
def World.PoolStands (w : World) : Prop :=
  ∀ v ∈ w.sessionList, ∀ s, w.users v = some s → s.currChessBoard = none

/-- The trimming does not look at the map. -/
theorem destrorySessionsFromPool_map {env : Env}
    (map : Std.TreeMap Int SessionId) :
    ∀ (num : Nat) {w w' : World}, w.PoolStands →
      destrorySessionsFromPool env num w = some w' →
      destrorySessionsFromPool env num { w with fdSessionMap := map } =
        some { w' with fdSessionMap := map } := by
  intro num
  induction num with
  | zero =>
      intro w w' _ h
      cases h
      rfl
  | succ num ih =>
      intro w w' hstands h
      unfold destrorySessionsFromPool at h ⊢
      dsimp only
      cases hlast : w.sessionList.getLast? with
      | none =>
          rw [hlast] at h
          cases h
          rfl
      | some v =>
          rw [hlast] at h
          simp only [Option.bind_eq_bind, Option.bind_eq_some_iff] at h
          obtain ⟨w₁, hdestruct, h⟩ := h
          have hmem := List.mem_of_getLast? hlast
          cases hs : w.users v with
          | none =>
              simp [destructResource, leaveCurrChessBoard, hs] at hdestruct
          | some s =>
              have hboard := hstands v hmem s hs
              rw [destructResource_standing _ hs hboard] at hdestruct
              cases hdestruct
              have hstanding := destructResource_standing env
                (w := { w with fdSessionMap := map }) hs hboard
              simp only [Option.bind_eq_bind, hstanding, Option.bind_some]
              refine ih (fun v' hv' s' hs' => ?_) h
              by_cases hne : v' = v
              · subst hne
                simp [World.deleteSession] at hs'
              · have hs'' : w.users v' = some s' := by
                  simpa [World.deleteSession, World.setUser, hne] using hs'
                exact hstands v' (List.dropLast_subset _ hv') s' hs''

/-- A settled session without a state object has none to follow either. -/
theorem Layout.Inv.next_none {w : World} (hinv : w.layout.Inv)
    {u : SessionId} {s : UserSession} (hs : w.users u = some s)
    (hnone : s.stateMachine = none) : s.nextState = none := by
  have hsettled := hinv.settled u s.place (by simp [World.layout, hs])
    (by simp)
  have hnone' : s.place.stateMachine = none := hnone
  rw [Place.Settled, hnone'] at hsettled
  split at hsettled
  · cases hsettled.1
  · rcases hsettled with ⟨hnext, _⟩ | ⟨habsurd, _⟩
    · exact hnext
    · cases habsurd

/-- What the trimming leaves of a pool that stands does not depend on the
map, and the map stays. -/
theorem recycle_map {env : Env} {w w' : World} (hstands : w.PoolStands)
    (map : Std.TreeMap Int SessionId)
    (h : (if w.sessionList.length ≥ 2 * connectionMaxStep then
        destrorySessionsFromPool env connectionMaxStep w
      else some w) = some w') :
    w'.fdSessionMap = w.fdSessionMap ∧
    (if w.sessionList.length ≥ 2 * connectionMaxStep then
        destrorySessionsFromPool env connectionMaxStep
          { w with fdSessionMap := map }
      else some { w with fdSessionMap := map }) =
      some { w' with fdSessionMap := map } := by
  by_cases hlong : w.sessionList.length ≥ 2 * connectionMaxStep
  · rw [if_pos hlong] at h ⊢
    have hsame : w' = { w' with fdSessionMap := w.fdSessionMap } :=
      Option.some.inj (h.symm.trans
        (destrorySessionsFromPool_map w.fdSessionMap _ hstands h))
    exact ⟨by rw [hsame],
      destrorySessionsFromPool_map map _ hstands h⟩
  · rw [if_neg hlong] at h ⊢
    cases h
    exact ⟨rfl, rfl⟩

/-- Erasing the entry after the session was recycled is as good as before. -/
theorem recycleSession_erase {env : Env} {u : SessionId} {fd : Int}
    {w w' : World} (hinv : w.layout.Inv)
    (hreg : w.layout.registry fd = some u)
    (h : recycleSession env u w = some w') :
    ({ w' with fdSessionMap := w'.fdSessionMap.erase fd } :
      World).layout.Inv ∧
    w.layout.Transfer ({ w' with fdSessionMap := w'.fdSessionMap.erase fd } :
      World).layout := by
  obtain ⟨s, hs, _⟩ := registered_session hinv.registry hreg
  obtain ⟨_, hclosed⟩ := registered_open hinv.registry hreg hs
  simp only [recycleSession, Option.bind_eq_bind,
    Option.bind_eq_some_iff] at h
  obtain ⟨w₁, hdestruct, h⟩ := h
  have c := destructResource_closes hinv.seating hs (hinv.next_none hs)
    hclosed hdestruct
  have hlayout : ({ w₁ with fdSessionMap := w₁.fdSessionMap.erase fd } :
      World).layout = ((w.layout.unregister fd).vacateAt
        (w.chair u)).modify u Place.reset := by
    rw [layout_erase, c.layout]
    cases w.chair u <;> rfl
  -- with the entry erased at once the world would be in order here
  have hinv₂ := recycled_inv hinv.registry hinv.seating hinv.settled.mono
    hreg hs hlayout
  have hstands : ({ w₁ with sessionList := u :: w₁.sessionList } :
      World).PoolStands := by
    intro v hv s' hs'
    obtain ⟨q, hq, hidle⟩ := hinv₂.registry.pooled (u := v) hv
    have hq' : some s'.place = some q := by
      rw [← hq]
      show some s'.place = (w₁.users v).map UserSession.place
      rw [show w₁.users v = some s' from hs']
      rfl
    cases hq'
    exact hidle.currChessBoard
  obtain ⟨hkept, hmap⟩ := recycle_map hstands (w₁.fdSessionMap.erase fd) h
  obtain ⟨t, hlist⟩ := recycle_trims hinv₂ hmap
  have hkept' : w'.fdSessionMap = w₁.fdSessionMap := hkept
  rw [hkept']
  refine ⟨t.inv, .recycle hreg ?_ ?_⟩
  · show (fun k => (w₁.fdSessionMap.erase fd)[k]?) = _
    have hregistry := congrArg Layout.registry hlayout
    rw [Layout.modify, Layout.vacateAt_registry] at hregistry
    exact hregistry
  · have hpool := congrArg Layout.pool c.layout
    rw [Layout.modify, Layout.vacateAt_pool] at hpool
    have hpool' : w₁.sessionList = w.sessionList := hpool
    have hlist' : w'.sessionList =
        Layout.trimmedPool (u :: w₁.sessionList) := hlist
    show w'.sessionList = Layout.trimmedPool (u :: w.sessionList)
    rw [hlist', hpool']

theorem destrotiedSession_spec {env : Env} {w w' : World}
    (hinv : w.layout.Inv) (h : destrotiedSession env w = some w') :
    w'.layout.Inv ∧ w.layout.Transfer w'.layout := by
  unfold destrotiedSession at h
  cases hlist : w.fdSessionMap.toList with
  | nil =>
      rw [hlist] at h
      cases h
      exact ⟨hinv, .stay rfl rfl⟩
  | cons entry rest =>
      rw [hlist] at h
      simp only [Option.bind_eq_bind, Option.bind_eq_some_iff] at h
      obtain ⟨w₁, hrecycle, h⟩ := h
      cases h
      have hmem : entry ∈ w.fdSessionMap.toList := by
        rw [hlist]
        exact List.mem_cons_self
      exact recycleSession_erase hinv
        (Std.TreeMap.mem_toList_iff_getElem?_eq_some.mp hmem) hrecycle

/-! ## The end of the process -/

/-- Deleting sessions that are on no board touches nothing else. -/
theorem deleteAll_spec {env : Env} :
    ∀ (pool : List SessionId) {w w' : World},
      (∀ v ∈ pool, ∀ s, w.users v = some s → s.currChessBoard = none) →
      pool.foldlM (fun w session => do
        let w ← destructResource env session w
        some (w.deleteSession session)) w = some w' →
      w'.boards = w.boards ∧ w'.fdSessionMap = w.fdSessionMap ∧
        w'.nextUser = w.nextUser ∧
        (∀ v, v ∉ pool → w'.users v = w.users v) ∧
        ∀ v ∈ pool, w'.users v = none := by
  intro pool
  induction pool with
  | nil =>
      intro w w' _ h
      cases h
      exact ⟨rfl, rfl, rfl, fun _ _ => rfl, fun _ hv => by cases hv⟩
  | cons u pool ih =>
      intro w w' hstands h
      simp only [List.foldlM_cons, Option.bind_eq_bind,
        Option.bind_eq_some_iff] at h
      obtain ⟨w₁, ⟨w₂, hdestruct, hdelete⟩, h⟩ := h
      cases hs : w.users u with
      | none =>
          simp [destructResource, leaveCurrChessBoard, hs] at hdestruct
      | some s =>
          rw [destructResource_standing _ hs
            (hstands u List.mem_cons_self s hs)] at hdestruct
          cases hdestruct
          cases hdelete
          have hself : ((w.setUser u s.destruct).deleteSession u).users u =
              none := by simp [World.deleteSession]
          have hother : ∀ v, v ≠ u →
              ((w.setUser u s.destruct).deleteSession u).users v =
                w.users v := by
            intro v hv
            simp [World.deleteSession, World.setUser, hv]
          obtain ⟨hboards, hmap, hnext, hkept, hgone⟩ :=
            ih (fun v hv s' hs' => by
              by_cases hvu : v = u
              · subst hvu
                rw [hself] at hs'
                cases hs'
              · rw [hother v hvu] at hs'
                exact hstands v (List.mem_cons_of_mem _ hv) s' hs') h
          refine ⟨hboards, hmap, hnext, fun v hv => ?_, fun v hv => ?_⟩
          · rw [List.mem_cons, not_or] at hv
            rw [hkept v hv.2, hother v hv.1]
          · by_cases hmem : v ∈ pool
            · exact hgone v hmem
            · have hvu : v = u := by simpa [hmem] using hv
              subst hvu
              rw [hkept v hmem, hself]

/-- When the map is empty every session is in the pool, and nobody is on a
board. -/
theorem Layout.Inv.all_pooled {l : Layout} (hinv : l.Inv)
    (hempty : ∀ fd, l.registry fd = none) :
    (∀ {u p}, l.place u = some p → u ∈ l.pool ∧ p.Idle) ∧
      ∀ b seat, l.seats b seat = none := by
  have hplaced : ∀ {u p}, l.place u = some p → u ∈ l.pool ∧ p.Idle := by
    intro u p hp
    rcases hinv.registry.placed hp (by simp) with hpool | hreg
    · obtain ⟨q, hq, hidle⟩ := hinv.registry.pooled hpool
      rw [hp] at hq
      cases hq
      exact ⟨hpool, hidle⟩
    · rw [hempty] at hreg
      cases hreg
  refine ⟨hplaced, fun b seat => ?_⟩
  cases hseat : l.seats b seat with
  | none => rfl
  | some u =>
      obtain ⟨p, hp, hboard, _⟩ := hinv.seating.seated hseat
      rw [(hplaced hp).2.currChessBoard] at hboard
      cases hboard

theorem Layout.inv_of_nobody {l : Layout} (hplace : ∀ u, l.place u = none)
    (hregistry : ∀ fd, l.registry fd = none)
    (hseats : ∀ b seat, l.seats b seat = none) (hpool : l.pool = [])
    (hcount : ∀ b, (l.num b).toNat = occupied (l.seats b)) : l.Inv where
  registry :=
    { registered := fun h => by
        rw [hregistry] at h
        cases h
      pooled := fun h => by
        rw [hpool] at h
        cases h
      nodup := hpool ▸ List.nodup_nil
      placed := fun h => by
        rw [hplace] at h
        cases h
      fresh := fun _ => hplace _ }
  seating :=
    { seated := fun h => by
        rw [hseats] at h
        cases h
      onBoard := fun h => by
        rw [hplace] at h
        cases h
      count := hcount }
  settled := fun _ _ h => by
    rw [hplace] at h
    cases h

/-- The destructor of the main thread leaves no session. -/
theorem destroryAllSessions_spec {env : Env} {w w' : World}
    (hinv : w.layout.Inv) (hempty : ∀ fd, w.layout.registry fd = none)
    (h : destroryAllSessions env w = some w') :
    w'.layout.Inv ∧ (∀ fd, w'.layout.registry fd = none) ∧
      w'.sessionList = [] ∧ ∀ u, w'.users u = none := by
  obtain ⟨hplaced, hseats⟩ := hinv.all_pooled hempty
  simp only [destroryAllSessions, Option.bind_eq_bind,
    Option.bind_eq_some_iff] at h
  obtain ⟨w₁, hfold, h⟩ := h
  cases h
  have hstands : w.PoolStands := fun v hv s hs =>
    (hplaced (u := v) (p := s.place) (by simp [World.layout, hs])).2.currChessBoard
  obtain ⟨hboards, hmap, hnext, hkept, hgone⟩ :=
    deleteAll_spec w.sessionList hstands hfold
  have hnone : ∀ u, w₁.users u = none := by
    intro u
    by_cases hmem : u ∈ w.sessionList
    · exact hgone u hmem
    · rw [hkept u hmem]
      cases hs : w.users u with
      | none => rfl
      | some s =>
          exact absurd (hplaced (u := u) (p := s.place)
            (by simp [World.layout, hs])).1 hmem
  have hregistry : ∀ fd, w₁.layout.registry fd = none := by
    intro fd
    rw [← hempty fd]
    simp only [World.layout, hmap]
  have hplace : ∀ u, w₁.layout.place u = none := by
    intro u
    simp only [World.layout, hnone, Option.map_none]
  have hseats' : w₁.layout.seats = w.layout.seats := by
    simp only [World.layout, hboards]
  refine ⟨Layout.inv_of_nobody hplace hregistry (fun b seat => ?_) rfl
    (fun b => ?_), hregistry, rfl, hnone⟩
  · show w₁.layout.seats b seat = none
    rw [hseats', hseats]
  · have hcount := hinv.seating.count b
    show (w₁.layout.num b).toNat = occupied (w₁.layout.seats b)
    rw [hseats', ← hcount]
    simp only [World.layout, hboards]

/-! ## Every run of the process -/

/-- What holds between two steps of the process. -/
structure Process.Inv (p : Process) : Prop where
  layout : p.world.layout.Inv
  short : p.world.sessionList.length < 2 * connectionMaxStep
  joined : p.phase = .joined → ∀ fd, p.world.layout.registry fd = none

/-- No session outside the pool is deleted, and one that leaves the map is
at the front of the pool. -/
structure Recycles (w w' : World) : Prop where
  deleted : ∀ u, w.users u ≠ none → w'.users u = none → u ∈ w.sessionList
  front : ∀ (fd : Int) (u : SessionId), w.fdSessionMap[fd]? = some u →
    w'.fdSessionMap[fd]? ≠ some u → w'.sessionList.head? = some u

theorem Layout.Transfer.recycles {w w' : World}
    (t : w.layout.Transfer w'.layout) (hinv : w.layout.Inv)
    (hinv' : w'.layout.Inv)
    (hshort : w.sessionList.length < 2 * connectionMaxStep) :
    Recycles w w' where
  deleted := fun u hu hu' => by
    refine t.deleted hinv.registry hinv'.registry hshort ?_ ?_
    · simpa [World.layout] using hu
    · simpa [World.layout] using hu'
  front := fun _ _ hreg hreg' => t.recycled hshort hreg hreg'

/-- A step of the process keeps the invariant. -/
theorem Process.step_spec {env : Env} {l : Life} {p p' : Process}
    (hinv : p.Inv) (henabled : l.Enabled p) (h : p.step env l = some p') :
    p'.Inv ∧ Recycles p.world p'.world := by
  -- what follows for a step that moves at most one session
  have hmove : ∀ {w' : World} {phase : Phase}, phase ≠ .joined →
      w'.layout.Inv → p.world.layout.Transfer w'.layout →
      p' = ⟨w', phase⟩ → p'.Inv ∧ Recycles p.world p'.world := by
    intro w' phase hphase hinv' t hp'
    subst hp'
    exact ⟨⟨hinv', t.short hinv.short, fun hj => absurd hj hphase⟩,
      t.recycles hinv.layout hinv' hinv.short⟩
  cases l with
  | serve e =>
      obtain ⟨w', hstep, hp'⟩ := Option.map_eq_some_iff.mp h
      have st := ChessServer.step_spec hinv.layout henabled.2 hstep
      exact hmove (by decide) st.inv st.transfer hp'.symm
  | quit =>
      exact hmove (by decide) hinv.layout (.stay rfl rfl)
        (Option.some.inj h).symm
  | sweep =>
      obtain ⟨w', hsweep, hp'⟩ := Option.map_eq_some_iff.mp h
      obtain ⟨hinv', t⟩ := destrotiedSession_spec hinv.layout hsweep
      exact hmove (by decide) hinv' t hp'.symm
  | join =>
      have hempty : ∀ fd : Int, p.world.fdSessionMap[fd]? = none := by
        intro fd
        cases hreg : p.world.fdSessionMap[fd]? with
        | none => rfl
        | some u =>
            have hmem := Std.TreeMap.mem_toList_iff_getElem?_eq_some.mpr hreg
            rw [henabled.2] at hmem
            cases hmem
      have hlayout : ({ p.world with fdSessionMap := {} } : World).layout =
          p.world.layout := by
        have hmap : (fun fd : Int => (∅ : Std.TreeMap Int SessionId)[fd]?) =
            fun fd => p.world.fdSessionMap[fd]? := by
          funext fd
          rw [hempty fd]
          exact Std.TreeMap.getElem?_emptyc
        exact congrArg (fun registry =>
          ({ p.world.layout with registry := registry } : Layout)) hmap
      cases h
      refine ⟨⟨by rw [hlayout]; exact hinv.layout, hinv.short,
        fun _ => by rw [hlayout]; exact hempty⟩, fun u hu hu' => ?_,
        fun fd u hreg _ => ?_⟩
      · exact absurd hu' hu
      · rw [hempty fd] at hreg
        cases hreg
  | exit =>
      obtain ⟨w', hexit, hp'⟩ := Option.map_eq_some_iff.mp h
      have hempty := hinv.joined henabled
      obtain ⟨hinv', _, hpool, _⟩ :=
        destroryAllSessions_spec hinv.layout hempty hexit
      subst hp'
      refine ⟨⟨hinv', by rw [hpool]; decide, fun hj => by cases hj⟩,
        fun u hu _ => ?_, fun fd u hreg _ => ?_⟩
      · obtain ⟨s, hs⟩ := Option.ne_none_iff_exists'.mp hu
        exact ((hinv.layout.all_pooled hempty).1 (u := u) (p := s.place)
          (by simp [World.layout, hs])).1
      · have hreg' : p.world.layout.registry fd = some u := hreg
        rw [hempty fd] at hreg'
        cases hreg'

theorem process_inv {env : Env} {p : Process}
    (h : (process env).Reachable p) : p.Inv := by
  refine h.invariant (I := Process.Inv) ?_ ?_
  · exact ⟨init_inv, Nat.zero_lt_succ _, fun hj => by cases hj⟩
  · intro l p p' hinv henabled _ hstep
    exact (Process.step_spec hinv henabled hstep).1

/-- In every state of the process, from the start to the final sweep and
after it: a session that has not been deleted is either in the pool, exactly
once, without a descriptor and under no key, or in the map, under its own
descriptor and no other key, and not in the pool; the list and the map hold
no deleted session; the pool holds fewer than `2 * connectionMaxStep`
sessions; taking a session finds one; and the next step deletes sessions of
the pool only, none of which has just left the map. -/
theorem session_registry {env : Env} {p : Process}
    (h : (process env).Reachable p) :
    (∀ u s, p.world.users u = some s →
      (p.world.sessionList.count u = 1 ∧ s.clifd = -1 ∧
        ∀ fd : Int, p.world.fdSessionMap[fd]? ≠ some u) ∨
      (u ∉ p.world.sessionList ∧
        ∀ fd : Int, p.world.fdSessionMap[fd]? = some u ↔ fd = s.clifd)) ∧
    (∀ u, u ∈ p.world.sessionList ∨
      (∃ fd : Int, p.world.fdSessionMap[fd]? = some u) →
      p.world.users u ≠ none) ∧
    p.world.sessionList.length < 2 * connectionMaxStep ∧
    (getOneSessionFromPool p.world).isSome ∧
    ∀ l p', l.Enabled p → p.step env l = some p' →
      (∀ u, p.world.users u ≠ none → p'.world.users u = none →
        u ∈ p.world.sessionList) ∧
      ∀ (fd : Int) u, p.world.fdSessionMap[fd]? = some u →
        p'.world.fdSessionMap[fd]? ≠ some u →
        p'.world.sessionList.head? = some u ∧ p'.world.users u ≠ none := by
  have hinv := process_inv h
  have hregistry := hinv.layout.registry
  have hexists : ∀ {w : World}, w.layout.Inv → ∀ u, u ∈ w.sessionList →
      w.users u ≠ none := by
    intro w hw u hmem hnone
    obtain ⟨q, hq, _⟩ := hw.registry.pooled (u := u) hmem
    simp [World.layout, hnone] at hq
  refine ⟨fun u s hs => ?_, fun u hu => ?_, hinv.short, ?_,
    fun l p' henabled hstep => ?_⟩
  · have hp : p.world.layout.place u = some s.place := by
      simp [World.layout, hs]
    rcases hregistry.placed hp (by simp) with hpool | hreg
    · obtain ⟨q, hq, hidle⟩ := hregistry.pooled hpool
      rw [hp] at hq
      cases hq
      refine Or.inl ⟨List.count_eq_one_of_mem hregistry.nodup hpool,
        hidle.clifd, fun fd hreg => ?_⟩
      exact hregistry.not_mem_pool hreg hpool
    · refine Or.inr ⟨hregistry.not_mem_pool hreg, fun fd => ⟨fun hfd => ?_,
        fun hfd => hfd ▸ hreg⟩⟩
      have hfd' : p.world.layout.registry fd = some u := hfd
      obtain ⟨q, hq, hclifd, _⟩ := hregistry.registered hfd'
      rw [hp] at hq
      cases hq
      exact hclifd.symm
  · rcases hu with hmem | ⟨fd, hreg⟩
    · exact hexists hinv.layout u hmem
    · intro hnone
      have hreg' : p.world.layout.registry fd = some u := hreg
      obtain ⟨q, hq, _⟩ := hregistry.registered hreg'
      simp [World.layout, hnone] at hq
  · have hfilled : p.world.filled.sessionList ≠ [] := by
      unfold World.filled
      by_cases hempty : p.world.sessionList = []
      · rw [if_pos hempty]
        intro hnil
        have hlength := creatSessionsPool_length p.world connectionMaxStep
        rw [hnil, hempty] at hlength
        cases hlength
      · rw [if_neg hempty]
        exact hempty
    unfold getOneSessionFromPool
    dsimp only
    cases hpool : p.world.filled.sessionList with
    | nil => exact absurd hpool hfilled
    | cons u rest =>
        have hpool' : (if p.world.sessionList = [] then
            creatSessionsPool connectionMaxStep p.world
          else p.world).sessionList = u :: rest := hpool
        rw [hpool']
        rfl
  · obtain ⟨hinv', hrecycles⟩ := Process.step_spec hinv henabled hstep
    refine ⟨hrecycles.deleted, fun fd u hreg hreg' => ?_⟩
    have hfront := hrecycles.front fd u hreg hreg'
    exact ⟨hfront, hexists hinv'.layout u (List.mem_of_head? hfront)⟩

instance (env : Env) (l : Life) (p : Process) :
    Decidable ((process env).enabled l p) :=
  inferInstanceAs (Decidable (l.Enabled p))

/-- Two connections; the first is closed, its session is used again for a
third one, and then both are swept. -/
theorem session_registry_swept :
    ∃ p q : Process, (process Client.env).Reachable p ∧
      (∀ fd : Int, p.world.fdSessionMap[fd]? = some 0 ↔ fd = 12) ∧
      0 ∉ p.world.sessionList ∧
      (process Client.env).Reachable q ∧ q.phase = .joined ∧
      q.world.sessionList.length = 10 ∧
      (getOneSessionFromPool q.world).isSome := by
  have hrun : ((process Client.env).run (fun _ _ => True)
      [ .serve (.accept 10), .serve (.accept 11)
      , .serve (.event 0 ⟨true, false, false, false, false⟩)
      , .serve (.accept 12), .serve (.read 1 (Client.login "a")) ]
      ⟨World.init, .running⟩).any (fun p =>
        ((p.world.users 0).any fun s : UserSession => s.clifd == 12) &&
        ((process Client.env).run (fun _ _ => True)
          [.quit, .sweep, .sweep, .join] p).any fun q =>
          q.phase == .joined && q.world.sessionList.length == 10) = true := by
    decide +kernel
  obtain ⟨p, hp, htest⟩ := (Option.any_eq_true _ _).mp hrun
  rw [Bool.and_eq_true] at htest
  obtain ⟨hreused, hswept⟩ := htest
  obtain ⟨s, hs, hclifd⟩ := (Option.any_eq_true _ _).mp hreused
  obtain ⟨q, hq, hend⟩ := (Option.any_eq_true _ _).mp hswept
  simp only [Bool.and_eq_true, beq_iff_eq] at hclifd hend
  have hreach : (process Client.env).Reachable p :=
    Machine.reachableWith_of_run .start hp
  have hreach' : (process Client.env).Reachable q :=
    Machine.reachableWith_of_run hreach hq
  rcases (session_registry hreach).1 0 s hs with ⟨_, hidle, _⟩ | ⟨hout, hkey⟩
  · rw [hclifd] at hidle
    cases hidle
  · rw [hclifd] at hkey
    exact ⟨p, q, hreach, hkey, hout, hreach', hend.1, hend.2,
      (session_registry hreach').2.2.2.1⟩

end ChessServer
