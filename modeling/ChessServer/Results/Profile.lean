import ChessServer.Model.Client
import ChessServer.Model.Profile
import ChessServer.Proofs.Join

/-!
# Profiles in memory and in the database

`UpdateUserInfos` assigns a value to the session first and then sends it to
the database, whose answer nobody looks at.  An update that fails, or whose
statement carries another value, leaves the session with a value that its row
does not have; and because the next message is compared with the session, the
value is not written when it is sent again (`profile_agrees_iff`).
-/

namespace ChessServer

open WriteThrough Wire

/-! ## A message -/

/-- The updates that a message of session `u` makes. -/
def World.updates (env : Env) (u : SessionId) (msg : Bytes) (w : World) :
    List Update :=
  match w.users u, env.proto.updateUserInfo msg with
  | some s, some m =>
      m.updates env s.userInfo.account s.userInfo.profile Column.all w.sqlLog
  | _, _ => []

theorem World.nodup_updates (env : Env) (u : SessionId) (msg : Bytes)
    (w : World) : ((w.updates env u msg).map Update.column).Nodup := by
  unfold World.updates
  split
  · exact Column.nodup_all.sublist (UpdateUserInfo.keys_updates _ _)
  · exact List.nodup_nil

theorem World.mem_updates {env : Env} {u : SessionId} {msg value : Bytes}
    {c : Column} {s : UserSession} {m : UpdateUserInfo} {w : World}
    (hs : w.users u = some s) (hm : env.proto.updateUserInfo msg = some m) :
    (∃ ok, ⟨c, value, ok⟩ ∈ w.updates env u msg) ↔
      m.field s.userInfo.profile c = some value := by
  have hall : w.updates env u msg = m.updates env s.userInfo.account
      s.userInfo.profile Column.all w.sqlLog := by
    simp only [World.updates, hs, hm]
  rw [hall, UpdateUserInfo.mem_updates]
  constructor
  · exact And.right
  · intro hvalue
    exact ⟨c.mem_all, hvalue⟩

/-- The fields of a message, one after the other. -/
theorem updateFields_updates (env : Env) {u : SessionId} {account : Bytes}
    (m : UpdateUserInfo) (old row : Profile) (cs : List Column)
    {s : UserSession} {w : World} (hs : w.users u = some s)
    (hthread : s.thread.isSome) (haccount : s.userInfo.account = account) :
    ∃ w' s', cs.foldlM (fun w c =>
        updateField u (m.field old c) c.set (c.toDB env) w) w = some w' ∧
      w'.users u = some s' ∧ s'.thread = s.thread ∧
      s'.userInfo.account = account ∧
      s'.userInfo.profile = (Copies.writeAll ⟨s.userInfo.profile, row⟩
        ((m.updates env account old cs w.sqlLog).map
          (Update.write env account))).memory := by
  induction cs generalizing s w row with
  | nil => exact ⟨w, s, rfl, hs, rfl, haccount, rfl⟩
  | cons c cs ih =>
      rw [List.foldlM_cons, UpdateUserInfo.updates]
      cases m.field old c with
      | none => exact ih row hs hthread haccount
      | some value =>
          obtain ⟨t, ht⟩ := Option.isSome_iff_exists.mp hthread
          let s₁ := { s with userInfo := c.set value s.userInfo }
          let w₁ := ((w.setUser u s₁).mysqlDbExcute env
            (c.sql env account value)).2
          have hfield : updateField u (some value) c.set (c.toDB env) w =
              some w₁ := by
            simp only [updateField, hs, Option.bind_eq_bind,
              Option.bind_some, Column.toDB_eq, haccount,
              Option.bind_eq_some_iff]
            exact ⟨t, ht, rfl⟩
          have hs₁ : w₁.users u = some s₁ := setUser_users_self _ _ _
          have hlog : w₁.sqlLog = c.sql env account value :: w.sqlLog := rfl
          obtain ⟨w', s', hrun, hs', hthread', haccount', hprofile⟩ :=
            ih row hs₁ hthread ((c.account_set value _).trans haccount)
          refine ⟨w', s', ?_, hs', hthread', haccount', ?_⟩
          · rw [hfield]
            exact hrun
          · rw [hprofile, hlog]
            exact Copies.memory_writeAll _ (c.profile_set value _)

/-- A message leaves the session with every value that it writes. -/
theorem updateUserInfos_updates (env : Env) {u : SessionId} (msg : Bytes)
    (row : Profile) {s : UserSession} {w : World} (hs : w.users u = some s)
    (hthread : s.thread.isSome) :
    ∃ w' s', updateUserInfos env u msg w = some (true, w') ∧
      w'.users u = some s' ∧ s'.thread = s.thread ∧
      s'.userInfo.account = s.userInfo.account ∧
      s'.userInfo.profile = (Copies.writeAll ⟨s.userInfo.profile, row⟩
        ((w.updates env u msg).map
          (Update.write env s.userInfo.account))).memory := by
  cases hm : env.proto.updateUserInfo msg with
  | none =>
      refine ⟨w, s, by simp [updateUserInfos, hm], hs, rfl, rfl, ?_⟩
      simp [World.updates, hs, hm]
  | some m =>
      obtain ⟨w', s', hrun, hs', hthread', haccount, hprofile⟩ :=
        updateFields_updates env m s.userInfo.profile row Column.all
          hs hthread rfl
      refine ⟨w', s', ?_, hs', hthread', haccount, ?_⟩
      · have heq : updateUserInfos env u msg w = (Column.all.foldlM (fun w c =>
            updateField u (m.field s.userInfo.profile c) c.set (c.toDB env) w)
            w).bind fun w' => some (true, w') := by
          simp only [updateUserInfos, hm, hs, Column.all, List.foldlM_cons,
            List.foldlM_nil, Option.bind_eq_bind, Option.bind_some,
            Option.bind_assoc]
          rfl
        rw [heq, hrun]
        rfl
      · rw [hprofile]
        simp only [World.updates, hs, hm]

/-! ## A session and its row -/

/-- What happens to a session and its row. -/
inductive ProfileEvent where
  /-- the session sends an `UpdateUserInfo` -/
  | message (msg : Bytes)
  /-- anything else, after which the world is `w` -/
  | elsewhere (w : World)

/-- Nothing of a session that `UpdateUserInfos` looks at is changed. -/
def World.KeepsProfile (u : SessionId) (w w' : World) : Prop :=
  ∀ s, w.users u = some s → ∃ s', w'.users u = some s' ∧
    s'.thread = s.thread ∧ s'.userInfo.account = s.userInfo.account ∧
    s'.userInfo.profile = s.userInfo.profile

/-- A session that has logged in, with the row of its account; `execute` is
what a statement does to the row. -/
def profileMachine (env : Env) (account : Bytes)
    (execute : Bytes → Profile → Profile) (u : SessionId) (w : World)
    (row : Profile) : Machine (World × Profile) ProfileEvent where
  start := (w, row)
  enabled := fun e a => match e with
    | .message _ => ∃ s, a.1.users u = some s ∧ s.thread.isSome
    | .elsewhere w' => a.1.KeepsProfile u w'
  step := fun e a => match e with
    | .message msg => (updateUserInfos env u msg a.1).map fun r =>
        (r.2, executeAll env account execute a.2 (a.1.updates env u msg))
    | .elsewhere w' => some (w', a.2)

/-- The session's copies are the values of its row. -/
def ProfileAgrees (u : SessionId) (a : World × Profile) : Prop :=
  ∀ s, a.1.users u = some s → s.userInfo.profile = a.2

/-- A value whose update failed is sent to the database again when a message
brings it again. -/
def Retried (env : Env) (u : SessionId) (states : Nat → World × Profile)
    (events : Nat → ProfileEvent) (n : Nat) : Prop :=
  ∀ i j msg msg' m c value, i < j → j < n → events i = .message msg →
    events j = .message msg' →
    ⟨c, value, false⟩ ∈ (states i).1.updates env u msg →
    env.proto.updateUserInfo msg' = some m → m.brings c = some value →
    ∃ ok, ⟨c, value, ok⟩ ∈ (states j).1.updates env u msg'

/-- The updates of a run, each with the row before its message. -/
def EachUpdate (env : Env) (u : SessionId) (states : Nat → World × Profile)
    (events : Nat → ProfileEvent) (n : Nat)
    (P : Update → Profile → Prop) : Prop :=
  ∀ i msg, i < n → events i = .message msg →
    ∀ a ∈ (states i).1.updates env u msg, P a (states i).2

/-- After a message the session agrees with its row if and only if every
update stored its value, or the row had it already. -/
theorem message_agrees_iff {env : Env}
    (hescape : EscapesString env.mysqlRealEscapeString) {u : SessionId}
    {msg : Bytes} {execute : Bytes → Profile → Profile} {row : Profile}
    {s : UserSession} {ret : Bool} {w w' : World}
    (hstores : StoresValues s.userInfo.account execute)
    (hs : w.users u = some s) (hthread : s.thread.isSome)
    (hagree : s.userInfo.profile = row)
    (hreads : ∀ a ∈ w.updates env u msg, a.ok = true →
      a.Reads env s.userInfo.account)
    (h : updateUserInfos env u msg w = some (ret, w')) :
    ProfileAgrees u (w', executeAll env s.userInfo.account execute row
        (w.updates env u msg)) ↔
      ∀ a ∈ w.updates env u msg, a.Lands s.userInfo.account row := by
  obtain ⟨w₁, s₁, hrun, hs₁, _, _, hprofile⟩ :=
    updateUserInfos_updates env msg row hs hthread
  rw [hrun, Option.some.injEq, Prod.mk.injEq] at h
  obtain ⟨_, rfl⟩ := h
  have hbefore : (Copies.mk s.userInfo.profile row).Agree := by
    intro c
    show s.userInfo.profile c = row c
    rw [hagree]
  have hnodup : (((w.updates env u msg).map
      (Update.write env s.userInfo.account)).map Write.key).Nodup := by
    rw [List.map_map]
    exact World.nodup_updates env u msg w
  have hiff := hbefore.writeAll_iff hnodup
  simp only [List.forall_mem_map] at hiff
  have hlands : (∀ a ∈ w.updates env u msg,
      (a.write env s.userInfo.account).Lands row) ↔
      ∀ a ∈ w.updates env u msg, a.Lands s.userInfo.account row :=
    forall₂_congr fun a ha => Update.write_lands hescape (hreads a ha)
  rw [← hlands, ← hiff, executeAll_eq hstores s.userInfo.profile row hreads]
  constructor
  · intro hafter c
    rw [← hprofile, hafter s₁ hs₁]
  · intro hafter s' hs'
    rw [hs₁, Option.some.injEq] at hs'
    rw [← hs', hprofile]
    funext c
    exact hafter c

/-! ## Runs -/

section Runs

variable {env : Env} {account : Bytes} {execute : Bytes → Profile → Profile}
  {u : SessionId} {w : World} {row : Profile}

/-- The session is still there, with its account. -/
def World.Holds (w : World) (u : SessionId) (account : Bytes) : Prop :=
  ∃ s, w.users u = some s ∧ s.userInfo.account = account

/-- Along a run, one step keeps the agreement if and only if every update of
the step stored its value, or the row had it already. -/
theorem step_agrees_iff
    (hescape : EscapesString env.mysqlRealEscapeString)
    (hstores : StoresValues account execute) {e : ProfileEvent}
    {a b : World × Profile}
    (henabled : (profileMachine env account execute u w row).enabled e a)
    (hstep : (profileMachine env account execute u w row).step e a = some b)
    (hholds : a.1.Holds u account) (hagree : ProfileAgrees u a) :
    b.1.Holds u account ∧
      ((∀ msg, e = .message msg → ∀ x ∈ a.1.updates env u msg,
          x.ok = true → x.Reads env account) →
        (ProfileAgrees u b ↔ ∀ msg, e = .message msg →
          ∀ x ∈ a.1.updates env u msg, x.Lands account a.2)) := by
  obtain ⟨s₀, hs₀, rfl⟩ := hholds
  cases e with
  | message msg =>
      obtain ⟨s, hs, hthread⟩ := henabled
      rw [hs₀] at hs
      cases hs
      obtain ⟨w', s', hrun, hs', _, haccount, _⟩ :=
        updateUserInfos_updates env msg a.2 hs₀ hthread
      have hb : (updateUserInfos env u msg a.1).map (fun r =>
          (r.2, executeAll env s₀.userInfo.account execute a.2
            (a.1.updates env u msg))) = some b := hstep
      rw [hrun, Option.map_some, Option.some.injEq] at hb
      subst hb
      refine ⟨⟨s', hs', haccount⟩, fun hreads => ?_⟩
      have hone := message_agrees_iff hescape hstores hs₀ hthread
        (hagree s₀ hs₀) (hreads msg rfl) hrun
      constructor
      · intro hafter msg' hmsg
        cases hmsg
        exact hone.mp hafter
      · intro hlands
        exact hone.mpr (hlands msg rfl)
  | elsewhere w' =>
      have hkeep : a.1.KeepsProfile u w' := henabled
      have hb : some (w', a.2) = some b := hstep
      cases hb
      obtain ⟨s', hs', _, haccount, hprofile⟩ := hkeep s₀ hs₀
      refine ⟨⟨s', hs', haccount⟩, fun _ => ?_⟩
      constructor
      · intro _ msg hmsg
        cases hmsg
      · intro _ s₁ hs₁
        rw [hs', Option.some.injEq] at hs₁
        rw [← hs₁, hprofile, hagree s₀ hs₀]

/-- If every update stores its value or the row has it already, the session
agrees with the row in every state. -/
theorem run_agrees (hescape : EscapesString env.mysqlRealEscapeString)
    (hstores : StoresValues account execute)
    {states : Nat → World × Profile} {events : Nat → ProfileEvent} {n : Nat}
    (hist : (profileMachine env account execute u w row).History
      states events n)
    (hholds : (states 0).1.Holds u account)
    (hagree : ProfileAgrees u (states 0))
    (hlands : EachUpdate env u states events n fun a row =>
      a.Lands account row) :
    ∀ i, i ≤ n → (states i).1.Holds u account ∧ ProfileAgrees u (states i) := by
  intro i
  induction i with
  | zero => exact fun _ => ⟨hholds, hagree⟩
  | succ i ih =>
      intro hi
      obtain ⟨henabled, hstep⟩ := hist.next i (by omega)
      obtain ⟨hbefore, hbefore'⟩ := ih (by omega)
      obtain ⟨hafter, hiff⟩ :=
        step_agrees_iff hescape hstores henabled hstep hbefore hbefore'
      refine ⟨hafter, (hiff ?_).mpr fun msg hmsg => hlands i msg hi hmsg⟩
      intro msg hmsg x hx hok
      exact (hlands i msg hi hmsg x hx).reads hescape hok

/-- A failed update that did not matter is one of a picture, and pictures are
always sent. -/
theorem retried_of_lands {states : Nat → World × Profile}
    {events : Nat → ProfileEvent} {n : Nat}
    (hall : ∀ i, i ≤ n → (states i).1.Holds u account ∧
      ProfileAgrees u (states i))
    (hlands : EachUpdate env u states events n fun a row =>
      a.Lands account row) : Retried env u states events n := by
  intro i j msg msg' m' c value hij hj hi hmsg hfailed hm' hbrings
  obtain ⟨⟨s₁, hs₁, _⟩, hagree₁⟩ := hall i (by omega)
  obtain ⟨⟨s₂, hs₂, _⟩, _⟩ := hall j (by omega)
  have hsame : value = (states i).2 c := by
    have hland : Update.Lands account ⟨c, value, false⟩ (states i).2 :=
      hlands i msg (by omega) hi _ hfailed
    rwa [Update.Lands, if_neg (by simp)] at hland
  obtain ⟨m, hm⟩ : ∃ m, env.proto.updateUserInfo msg = some m := by
    cases hm : env.proto.updateUserInfo msg with
    | some m => exact ⟨m, rfl⟩
    | none =>
        simp only [World.updates, hs₁, hm] at hfailed
        cases hfailed
  have hwritten := (World.mem_updates hs₁ hm).mp ⟨false, hfailed⟩
  rw [UpdateUserInfo.field, Option.filter_eq_some_iff, hagree₁ s₁ hs₁,
    ← hsame] at hwritten
  obtain ⟨rfl, hwrites⟩ := Column.writes_self hwritten.2
  rw [World.mem_updates hs₂ hm', UpdateUserInfo.field,
    Option.filter_eq_some_iff]
  exact ⟨hbrings, hwrites _⟩

end Runs

/-- A session that agrees with its row at the start of a run agrees with it in
every state, and every failed update is tried again when its value is sent
again, if every update stores its value or the row has it already; and if
MySQL reads an update in every statement it executes, only then. -/
theorem profile_agrees_iff {env : Env}
    (hescape : EscapesString env.mysqlRealEscapeString) {u : SessionId}
    {w : World} {row : Profile} {execute : Bytes → Profile → Profile}
    {states : Nat → World × Profile} {events : Nat → ProfileEvent} {n : Nat}
    {s : UserSession} (hstores : StoresValues s.userInfo.account execute)
    (hs : w.users u = some s) (hagree : s.userInfo.profile = row)
    (hist : (profileMachine env s.userInfo.account execute u w row).History
      states events n) :
    (EachUpdate env u states events n (fun a row =>
        a.Lands s.userInfo.account row) →
      (∀ i, i ≤ n → ProfileAgrees u (states i)) ∧
        Retried env u states events n) ∧
    (EachUpdate env u states events n (fun a _ =>
        a.ok = true → a.Reads env s.userInfo.account) →
      (∀ i, i ≤ n → ProfileAgrees u (states i)) →
        EachUpdate env u states events n fun a row =>
          a.Lands s.userInfo.account row) := by
  have hstart : states 0 = (w, row) := hist.start
  have hholds₀ : (states 0).1.Holds u s.userInfo.account :=
    ⟨s, by rw [hstart, hs], rfl⟩
  have hagree₀ : ProfileAgrees u (states 0) := by
    intro s' hs'
    rw [hstart] at hs' ⊢
    rw [hs, Option.some.injEq] at hs'
    rw [← hs', hagree]
  constructor
  · intro hlands
    have hall := run_agrees hescape hstores hist hholds₀ hagree₀ hlands
    exact ⟨fun i hi => (hall i hi).2, retried_of_lands hall hlands⟩
  · intro hreads hall
    -- the agreement before and after a step gives the condition of the step
    have hholds : ∀ i, i ≤ n → (states i).1.Holds u s.userInfo.account := by
      intro i
      induction i with
      | zero => exact fun _ => hholds₀
      | succ i ih =>
          intro hi
          obtain ⟨henabled, hstep⟩ := hist.next i (by omega)
          exact (step_agrees_iff hescape hstores henabled hstep
            (ih (by omega)) (hall i (by omega))).1
    intro i msg hi hmsg
    obtain ⟨henabled, hstep⟩ := hist.next i hi
    exact ((step_agrees_iff hescape hstores henabled hstep
      (hholds i (by omega)) (hall i (by omega))).2
        fun msg' hmsg' => hreads i msg' hi hmsg').mp (hall (i + 1) hi) msg hmsg

/-! ## Two databases -/

namespace Client

/-- A database that executes the updates of the account's row, and no other
statement. -/
def execute (account sql : Bytes) (row : Profile) : Profile := fun c =>
  (c.carried account sql).getD (row c)

theorem execute_stores (account : Bytes) :
    StoresValues account (execute account) := by
  intro c sql value row hvalue
  funext c'
  unfold execute
  by_cases hc : c' = c
  · subst hc
    rw [hvalue, Option.getD_some, Function.update_self]
  · rw [Column.carried_other hvalue hc, Option.getD_none,
      Function.update_of_ne hc]

end Client

/-- The user `a` takes the name `n`. -/
def nameUpdate : Bytes :=
  encode [(1, .bytes (lit "n")), (2, .bytes (lit "a")), (3, .bytes (lit "p"))]

/-- A new name, a new address, and a picture with bytes that are escaped. -/
def profileUpdate : Bytes :=
  encode [(1, .bytes (lit "n")), (2, .bytes (lit "a")), (3, .bytes (lit "p"))
    , (4, .bytes (lit "a@b")), (6, .bytes [0, 39, 92, 255])]

/-- A database that refuses every update. -/
def refusingEnv : Env :=
  { Client.env with
    mysql := fun log =>
      if (log.head?.map (lit "UPDATE").isPrefixOf).getD false then .error
      else Client.database log }

/-- A session logs in and gets to the hall. -/
def enterHall : List Event :=
  [.accept 10, .read 0 (Client.login "a"), .read 0 Client.adImageReq]

/-- Three updates that are stored. -/
theorem profile_agrees_stored : ∃ w s states events,
    (profileMachine Client.env s.userInfo.account
      (Client.execute s.userInfo.account) 0 w s.userInfo.profile).History
        states events 1 ∧
    events 0 = .message profileUpdate ∧ w.users 0 = some s ∧
    (w.updates Client.env 0 profileUpdate).length = 3 ∧
    (∀ i, i ≤ 1 → ProfileAgrees 0 (states i)) ∧
    Retried Client.env 0 states events 1 := by
  have htest : ((server Client.env).run (fun _ _ => True) enterHall
      World.init).any (fun w => (w.users 0).any fun s =>
        s.thread.isSome &&
          (updateUserInfos Client.env 0 profileUpdate w).isSome &&
          (w.updates Client.env 0 profileUpdate).length == 3 &&
          (w.updates Client.env 0 profileUpdate).all fun a => a.ok &&
            decide (a.column.Fits s.userInfo.account a.value)) = true := by
    decide +kernel
  simp only [Bool.and_eq_true, Option.any_eq_true, Option.isSome_iff_exists,
    List.all_eq_true, beq_iff_eq, decide_eq_true_eq] at htest
  obtain ⟨w, _, s, hs, ⟨⟨⟨t, ht⟩, r, hr⟩, hthree⟩, hok⟩ := htest
  let m := profileMachine Client.env s.userInfo.account
    (Client.execute s.userInfo.account) 0 w s.userInfo.profile
  have henabled : m.enabled (.message profileUpdate) m.start :=
    ⟨s, hs, by rw [ht]; rfl⟩
  have hstep : m.step (.message profileUpdate) m.start = some (r.2,
      executeAll Client.env s.userInfo.account
        (Client.execute s.userInfo.account) s.userInfo.profile
        (w.updates Client.env 0 profileUpdate)) := by
    show (updateUserInfos Client.env 0 profileUpdate w).map _ = _
    rw [hr]
    rfl
  have hist := (Machine.History.nil (m := m) (.elsewhere w)).snoc henabled hstep
  refine ⟨w, s, _, _, hist, rfl, hs, hthree, ?_⟩
  refine (profile_agrees_iff Client.escapeString_escapes
    (Client.execute_stores _) hs rfl hist).1 ?_
  intro i msg hi hmsg a ha
  obtain rfl : i = 0 := by omega
  cases hmsg
  obtain ⟨htrue, hfits⟩ := hok a ha
  rw [Update.Lands, if_pos htrue]
  exact hfits

/-- A new name that is not stored is in the session only, and sending it
again does not reach the database. -/
theorem refused_update_is_forgotten : ∃ w s states events,
    (server refusingEnv).Reachable w ∧ w.users 0 = some s ∧
    (profileMachine refusingEnv s.userInfo.account
      (Client.execute s.userInfo.account) 0 w s.userInfo.profile).History
        states events 2 ∧
    ¬ ProfileAgrees 0 (states 1) ∧
    ¬ Retried refusingEnv 0 states events 2 := by
  have htest : ((server refusingEnv).run (fun _ _ => True) enterHall
      World.init).any (fun w => (w.users 0).any fun s =>
        s.thread.isSome &&
        (updateUserInfos refusingEnv 0 nameUpdate w).any fun r =>
          (r.2.users 0).any fun s₁ => s₁.thread.isSome &&
            (s₁.userInfo.userName !=
              executeAll refusingEnv s.userInfo.account
                (Client.execute s.userInfo.account) s.userInfo.profile
                (w.updates refusingEnv 0 nameUpdate) .userName) &&
            (w.updates refusingEnv 0 nameUpdate).elem
              ⟨.userName, lit "n", false⟩ &&
            r.2.updates refusingEnv 0 nameUpdate == [] &&
            (updateUserInfos refusingEnv 0 nameUpdate r.2).isSome) =
      true := by
    decide +kernel
  simp only [Bool.and_eq_true, Option.any_eq_true, Option.isSome_iff_exists,
    bne_iff_ne, beq_iff_eq, List.elem_eq_mem, decide_eq_true_eq] at htest
  obtain ⟨w, hrun, s, hs, ⟨t, ht⟩, r, hr, s₁, hs₁, ⟨⟨⟨⟨t₁, ht₁⟩, hname⟩,
    hfailed⟩, hnone⟩, r', hr'⟩ := htest
  have hreach : (server refusingEnv).Reachable w :=
    Machine.reachableWith_of_run .start hrun
  let execute := Client.execute s.userInfo.account
  let m := profileMachine refusingEnv s.userInfo.account execute 0 w
    s.userInfo.profile
  let row := executeAll refusingEnv s.userInfo.account execute
    s.userInfo.profile (w.updates refusingEnv 0 nameUpdate)
  have henabled : m.enabled (.message nameUpdate) m.start :=
    ⟨s, hs, by rw [ht]; rfl⟩
  have hstep : m.step (.message nameUpdate) m.start = some (r.2, row) := by
    show (updateUserInfos refusingEnv 0 nameUpdate w).map _ = _
    rw [hr]
    rfl
  have henabled' : m.enabled (.message nameUpdate) (r.2, row) :=
    ⟨s₁, hs₁, by rw [ht₁]; rfl⟩
  have hstep' : m.step (.message nameUpdate) (r.2, row) =
      some (r'.2, executeAll refusingEnv s.userInfo.account execute row
        (r.2.updates refusingEnv 0 nameUpdate)) := by
    show (updateUserInfos refusingEnv 0 nameUpdate r.2).map _ = _
    rw [hr']
    rfl
  have hist := ((Machine.History.nil (m := m) (.elsewhere w)).snoc
    henabled hstep).snoc henabled' hstep'
  refine ⟨w, s, _, _, hreach, hs, hist, ?_, ?_⟩
  · intro hagree
    exact hname (congrFun (hagree s₁ hs₁) .userName)
  · intro hretried
    have hparse : (wireProtobuf.updateUserInfo nameUpdate).any (fun m =>
        m.brings .userName == some (lit "n")) = true := by decide +kernel
    simp only [Option.any_eq_true, beq_iff_eq] at hparse
    obtain ⟨info, hinfo, hbrings⟩ := hparse
    obtain ⟨ok, hagain⟩ := hretried 0 1 nameUpdate nameUpdate info .userName
      (lit "n") (by decide) (by decide) rfl rfl hfailed hinfo hbrings
    have hempty : ⟨.userName, lit "n", ok⟩ ∈
        r.2.updates refusingEnv 0 nameUpdate := hagain
    rw [hnone] at hempty
    cases hempty

end ChessServer
