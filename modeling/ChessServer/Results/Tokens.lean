import ChessServer.Server.FindPwd

/-!
# The lifetime of a password token

All requests for an account write the same file, and each removes it when its
own time is over.  A mailed token stays for its `OUT_TIME` exactly as long as
no timer of another request spoils it (`tokens_live`).
-/

namespace ChessServer

namespace FindPwd

/-! ## What is written -/

/-- The file holds the whole token. -/
theorem tokenText_token (token : Digest) : tokenText token = token := by
  obtain ⟨text, hlen, hzero⟩ := token
  have htake : text.take 33 = text := List.take_of_length_le (by omega)
  simp only [tokenText, cString_eq hzero, htake]
  exact List.take_left

@[simp] theorem timerAdd_now (w : State) (added : Bool) (sec usec : Nat)
    (handler : Handler) (user : FpwUserInfo) :
    (w.timerAdd added sec usec handler user).now = w.now := by
  cases added <;> rfl

@[simp] theorem timerAdd_files (w : State) (added : Bool) (sec usec : Nat)
    (handler : Handler) (user : FpwUserInfo) :
    (w.timerAdd added sec usec handler user).files = w.files := by
  cases added <;> rfl

@[simp] theorem timerAdd_writes (w : State) (added : Bool) (sec usec : Nat)
    (handler : Handler) (user : FpwUserInfo) :
    (w.timerAdd added sec usec handler user).writes = w.writes := by
  cases added <;> rfl

@[simp] theorem timerAdd_requests (w : State) (added : Bool) (sec usec : Nat)
    (handler : Handler) (user : FpwUserInfo) :
    (w.timerAdd added sec usec handler user).requests = w.requests := by
  cases added <;> rfl

theorem mem_timerAdd {w : State} {added : Bool} {sec usec : Nat}
    {handler : Handler} {user : FpwUserInfo} {t : Timer}
    (h : t ∈ (w.timerAdd added sec usec handler user).timers) :
    t ∈ w.timers ∨ t = ⟨w.now + delay sec usec, handler, user⟩ := by
  cases added with
  | true =>
      rcases List.mem_append.mp h with h | h
      · exact Or.inl h
      · exact Or.inr (List.mem_singleton.mp h)
  | false => exact Or.inl h

/-! ## One timer for a request -/

/-- Every request has at most one timer; before its mail went out this is one
for `SendMail`, and afterwards one that leaves the token its time. -/
structure Orderly (w : State) : Prop where
  nodup : (w.timers.map (·.user.request)).Nodup
  known : ∀ t ∈ w.timers, t.user.request < w.requests
  written : ∀ o ∈ w.writes, o.rank < w.requests
  unsent : ∀ t ∈ w.timers, t.handler = .sendMail → ∀ o ∈ w.writes,
    o.rank = t.user.request → o.granted = false
  due : ∀ t ∈ w.timers, t.handler = .timeOutHandle → ∀ o ∈ w.writes,
    o.rank = t.user.request → o.granted = true → o.time + outTime ≤ t.due

/-- A request without a timer. -/
def State.Idle (w : State) (request : Nat) : Prop :=
  ∀ t ∈ w.timers, t.user.request ≠ request

theorem Orderly.timerAdd {w : State} {added : Bool} {sec usec : Nat}
    {handler : Handler} {user : FpwUserInfo} (h : Orderly w)
    (hidle : w.Idle user.request) (hknown : user.request < w.requests)
    (hunsent : handler = .sendMail → ∀ o ∈ w.writes,
      o.rank = user.request → o.granted = false)
    (hdue : handler = .timeOutHandle → ∀ o ∈ w.writes,
      o.rank = user.request → o.granted = true →
        o.time + outTime ≤ w.now + delay sec usec) :
    Orderly (w.timerAdd added sec usec handler user) where
  nodup := by
    cases added with
    | true =>
        simp only [State.timerAdd, if_true, List.map_append, List.map_cons,
          List.map_nil]
        refine List.nodup_append.mpr ⟨h.nodup, by simp, ?_⟩
        intro a ha b hb
        obtain ⟨t, ht, rfl⟩ := List.mem_map.mp ha
        rw [List.mem_singleton.mp hb]
        exact hidle t ht
    | false => exact h.nodup
  known := by
    intro t ht
    rw [timerAdd_requests]
    rcases mem_timerAdd ht with ht | rfl
    · exact h.known t ht
    · exact hknown
  written := by
    rw [timerAdd_requests, timerAdd_writes]
    exact h.written
  unsent := by
    intro t ht
    rw [timerAdd_writes]
    rcases mem_timerAdd ht with ht | rfl
    · exact h.unsent t ht
    · exact hunsent
  due := by
    intro t ht
    rw [timerAdd_writes]
    rcases mem_timerAdd ht with ht | rfl
    · exact h.due t ht
    · exact hdue

theorem Orderly.write {w : State} {user : FpwUserInfo} {mailed : Bool}
    (h : Orderly w) (hidle : w.Idle user.request)
    (hknown : user.request < w.requests) :
    Orderly (w.writeUserTokentoFile user mailed) where
  nodup := h.nodup
  known := h.known
  written := by
    intro o ho
    rcases List.mem_cons.mp ho with rfl | ho
    · exact hknown
    · exact h.written o ho
  unsent := by
    intro t ht hsend o ho hrank
    rcases List.mem_cons.mp ho with rfl | ho
    · exact absurd hrank.symm (hidle t ht)
    · exact h.unsent t ht hsend o ho hrank
  due := by
    intro t ht hout o ho hrank
    rcases List.mem_cons.mp ho with rfl | ho
    · exact absurd hrank.symm (hidle t ht)
    · exact h.due t ht hout o ho hrank

/-- Fewer timers. -/
theorem Orderly.drop {w : State} {timers : List Timer} (h : Orderly w)
    (hsub : timers.Sublist w.timers) : Orderly { w with timers := timers } where
  nodup := (hsub.map _).nodup h.nodup
  known := fun t ht => h.known t (hsub.subset ht)
  written := h.written
  unsent := fun t ht => h.unsent t (hsub.subset ht)
  due := fun t ht => h.due t (hsub.subset ht)

/-- The timer that fires was the request's only one. -/
theorem Orderly.erase {w : State} {timer : Timer} (h : Orderly w)
    (hmem : timer ∈ w.timers) :
    Orderly { w with timers := w.timers.erase timer } ∧
      State.Idle { w with timers := w.timers.erase timer }
        timer.user.request := by
  refine ⟨h.drop List.erase_sublist, fun t ht hsame => ?_⟩
  have hperm := (List.perm_cons_erase hmem).map (·.user.request)
  have hnodup := hperm.nodup_iff.mp h.nodup
  rw [List.map_cons, List.nodup_cons] at hnodup
  exact hnodup.1 (List.mem_map.mpr ⟨t, ht, hsame⟩)

theorem Orderly.sendMail {w : State} {user : FpwUserInfo}
    {mailed added : Bool} (h : Orderly w) (hidle : w.Idle user.request)
    (hknown : user.request < w.requests)
    (hunsent : ∀ o ∈ w.writes, o.rank = user.request → o.granted = false) :
    Orderly (w.sendMail user mailed added) := by
  have hwrite : Orderly (w.writeUserTokentoFile user mailed) :=
    h.write hidle hknown
  unfold State.sendMail
  cases mailed with
  | true =>
      refine hwrite.timerAdd hidle hknown (by simp) fun _ o ho hrank hsent => ?_
      rcases List.mem_cons.mp ho with rfl | ho
      · exact Nat.le_refl _
      · rw [hunsent o ho hrank] at hsent
        cases hsent
  | false =>
      have hnone : ∀ o ∈ (w.writeUserTokentoFile user false).writes,
          o.rank = user.request → o.granted = false := by
        intro o ho hrank
        rcases List.mem_cons.mp ho with rfl | ho
        · rfl
        · exact hunsent o ho hrank
      dsimp only
      rw [if_neg (by decide)]
      split
      · exact hwrite.timerAdd hidle hknown (fun _ => hnone) (by simp)
      · refine hwrite.timerAdd hidle hknown (by simp) fun _ o ho hrank hsent => ?_
        rw [hnone o ho hrank] at hsent
        cases hsent

theorem step_orderly {md5 : Bytes → Digest} {e : Event} {w w' : State}
    (h : Orderly w) (henabled : e.Enabled w)
    (hstep : w.step md5 e = some w') : Orderly w' := by
  cases e with
  | request account time added =>
      cases hstep
      have hmore : Orderly { w with requests := w.requests + 1 } :=
        ⟨h.nodup, fun t ht => Nat.lt_succ_of_lt (h.known t ht),
          fun o ho => Nat.lt_succ_of_lt (h.written o ho), h.unsent, h.due⟩
      refine hmore.timerAdd (fun t ht => ?_) (Nat.lt_succ_self _)
        (fun _ o ho hrank => ?_) (by simp)
      · exact Nat.ne_of_lt (h.known t ht)
      · exact absurd hrank (Nat.ne_of_lt (h.written o ho))
  | fire timer mailed added =>
      cases hstep
      obtain ⟨herase, hidle⟩ := h.erase henabled.1
      unfold State.run
      split
      · rename_i hsend
        exact herase.sendMail hidle (h.known timer henabled.1)
          (h.unsent timer henabled.1 hsend)
      · exact ⟨herase.nodup, herase.known, herase.written, herase.unsent,
          herase.due⟩
  | pass usec =>
      cases hstep
      exact ⟨h.nodup, h.known, h.written, h.unsent, h.due⟩
  | destrory =>
      cases hstep
      exact h.drop (List.nil_sublist _)

theorem reachable_orderly {md5 : Bytes → Digest} {ok : Event → State → Prop}
    {w : State} (h : (machine md5).ReachableWith ok w) : Orderly w := by
  have hstart : Orderly State.init := by
    refine ⟨List.nodup_nil, ?_, ?_, ?_, ?_⟩
    all_goals
      intro t ht
      cases ht
  exact h.invariant (I := Orderly) hstart
    fun hord henabled _ hstep => step_orderly hord henabled hstep

/-! ## Lifetimes -/

/-- Every token that was mailed less than `OUT_TIME` ago, and that no newer
request has overwritten, is in its file. -/
def State.Live (w : State) : Prop :=
  Lease.Kept outTime w.now w.files w.writes

/-- The handler does not spoil the token of another request: it is a newer
request's `SendMail`, or writes the same token. -/
def Event.Harmless (w : State) : Event → Prop
  | .fire timer _ _ =>
      ∀ o ∈ Lease.fresh outTime w.now w.writes,
        o.key = path timer.user.account → o.rank = timer.user.request ∨
          timer.handler = .sendMail ∧
            (o.rank < timer.user.request ∨ o.value = timer.user.token)
  | _ => True

instance (w : State) (e : Event) : Decidable (e.Harmless w) :=
  match e with
  | .fire timer _ _ =>
      inferInstanceAs (Decidable (∀ o ∈ Lease.fresh outTime w.now w.writes,
        o.key = path timer.user.account → o.rank = timer.user.request ∨
          timer.handler = .sendMail ∧
            (o.rank < timer.user.request ∨ o.value = timer.user.token)))
  | .request _ _ _ | .pass _ | .destrory => inferInstanceAs (Decidable True)

theorem sendMail_live_iff {w : State} {user : FpwUserInfo}
    {mailed added : Bool} (h : w.Live) :
    (w.sendMail user mailed added).Live ↔
      ∀ o ∈ Lease.fresh outTime w.now w.writes, o.key = path user.account →
        o.rank < user.request ∨ o.value = user.token := by
  have hwrite := Lease.kept_write_iff h
    ⟨w.now, path user.account, user.request, user.token, mailed⟩
  have hsame : (w.sendMail user mailed added).Live ↔
      (w.writeUserTokentoFile user mailed).Live := by
    unfold State.sendMail State.Live
    cases mailed with
    | true => simp
    | false =>
        dsimp only
        rw [if_neg (by decide)]
        split <;> simp
  rw [hsame, State.Live, State.writeUserTokentoFile, tokenText_token]
  exact hwrite

/-- One event keeps all tokens alive exactly when it is harmless. -/
theorem step_live_iff {md5 : Bytes → Digest} {e : Event} {w w' : State}
    (hord : Orderly w) (hlive : w.Live) (henabled : e.Enabled w)
    (hstep : w.step md5 e = some w') : w'.Live ↔ e.Harmless w := by
  cases e with
  | request account time added =>
      cases hstep
      simpa [State.addToTimerList, State.Live, Event.Harmless] using hlive
  | fire timer mailed added =>
      cases hstep
      obtain ⟨hmem, hdue⟩ := henabled
      have hlive' : State.Live { w with timers := w.timers.erase timer } := hlive
      simp only [State.run, Event.Harmless]
      cases hhandler : timer.handler with
      | sendMail =>
          refine (sendMail_live_iff hlive').trans (forall₃_congr
            fun o ho hkey => ?_)
          obtain ⟨hwrite, hsent, _⟩ := Lease.mem_of_fresh ho
          have hother : o.rank ≠ timer.user.request := fun hrank => by
            rw [hord.unsent timer hmem hhandler o hwrite hrank] at hsent
            cases hsent
          simp [hother]
      | timeOutHandle =>
          refine (Lease.kept_remove_iff hlive' (path timer.user.account)).trans
            (forall₂_congr fun o ho => ?_)
          obtain ⟨hwrite, hsent, hfresh⟩ := Lease.mem_of_fresh ho
          have hother : o.rank ≠ timer.user.request := fun hrank => by
            have hlater := hord.due timer hmem hhandler o hwrite hrank hsent
            exact Nat.lt_irrefl _ (hfresh.trans_le (hlater.trans hdue))
          simp [hother]
  | pass usec =>
      cases hstep
      exact iff_of_true (hlive.later (Nat.le_add_right _ _)) trivial
  | destrory =>
      cases hstep
      exact iff_of_true hlive trivial

/-- In a run without harmful handlers every mailed token lives its time, and
the first harmful one ends a token's life too early. -/
theorem tokens_live (md5 : Bytes → Digest) {w : State}
    (h : (machine md5).ReachableWith (fun e w => e.Harmless w) w) :
    w.Live ∧ ∀ e w', (machine md5).enabled e w →
      (machine md5).step e w = some w' → (w'.Live ↔ e.Harmless w) := by
  have hlive : w.Live := by
    refine h.invariant_of (J := Orderly) reachable_orderly (fun o ho => ?_)
      fun hord hlive henabled hok hstep =>
        (step_live_iff hord hlive henabled hstep).mpr hok
    cases ho
  exact ⟨hlive, fun e w' henabled hstep =>
    step_live_iff (reachable_orderly h) hlive henabled hstep⟩

/-! ## Two requests of one account -/

instance (w : State) : Decidable w.Live :=
  inferInstanceAs (Decidable (∀ o ∈ Lease.fresh outTime w.now w.writes,
    w.files o.key = some o.value))

instance (md5 : Bytes → Digest) (e : Event) (w : State) :
    Decidable ((machine md5).enabled e w) :=
  inferInstanceAs (Decidable (e.Enabled w))

/-- The digests of `a1000` and `a1200`. -/
def first : Digest := ⟨lit "710addad9a951dd1e9e9adf86baf82d2", by decide +kernel⟩

def second : Digest := ⟨lit "26cc79ecd96bb171f234ff2abdea17ad", by decide +kernel⟩

/-- `md5` on the two texts that are hashed below. -/
def sampleMd5 (data : Bytes) : Digest :=
  if data = lit "a1000" then first else second

/-- A request at time 1000 whose mail goes out. -/
def mailed : List Event :=
  [ .request (lit "a") 1000 true, .pass 10
  , .fire ⟨10, .sendMail, ⟨0, lit "a", first, 0⟩⟩ true true ]

/-- Another one after 200 seconds, and the expiry of the first. -/
def overlap : List Event :=
  [ .pass (delay 200 0), .request (lit "a") 1200 true, .pass 10
  , .fire ⟨delay 200 20, .sendMail, ⟨1, lit "a", second, 0⟩⟩ true true
  , .pass (delay 100 0)
  , .fire ⟨delay 300 10, .timeOutHandle, ⟨0, lit "a", first, 0⟩⟩ true true ]

/-- The second request's mail goes out while the first one's token is still
good. -/
theorem tokens_live_mailed :
    ∃ w : State, w.requests = 2 ∧ w.now < outTime ∧
      (∃ o ∈ Lease.fresh outTime w.now w.writes, o.rank = 1) ∧ w.Live := by
  obtain ⟨w, hw, htest⟩ := (Option.any_eq_true (fun w : State =>
    decide (w.requests = 2 ∧ w.now < outTime) &&
      (Lease.fresh outTime w.now w.writes).any (·.rank == 1)) _).mp
    (show ((machine sampleMd5).run (fun e w => e.Harmless w)
      (mailed ++ overlap.take 4) State.init).any _ = true by decide +kernel)
  rw [Bool.and_eq_true, decide_eq_true_eq] at htest
  obtain ⟨⟨hrequests, hnow⟩, hfresh⟩ := htest
  obtain ⟨o, ho, hrank⟩ := List.any_eq_true.mp hfresh
  exact ⟨w, hrequests, hnow, ⟨o, ho, eq_of_beq hrank⟩, (tokens_live sampleMd5
    (Machine.reachableWith_of_run .start hw)).1⟩

/-- The first request's `TimeOutHandle` removes the token that the second one
mailed 100 seconds before. -/
theorem token_removed_early :
    ¬ ∀ (md5 : Bytes → Digest) (w : State), (machine md5).Reachable w →
      w.Live := by
  intro hall
  obtain ⟨w, hw, hdead⟩ := (Option.any_eq_true (fun w : State =>
    decide ¬ w.Live) _).mp
    (show ((machine sampleMd5).run (fun _ _ => True) (mailed ++ overlap)
      State.init).any _ = true by decide +kernel)
  exact of_decide_eq_true hdead
    (hall sampleMd5 w (Machine.reachableWith_of_run .start hw))

end FindPwd

end ChessServer
