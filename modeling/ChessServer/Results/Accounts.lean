import ChessServer.Proofs.Auth
import ChessServer.Results.Protocol
import ChessServer.Results.Strangers

/-!
# One session for each account

A login asks whether the name that was sent is in use, and stores the name
that the database returns.  As long as the two agree, or nobody uses the name
that is returned, no two sessions are held for one account
(`one_session_per_account`).
-/

namespace ChessServer

variable {env : Env} {w w' : World}

/-- No two sessions have one account. -/
def World.OnePerAccount (w : World) : Prop :=
  ∀ u v t t' account, account ≠ [] → w.badge u = some (t, account) →
    w.badge v = some (t', account) → u = v

/-- An account has been there before, or a login has just brought it. -/
theorem Staged.origin {e : Event} {v : SessionId} {t : StateType}
    {account : Bytes} (h : Staged env e w w') (hne : account ≠ [])
    (hp : w'.badge v = some (t, account)) :
    (∃ t', w.badge v = some (t', account)) ∨ ∃ login row,
      w.loginOf env e = some (v, login) ∧ w.Admits env login row ∧
        account = row.account := by
  by_cases hlive : ∃ fd, w.layout.registry fd = some v ∧
      w'.layout.registry fd = some v
  · obtain ⟨fd, hreg, hreg'⟩ := hlive
    obtain ⟨p, p', hold, hnew, hpasses⟩ := h.live v fd hreg hreg'
    rw [hp] at hnew
    injection hnew with hnew
    subst hnew
    generalize hq : (t, account) = q at hpasses
    cases hpasses with
    | stay =>
        subst hq
        exact Or.inl ⟨t, hold⟩
    | switch hstate =>
        injection hq with _ haccount
        subst haccount
        exact Or.inl ⟨_, hold⟩
    | refused =>
        injection hq with _ haccount
        exact absurd haccount hne
    | login hlogin hadmits =>
        injection hq with _ haccount
        exact Or.inr ⟨_, _, hlogin, hadmits, haccount⟩
  · have hrest := h.rest v _ (fun fd hreg hreg' => hlive ⟨fd, hreg, hreg'⟩) hp
    injection hrest with _ haccount
    exact absurd haccount hne

/-- A name that nobody is found to use is no session's account. -/
theorem unused_account {v : SessionId} {t : StateType} {account : Bytes}
    (hinv : w.layout.Inv) (hanon : w.Anonymous) (hne : account ≠ [])
    (hfree : getIndividualUser account w = some true) :
    w.badge v ≠ some (t, account) := by
  intro hp
  by_cases hreg : ∃ fd, w.layout.registry fd = some v
  · obtain ⟨fd, hreg⟩ := hreg
    obtain ⟨s, hs, _⟩ := registered_session hinv.registry hreg
    rw [badge_eq hs, Option.some.injEq] at hp
    exact getIndividualUser_free hfree hreg hs (congrArg Prod.snd hp)
  · have hnone := unregistered_badge hinv hanon (fun fd h => hreg ⟨fd, h⟩) hp
    injection hnone with _ haccount
    exact hne haccount

/-- A name that nobody is found to use is not in use. -/
theorem unclaimed_of_spelled {e : Event} (h : w.spelled env e = true) :
    w.unclaimed env e = true := by
  unfold World.spelled at h
  unfold World.unclaimed
  cases hlogin : w.loginOf env e with
  | none => rfl
  | some r =>
      obtain ⟨u, login⟩ := r
      rw [hlogin] at h
      dsimp only at h ⊢
      cases hrow : w.userRow env login.account with
      | none => rfl
      | some row =>
          rw [hrow] at h
          dsimp only at h ⊢
          simp only [Bool.or_eq_true, bne_iff_ne, ne_eq, beq_iff_eq] at h ⊢
          by_cases hfree : getIndividualUser login.account w = some true
          · rcases h with ((hpassword | hname) | hempty) | hunused
            · exact Or.inl (Or.inl (Or.inr hpassword))
            · exact Or.inr (hname ▸ hfree)
            · exact Or.inl (Or.inr hempty)
            · exact Or.inr hunused
          · exact Or.inl (Or.inl (Or.inl hfree))

theorem unclaimed_iff {e : Event} :
    w.unclaimed env e = true ↔ ∀ u login row,
      w.loginOf env e = some (u, login) → w.Admits env login row →
        row.account ≠ [] → getIndividualUser row.account w = some true := by
  unfold World.unclaimed
  constructor
  · intro h u login row hlogin hadmits hne
    rw [hlogin] at h
    dsimp only at h
    rw [hadmits.found] at h
    simp only [Bool.or_eq_true, bne_iff_ne, ne_eq, beq_iff_eq] at h
    rcases h with ((hfree | hpassword) | hempty) | hunused
    · exact absurd hadmits.free hfree
    · exact absurd hadmits.password hpassword
    · exact absurd hempty hne
    · exact hunused
  · intro h
    cases hlogin : w.loginOf env e with
    | none => rfl
    | some r =>
        obtain ⟨u, login⟩ := r
        dsimp only
        cases hrow : w.userRow env login.account with
        | none => rfl
        | some row =>
            simp only [Bool.or_eq_true, bne_iff_ne, ne_eq, beq_iff_eq]
            by_cases hfree : getIndividualUser login.account w = some true
            · by_cases hpassword : row.password = login.password
              · by_cases hempty : row.account = []
                · exact Or.inl (Or.inr hempty)
                · exact Or.inr
                    (h u login row hlogin ⟨hfree, hrow, hpassword⟩ hempty)
              · exact Or.inl (Or.inl (Or.inr hpassword))
            · exact Or.inl (Or.inl (Or.inl hfree))

/-- The step lemma. -/
theorem Staged.onePerAccount {e : Event} (hinv : w.layout.Inv)
    (hanon : w.Anonymous) (hunclaimed : w.unclaimed env e = true)
    (hone : w.OnePerAccount) (h : Staged env e w w') : w'.OnePerAccount := by
  have hunused : ∀ {u login row v t}, w.loginOf env e = some (u, login) →
      w.Admits env login row → row.account ≠ [] →
      w.badge v ≠ some (t, row.account) := fun hlogin hadmits hne =>
    unused_account hinv hanon hne
      (unclaimed_iff.mp hunclaimed _ _ _ hlogin hadmits hne)
  intro u v t t' account hne hu hv
  rcases h.origin hne hu with ⟨_, hold⟩ | ⟨login, row, hlogin, hadmits, hrow⟩
  · rcases h.origin hne hv with ⟨_, hold'⟩ | ⟨login, row, hlogin, hadmits, hrow⟩
    · exact hone u v _ _ account hne hold hold'
    · subst hrow
      exact absurd hold (hunused hlogin hadmits hne)
  · rcases h.origin hne hv with ⟨_, hold'⟩ | ⟨_, _, hlogin', _, _⟩
    · subst hrow
      exact absurd hold' (hunused hlogin hadmits hne)
    · rw [hlogin, Option.some.injEq, Prod.mk.injEq] at hlogin'
      exact hlogin'.1

/-- In every run whose logins are let in by rows that bear the name that was
sent, or a name that nobody uses, two sessions never have one account. -/
theorem one_session_per_account
    (h : (server env).ReachableWith (fun e w => w.spelled env e = true) w)
    {u v : SessionId} {s s' : UserSession} (hs : w.users u = some s)
    (hs' : w.users v = some s')
    (haccount : s.userInfo.account = s'.userInfo.account)
    (hne : s.userInfo.account ≠ []) : u = v := by
  have hone : w.OnePerAccount := h.invariant_of
    (I := World.OnePerAccount)
    (J := fun w => w.layout.Inv ∧ w.Anonymous)
    (fun hreach => ⟨reachable_inv hreach, reachable_anonymous hreach⟩)
    (fun _ _ _ _ _ _ hp => by cases hp)
    fun hJ hone henabled hspelled hstep =>
      (step_staged hJ.1 hJ.2 henabled hstep).onePerAccount hJ.1 hJ.2
        (unclaimed_of_spelled hspelled) hone
  have hv := badge_eq hs'
  rw [← haccount] at hv
  exact hone u v _ _ _ hne (badge_eq hs) hv

/-- Two users log in; the second may not take the account of the first. -/
theorem one_session_per_account_of_two : ∃ w,
    (server Client.env).ReachableWith
      (fun e w => w.spelled Client.env e = true) w ∧
    (∃ s, w.users 0 = some s ∧ s.userInfo.account = lit "a") ∧
    ∀ v s', w.users v = some s' → s'.userInfo.account = lit "a" → 0 = v := by
  obtain ⟨w, hreach, htest⟩ := Client.reachable_after
    (fun e w => w.spelled Client.env e = true)
    [ .accept 10, .accept 11, .read 0 (Client.login "a")
    , .read 1 (Client.login "a"), .read 1 (Client.login "b") ]
    (fun w => (w.users 0).any fun s : UserSession =>
      decide (s.userInfo.account = lit "a"))
    (by decide +kernel)
  obtain ⟨s, hs, haccount⟩ := (Option.any_eq_true _ _).mp htest
  have haccount := of_decide_eq_true haccount
  refine ⟨w, hreach, ⟨s, hs, haccount⟩, fun v s' hs' haccount' => ?_⟩
  exact one_session_per_account hreach hs hs' (haccount.trans haccount'.symm)
    (by rw [haccount]; decide +kernel)

/-! ## Live sessions -/

/-- No two sessions whose connections are open have one account. -/
def World.AccountsUnique (w : World) : Prop :=
  ∀ (fd k : Int) (u v : SessionId) (s s' : UserSession),
    w.fdSessionMap[fd]? = some u → w.fdSessionMap[k]? = some v →
    w.users u = some s → w.users v = some s' →
    s.userInfo.account = s'.userInfo.account → s.userInfo.account ≠ [] → u = v

theorem World.OnePerAccount.accountsUnique (h : w.OnePerAccount) :
    w.AccountsUnique := by
  intro fd k u v s s' _ _ hs hs' haccount hne
  have hv := badge_eq hs'
  rw [← haccount] at hv
  exact h u v _ _ _ hne (badge_eq hs) hv

/-- A login that is let in by a row whose name is in use shares it. -/
theorem login_shares {e : Event} {u : SessionId} {login : LogOnorOut}
    {row : UserRow} (hinv : w.layout.Inv) (hanon : w.Anonymous)
    (henabled : e.Enabled w) (h : World.step env e w = some w')
    (hlogin : w.loginOf env e = some (u, login))
    (hadmits : w.Admits env login row) (hne : row.account ≠ [])
    (htaken : getIndividualUser row.account w ≠ some true) :
    ¬ w'.AccountsUnique := by
  have hinv' := (step_spec hinv henabled h).inv
  have hanon' := (step_staged hinv hanon henabled h).anonymous hanon
  have hbadge := admitted_badge hinv hlogin hadmits h
  obtain ⟨data, _, _, s, rfl, _, hs, hauth, _, _⟩ := loginOf_read hlogin
  obtain ⟨k, v, t, hk, ht, haccount⟩ := getIndividualUser_taken
    (fun fd v hreg => by
      obtain ⟨t, ht, _⟩ := registered_session hinv.registry hreg
      exact ⟨t, ht⟩) htaken
  -- who is logging in has no account yet
  have hvu : v ≠ u := by
    rintro rfl
    rw [hs, Option.some.injEq] at ht
    subst ht
    refine hne (hanon v row.account ?_)
    rw [badge_eq hs, haccount]
    exact congrArg (fun state => some (state, row.account)) hauth
  obtain ⟨hk', hkept⟩ := (early_unnoticed hinv henabled rfl hs (Or.inl hauth)
    h).others v k hvu hk
  obtain ⟨fd, hfd⟩ : ∃ fd, w'.layout.registry fd = some u := by
    by_contra hnone
    have hout := unregistered_badge hinv' hanon'
      (fun fd hfd => hnone ⟨fd, hfd⟩) hbadge
    cases hout
  obtain ⟨s', hs', _⟩ := registered_session hinv'.registry hfd
  have haccount' : s'.userInfo.account = row.account := by
    rw [badge_eq hs', Option.some.injEq] at hbadge
    exact congrArg Prod.snd hbadge
  intro hunique
  exact hvu (hunique k fd v u t s' hk' hfd (hkept.trans ht) hs'
    (haccount.trans haccount'.symm) (by rw [haccount]; exact hne))

/-- In every run in which no login is let in by a row whose name is in use,
every live session has an account of its own; and then the next event keeps it
so exactly when it is no such login. -/
theorem accounts_unique_iff
    (h : (server env).ReachableWith (fun e w => w.unclaimed env e = true) w) :
    w.AccountsUnique ∧ ∀ e w', e.Enabled w → World.step env e w = some w' →
      (w'.AccountsUnique ↔ w.unclaimed env e = true) := by
  have hone : w.OnePerAccount := h.invariant_of
    (I := World.OnePerAccount)
    (J := fun w => w.layout.Inv ∧ w.Anonymous)
    (fun hreach => ⟨reachable_inv hreach, reachable_anonymous hreach⟩)
    (fun _ _ _ _ _ _ hp => by cases hp)
    fun hJ hone henabled hunclaimed hstep =>
      (step_staged hJ.1 hJ.2 henabled hstep).onePerAccount hJ.1 hJ.2
        hunclaimed hone
  have hinv := reachable_inv h
  have hanon := reachable_anonymous h
  refine ⟨hone.accountsUnique, fun e w' henabled hstep => ⟨fun hunique => ?_,
    fun hunclaimed => ((step_staged hinv hanon henabled hstep).onePerAccount
      hinv hanon hunclaimed hone).accountsUnique⟩⟩
  refine unclaimed_iff.mpr fun u login row hlogin hadmits hne => ?_
  by_contra htaken
  exact login_shares hinv hanon henabled hstep hlogin hadmits hne htaken
    hunique

/-! ## A collation that ignores the case -/

def lowerCase (c : UInt8) : UInt8 := if 65 ≤ c ∧ c ≤ 90 then c + 32 else c

/-- What counts in a name under the collation of `users_info`: neither the
case nor trailing blanks. -/
def collate (name : Bytes) : Bytes :=
  ((name.map lowerCase).reverse.dropWhile (· = 32)).reverse

/-- The rows for a name are equal to it under the collation. -/
def Env.Collates (env : Env) : Prop :=
  ∀ (w : World) (account : Bytes) (row : UserRow), 0 ∉ account →
    39 ∉ account → 92 ∉ account → account.length ≤ 200 →
    w.userRow env account = some row → collate row.account = collate account

/-- A table with the user `a`. -/
def userTable : List Bytes → SqlReply
  | [] => .error
  | sql :: log =>
      let users := lit "SELECT * FROM users_info WHERE account='"
      if users.isPrefixOf sql then
        let name := (sql.drop users.length).takeWhile (· ≠ 39)
        .users (if collate name = lit "a" then
          [⟨lit "a", lit "p", none, some 100, none, none⟩] else [])
      else Client.database (sql :: log)

def collated : Env := { Client.env with mysql := userTable }

theorem collated_collates : collated.Collates := by
  intro w account row hzero hquote _ hlength hrow
  have hend : lit "'" = [39] := by decide +kernel
  have hlit : (lit "SELECT * FROM users_info WHERE account='").length = 40 := by
    decide +kernel
  unfold World.userRow at hrow
  split at hrow
  · cases hrow
  · -- the statement is not cut, and the name in it is the one that was sent
    have hsql : snprintf 254 (lit "SELECT * FROM users_info WHERE account='" ++
        cString account ++ lit "'") =
        lit "SELECT * FROM users_info WHERE account='" ++ (account ++ [39]) := by
      rw [cString_eq hzero, List.append_assoc, hend, snprintf,
        List.take_of_length_le]
      simp only [List.length_append, hlit, List.length_singleton]
      omega
    have hprefix : (lit "SELECT * FROM users_info WHERE account='").isPrefixOf
        (lit "SELECT * FROM users_info WHERE account='" ++ (account ++ [39])) =
          true := List.isPrefixOf_iff_prefix.mpr (List.prefix_append _ _)
    have hname : (account ++ [39]).takeWhile (· ≠ 39) = account := by
      rw [List.takeWhile_append_of_pos, List.takeWhile_cons_of_neg (by simp),
        List.append_nil]
      intro c hc
      rw [decide_eq_true_eq]
      rintro rfl
      exact hquote hc
    rw [hsql] at hrow
    simp only [World.query, collated, userTable, hprefix, if_true,
      List.drop_left, hname] at hrow
    split at hrow
    · rename_i hsame
      cases hrow
      rw [hsame]
      decide +kernel
    · cases hrow

/-- Two clients of which the first is the user `a`; the second has tried to be
the same user. -/
def twoClients : List Event :=
  [ .accept 10, .accept 11, .read 0 (Client.login "a")
  , .read 1 (Client.login "a") ]

/-- The name `A` is in use by nobody, but the row that it lets in is. -/
theorem accounts_unique_iff_spelling : ∃ w w',
    World.step collated (.read 1 (Client.login "A")) w = some w' ∧
      w.AccountsUnique ∧ w.unclaimed collated (.read 1 (Client.login "A")) =
        false ∧ ¬ w'.AccountsUnique := by
  have hrun : (((server collated).run
      (fun e w => w.unclaimed collated e = true) twoClients World.init).any
        fun w => decide (Event.Enabled w (.read 1 (Client.login "A"))) &&
          (World.step collated (.read 1 (Client.login "A")) w).isSome &&
          !w.unclaimed collated (.read 1 (Client.login "A"))) = true := by
    decide +kernel
  obtain ⟨w, hw, htest⟩ := (Option.any_eq_true _ _).mp hrun
  simp only [Bool.and_eq_true, decide_eq_true_eq, Bool.not_eq_true'] at htest
  obtain ⟨⟨henabled, hsome⟩, hclaimed⟩ := htest
  obtain ⟨w', hstep⟩ := Option.isSome_iff_exists.mp hsome
  obtain ⟨hunique, hnext⟩ := accounts_unique_iff
    (Machine.reachableWith_of_run .start hw)
  refine ⟨w, w', hstep, hunique, hclaimed, fun hunique' => ?_⟩
  rw [(hnext _ w' henabled hstep).mp hunique'] at hclaimed
  cases hclaimed

/-- The user `a` logs in; the name `A` lets another client in as `a`. -/
theorem account_in_two_spellings :
    ¬ ∀ env, env.Collates → ∀ w, (server env).Reachable w →
      w.AccountsUnique := by
  intro hall
  have hrun : (((server collated).run (fun _ _ => True)
      (twoClients ++ [.read 1 (Client.login "A")]) World.init).any fun w =>
        decide (w.fdSessionMap[(10 : Int)]? = some 0) &&
        decide (w.fdSessionMap[(11 : Int)]? = some 1) &&
        ((w.users 0).any fun s => decide (s.userInfo.account = lit "a")) &&
        ((w.users 1).any fun s => decide (s.userInfo.account = lit "a"))) =
          true := by
    decide +kernel
  obtain ⟨w, hw, htest⟩ := (Option.any_eq_true _ _).mp hrun
  simp only [Bool.and_eq_true, decide_eq_true_eq] at htest
  obtain ⟨⟨⟨hreg₀, hreg₁⟩, h₀⟩, h₁⟩ := htest
  obtain ⟨s₀, hs₀, h₀⟩ := (Option.any_eq_true _ _).mp h₀
  obtain ⟨s₁, hs₁, h₁⟩ := (Option.any_eq_true _ _).mp h₁
  have h₀ := of_decide_eq_true h₀
  have hsame := hall collated collated_collates w
    (Machine.reachableWith_of_run .start hw) 10 11 0 1 s₀ s₁ hreg₀ hreg₁ hs₀ hs₁
    (h₀.trans (of_decide_eq_true h₁).symm) (by rw [h₀]; decide +kernel)
  exact absurd hsame (by decide)

end ChessServer
