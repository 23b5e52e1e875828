import ChessServer.Lib.OptionFold
import ChessServer.Model.Stages

/-!
# What a login looks up

The users that are online, and the row of `users_info`
(`getUsersInfoFromDB_row`).
-/

namespace ChessServer

variable {env : Env} {u : SessionId}

/-! ## Who is online -/

/-- Only the accounts of the registered sessions matter. -/
theorem getIndividualUser_congr (account : Bytes) {w w' : World}
    (hmap : w'.fdSessionMap = w.fdSessionMap)
    (haccount : ∀ v, (w'.users v).map (fun s => s.userInfo.account) =
      (w.users v).map fun s => s.userInfo.account) :
    getIndividualUser account w' = getIndividualUser account w := by
  have hsame : (fun v => (w'.users v).map
      fun s => s.userInfo.account == account) =
      fun v => (w.users v).map fun s => s.userInfo.account == account := by
    funext v
    have hv := congrArg (Option.map fun a => a == account) (haccount v)
    rwa [Option.map_map, Option.map_map] at hv
  unfold getIndividualUser
  simp only [congrFun hsame, hmap]

/-- Once somebody with the account was found, the loop is done. -/
theorem getIndividualUser_found {w : World} {account : Bytes}
    {l : List SessionId} {found : Bool}
    (h : l.foldlM (fun found v =>
      if found then some true
      else (w.users v).map fun s => s.userInfo.account == account) true =
        some found) : found = true := by
  induction l with
  | nil =>
      cases h
      rfl
  | cons v l ih => exact ih h

/-- An account that nobody is found to use is the account of no registered
session. -/
theorem getIndividualUser_free {w : World} {account : Bytes} {fd : Int}
    {v : SessionId} {s : UserSession}
    (hfree : getIndividualUser account w = some true)
    (hreg : w.fdSessionMap[fd]? = some v) (hs : w.users v = some s) :
    s.userInfo.account ≠ account := by
  have hmem : v ∈ w.fdSessionMap.toList.map Prod.snd :=
    List.mem_map.mpr ⟨(fd, v),
      Std.TreeMap.mem_toList_iff_getElem?_eq_some.mpr hreg, rfl⟩
  simp only [getIndividualUser, Option.bind_eq_bind,
    Option.bind_eq_some_iff, Option.some.injEq] at hfree
  obtain ⟨found, hfound, hnone⟩ := hfree
  generalize w.fdSessionMap.toList.map Prod.snd = l at hmem hfound
  induction l with
  | nil => exact absurd hmem List.not_mem_nil
  | cons x l ih =>
      rw [List.foldlM_cons] at hfound
      simp only [Bool.false_eq_true, if_false, Option.bind_eq_bind,
        Option.bind_eq_some_iff, Option.map_eq_some_iff] at hfound
      obtain ⟨other, ⟨t, ht, hother⟩, hrest⟩ := hfound
      cases other with
      | true =>
          have hin := getIndividualUser_found hrest
          rw [hin] at hnone
          cases hnone
      | false =>
          rcases List.mem_cons.mp hmem with hv | hv
          · subst hv
            rw [hs] at ht
            cases ht
            exact fun heq => by simp [heq] at hother
          · exact ih hv hrest

/-- An account that is found to be in use is the account of a registered
session. -/
theorem getIndividualUser_taken {w : World} {account : Bytes}
    (hsessions : ∀ (fd : Int) (v : SessionId), w.fdSessionMap[fd]? = some v →
      ∃ s, w.users v = some s)
    (htaken : getIndividualUser account w ≠ some true) :
    ∃ (fd : Int) (v : SessionId) (s : UserSession),
      w.fdSessionMap[fd]? = some v ∧ w.users v = some s ∧
        s.userInfo.account = account := by
  by_contra hnone
  obtain ⟨found, hfound, rfl⟩ := OptionFold.completes
    (P := fun found => found = false)
    (f := fun found v => if found then some true
      else (w.users v).map fun s => s.userInfo.account == account)
    (w.fdSessionMap.toList.map Prod.snd) rfl fun found v hv hfound => by
      subst hfound
      obtain ⟨⟨fd, x⟩, hmem, rfl⟩ := List.mem_map.mp hv
      have hreg : w.fdSessionMap[fd]? = some x :=
        Std.TreeMap.mem_toList_iff_getElem?_eq_some.mp hmem
      obtain ⟨s, hs⟩ := hsessions fd x hreg
      refine ⟨false, ?_, rfl⟩
      have hother : s.userInfo.account ≠ account := fun h =>
        hnone ⟨fd, x, s, hreg, hs, h⟩
      simp [hs, hother]
  refine htaken ?_
  unfold getIndividualUser
  rw [hfound]
  rfl

/-! ## The row of an account -/

/-- The row depends on what was asked before. -/
theorem userRow_congr (account : Bytes) {w w' : World}
    (hsql : w'.sqlLog = w.sqlLog) :
    w'.userRow env account = w.userRow env account := by
  unfold World.userRow World.query
  rw [hsql]

/-- A row does not say what the picture is. -/
theorem fetchUserRow_headPhoto {info info' : UsersInfo} {row : UserRow}
    (h : fetchUserRow info row = some info') :
    info'.headPhoto = info.headPhoto := by
  unfold fetchUserRow at h
  obtain ⟨score, _, rfl⟩ := Option.map_eq_some_iff.mp h
  rfl

/-- The rows of `users_info` carry no picture. -/
theorem fetchUserRows_headPhoto {info info' : UsersInfo} {rows : List UserRow}
    (h : rows.foldlM fetchUserRow info = some info') :
    info'.headPhoto = info.headPhoto :=
  OptionFold.rel_of_step (R := fun info info' : UsersInfo =>
      info'.headPhoto = info.headPhoto) (fun _ => rfl)
    (fun h₁ h₂ => h₂.trans h₁) fetchUserRow_headPhoto rows h

/-- An account that is not found leaves the session's own, and no account
changes the picture. -/
theorem getUsersInfoFromDB_keeps {account : Bytes} {info info' : UsersInfo}
    {found : Bool} {w w' : World}
    (h : getUsersInfoFromDB env account info w = some (found, info', w')) :
    info'.headPhoto = info.headPhoto ∧ w'.users = w.users ∧
      (found = false → info' = info) := by
  unfold getUsersInfoFromDB at h
  split at h
  · cases h
    exact ⟨rfl, rfl, fun _ => rfl⟩
  · simp only [mysqlDbQuery, Option.bind_eq_bind,
      Option.bind_eq_some_iff] at h
    obtain ⟨r, hr, hfound⟩ := h
    split at hr
    · rename_i rows _
      obtain ⟨info₁, hrows, hr⟩ := Option.bind_eq_some_iff.mp hr
      cases hr
      cases hfound
      refine ⟨fetchUserRows_headPhoto hrows, rfl, fun hnone => ?_⟩
      have hempty : rows = [] := by
        have hlen := of_decide_eq_false hnone
        exact List.eq_nil_of_length_eq_zero (by omega)
      subst hempty
      cases hrows
      rfl
    · cases hr
      cases hfound
      exact ⟨rfl, rfl, fun _ => rfl⟩

/-- The row is what is known of the user. -/
structure FetchedFrom (row : UserRow) (info : UsersInfo) : Prop where
  account : info.account = row.account
  password : info.password = row.password
  score : row.score.map Int32.toUInt32 = some info.score

/-- The last row of several says who the user is. -/
theorem fetchUserRows_last {rows : List UserRow} {row : UserRow}
    {info info' : UsersInfo} (hlast : rows.getLast? = some row)
    (h : rows.foldlM fetchUserRow info = some info') :
    FetchedFrom row info' := by
  induction rows generalizing info with
  | nil => cases hlast
  | cons x rows ih =>
      rw [List.foldlM_cons] at h
      obtain ⟨info₁, hfetch, hrest⟩ := Option.bind_eq_some_iff.mp h
      cases rows with
      | nil =>
          cases hlast
          cases hrest
          obtain ⟨score, hscore, rfl⟩ := Option.map_eq_some_iff.mp hfetch
          refine ⟨rfl, rfl, ?_⟩
          rw [show ([x].getLast _).score = x.score from rfl, hscore,
            Option.map_some]
      | cons y rows =>
          rw [List.getLast?_cons_cons] at hlast
          exact ih hlast hrest

/-- The last row of an answer counts. -/
theorem userRow_eq {account : Bytes} {rows : List UserRow} {w : World}
    (haccount : account ≠ [])
    (hreply : (w.query env (snprintf 254
      (lit "SELECT * FROM users_info WHERE account='" ++ cString account ++
        lit "'"))).1 = .users rows) :
    w.userRow env account = rows.getLast? := by
  unfold World.userRow
  rw [if_neg haccount]
  simp only [hreply]

/-- An account that is found has a row. -/
theorem getUsersInfoFromDB_row {account : Bytes} {info info' : UsersInfo}
    {w w' : World}
    (h : getUsersInfoFromDB env account info w = some (true, info', w')) :
    ∃ row, w.userRow env account = some row ∧ FetchedFrom row info' := by
  unfold getUsersInfoFromDB at h
  split at h
  · cases h
  · rename_i haccount
    simp only [mysqlDbQuery, Option.bind_eq_bind,
      Option.bind_eq_some_iff] at h
    obtain ⟨r, hr, hfound⟩ := h
    split at hr
    · rename_i rows hreply
      have hrow := userRow_eq haccount hreply
      obtain ⟨info₁, hfetch, hr⟩ := Option.bind_eq_some_iff.mp hr
      cases hr
      injection hfound with hfound
      injection hfound with hsome hrest
      cases hrest
      cases hlast : rows.getLast? with
      | none =>
          rw [List.getLast?_eq_none_iff.mp hlast] at hsome
          exact absurd (of_decide_eq_true hsome) (Int.lt_irrefl 0)
      | some row =>
          exact ⟨row, hrow.trans hlast, fetchUserRows_last hlast hfetch⟩
    · cases hr
      cases hfound

/-- One that is not found has none. -/
theorem getUsersInfoFromDB_none {account : Bytes} {info info' : UsersInfo}
    {w w' : World}
    (h : getUsersInfoFromDB env account info w = some (false, info', w')) :
    w.userRow env account = none := by
  unfold getUsersInfoFromDB at h
  split at h
  · rename_i haccount
    unfold World.userRow
    rw [if_pos haccount]
  · rename_i haccount
    simp only [mysqlDbQuery, Option.bind_eq_bind,
      Option.bind_eq_some_iff] at h
    obtain ⟨r, hr, hfound⟩ := h
    split at hr
    · rename_i rows hreply
      obtain ⟨info₁, _, hr⟩ := Option.bind_eq_some_iff.mp hr
      cases hr
      injection hfound with hfound
      injection hfound with hnone _
      have hempty : rows = [] := by
        have hlen := of_decide_eq_false hnone
        exact List.eq_nil_of_length_eq_zero (by omega)
      rw [userRow_eq haccount hreply, hempty, List.getLast?_nil]
    · rename_i hreply
      unfold World.userRow
      rw [if_neg haccount]
      split
      · rename_i rows hrows
        exact absurd hrows (hreply rows)
      · rfl

/-! ## Pictures and versions -/

theorem getHeadImageFromDB_users (env : Env) (account data : Bytes)
    (w : World) :
    (getHeadImageFromDB env account data w).2.2.users = w.users := by
  unfold getHeadImageFromDB
  dsimp only
  split <;> rfl

theorem getImageVersionInfoFromDB_users (env : Env) (info : ImageVersions)
    (w : World) :
    (getImageVersionInfoFromDB env info w).2.2.users = w.users := by
  unfold getImageVersionInfoFromDB
  dsimp only
  split <;> rfl

end ChessServer
