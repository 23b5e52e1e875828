import ChessServer.Lib.Utf8
import ChessServer.Model.Client
import ChessServer.Model.Statements

/-!
# Statements with strings in them

The account statements are printed into buffers of 255 and 512 bytes with
their arguments between quotes, as they are.  `UpdateHeadImageToDB` is the
only one that escapes (`sql_text_faithful`).
-/

namespace ChessServer

open SqlText (Token lex render chars plain Shape Plain)

/-! ## The six statements -/

theorem quote_not_mem_decimal (n : UInt32) : 39 ∉ decimal n := by
  intro h
  rcases Utf8.mem_toUTF8_int h with h | h
  · exact absurd h (by decide)
  · exact absurd h.1 (by decide)

theorem getUsersInfo_asks {env : Env} {account : Bytes}
    {info info' : UsersInfo} {ret : Bool} {w w' : World} (hnul : 0 ∉ account)
    (hne : account ≠ [])
    (h : getUsersInfoFromDB env account info w = some (ret, info', w')) :
    w'.Asks (userShape account) ↔
      (render (userShape account)).length ≤ 253 ∧ plain account = true := by
  have hshape : Shape (userShape account) :=
    shape_chars (by decide +kernel) trivial
  have htext : snprintf 254 (lit "SELECT * FROM users_info WHERE account='" ++
      cString account ++ lit "'") = snprintf 254 (render (userShape account)) := by
    rw [cString_eq hnul, userShape, render_template,
      show lit "SELECT * FROM users_info WHERE account='" =
        lit "SELECT * FROM users_info WHERE account=" ++ [39] by decide +kernel,
      show lit "'" = [39] by decide +kernel]
    simp [render]
  have hplain : Plain (userShape account) ↔ plain account = true := by
    simp [userShape, plain_append, plain_chars, plain_str, plain_nil]
  have hsql : w'.sqlLog.head? = some (snprintf 254
      (lit "SELECT * FROM users_info WHERE account='" ++ cString account ++
        lit "'")) := by
    simp only [getUsersInfoFromDB, if_neg hne, mysqlDbQuery, World.query,
      Option.bind_eq_bind, Option.bind_eq_some_iff] at h
    obtain ⟨⟨rows, info₁, w₁⟩, hquery, h⟩ := h
    cases h
    split at hquery
    · simp only [Option.bind_eq_some_iff] at hquery
      obtain ⟨_, _, hquery⟩ := hquery
      cases hquery
      rfl
    · cases hquery
      rfl
  rw [asks_iff 254 hshape hsql htext, hplain]

theorem updateColumn_asks {column : String} {account value : Bytes}
    {w : World} (hcolumn : 39 ∉ lit column) (ha : 0 ∉ account)
    (hv : 0 ∉ value)
    (hsql : w.sqlLog.head? = some (updateColumnSql column account value)) :
    w.Asks (updateShape column account value) ↔
      updateFits column account value := by
  rw [← updateColumn_reads hcolumn ha hv]
  constructor
  · rintro ⟨sql, hlast, hlex⟩
    rw [hsql, Option.some.injEq] at hlast
    rw [hlast]
    exact hlex
  · intro hlex
    exact ⟨_, hsql, hlex⟩

/-- No field has a NUL. -/
structure UsersInfo.NoNul (info : UsersInfo) : Prop where
  account : 0 ∉ info.account
  password : 0 ∉ info.password
  email : 0 ∉ info.email
  headPhoto : 0 ∉ info.headPhoto
  userName : 0 ∉ info.userName
  phone : 0 ∉ info.phone

/-- Every string field is plain. -/
structure UsersInfo.Plain (info : UsersInfo) : Prop where
  account : plain info.account = true
  password : plain info.password = true
  email : plain info.email = true
  headPhoto : plain info.headPhoto = true
  userName : plain info.userName = true
  phone : plain info.phone = true

theorem insertShape_shape (info : UsersInfo) : Shape (insertShape info) := by
  have hcomma : 39 ∉ lit "," := by decide +kernel
  have hnumber : 39 ∉ lit "," ++ decimal info.score ++ lit "," := by
    simp only [List.mem_append, not_or]
    exact ⟨⟨hcomma, quote_not_mem_decimal _⟩, hcomma⟩
  have hsome : lit "," ≠ [] := by decide +kernel
  have hend : Shape (chars (lit ")")) := by
    have h := shape_chars (s := lit ")") (by decide +kernel)
      (show Shape [] from trivial)
    rwa [List.append_nil] at h
  have hlast : Shape (.str info.phone :: chars (lit ")")) := by
    have h := shape_str (s := info.phone) (t := lit ")") (by decide +kernel)
      (by rwa [List.append_nil] : Shape (chars (lit ")") ++ []))
    rwa [List.append_nil] at h
  refine shape_chars (by decide +kernel) ?_
  refine shape_str hsome (shape_chars hcomma ?_)
  refine shape_str hsome (shape_chars hcomma ?_)
  refine shape_str (by simp [hsome]) (shape_chars hnumber ?_)
  refine shape_str hsome (shape_chars hcomma ?_)
  exact shape_str hsome (shape_chars hcomma hlast)

theorem insertUsersInfo_asks {env : Env} {info : UsersInfo} {w : World}
    (hnul : info.NoNul) :
    (insertUsersInfoToDB env info w).2.Asks (insertShape info) ↔
      (render (insertShape info)).length ≤ 510 ∧ info.Plain := by
  have hplain : SqlText.Plain (insertShape info) ↔ info.Plain := by
    simp only [insertShape, plain_append, plain_chars, plain_str, true_and,
      and_true]
    constructor
    · rintro ⟨h₁, h₂, h₃, h₄, h₅, h₆⟩
      exact ⟨h₁, h₂, h₃, h₄, h₅, h₆⟩
    · rintro ⟨h₁, h₂, h₃, h₄, h₅, h₆⟩
      exact ⟨h₁, h₂, h₃, h₄, h₅, h₆⟩
  rw [asks_iff 511 (insertShape_shape info) rfl ?_, hplain]
  simp only [insertShape, render_template, SqlText.render_chars,
    cString_eq hnul.account, cString_eq hnul.password, cString_eq hnul.email,
    cString_eq hnul.headPhoto, cString_eq hnul.userName,
    cString_eq hnul.phone]
  rw [show lit "INSERT INTO users_info (account,password,email,score,head_photo,user_name,phone) VALUES ('" =
      lit "INSERT INTO users_info (account,password,email,score,head_photo,user_name,phone) VALUES (" ++
        [39] by decide +kernel,
    show lit "','" = 39 :: (lit "," ++ [39]) by decide +kernel,
    show lit "'," = 39 :: lit "," by decide +kernel,
    show lit ",'" = lit "," ++ [39] by decide +kernel,
    show lit "')" = 39 :: lit ")" by decide +kernel]
  simp

/-! ## All of them -/

/-- Each statement is read as intended, with literals that are the given
strings, exactly when its text fits into the buffer and the strings have no
quote, and no backslash but in `\%` and `\_`. -/
theorem sql_text_faithful (env : Env) (w : World) :
    (∀ account info ret info' w', 0 ∉ account → account ≠ [] →
      getUsersInfoFromDB env account info w = some (ret, info', w') →
      (w'.Asks (userShape account) ↔
        (render (userShape account)).length ≤ 253 ∧ plain account = true)) ∧
    (∀ info : UsersInfo, info.NoNul →
      ((insertUsersInfoToDB env info w).2.Asks (insertShape info) ↔
        (render (insertShape info)).length ≤ 510 ∧ info.Plain)) ∧
    ∀ account value, 0 ∉ account → 0 ∉ value →
      ((updateUserPasswordToDB env account value w).2.Asks
        (updateShape "password" account value) ↔
          updateFits "password" account value) ∧
      ((updateUserNameToDB env account value w).2.Asks
        (updateShape "user_name" account value) ↔
          updateFits "user_name" account value) ∧
      ((updateUserPhoneToDB env account value w).2.Asks
        (updateShape "phone" account value) ↔
          updateFits "phone" account value) ∧
      ((updateUserEmailToDB env account value w).2.Asks
        (updateShape "email" account value) ↔
          updateFits "email" account value) := by
  refine ⟨fun account info ret info' w' ha hne h => getUsersInfo_asks ha hne h,
    fun info hnul => insertUsersInfo_asks hnul,
    fun account value ha hv => ⟨?_, ?_, ?_, ?_⟩⟩
  · exact updateColumn_asks (by decide +kernel) ha hv rfl
  · exact updateColumn_asks (by decide +kernel) ha hv rfl
  · exact updateColumn_asks (by decide +kernel) ha hv rfl
  · exact updateColumn_asks (by decide +kernel) ha hv rfl

theorem sql_text_faithful_plain :
    (∃ w', World.Asks w' (userShape (lit "a"))) ∧
      (insertUsersInfoToDB Client.env { account := lit "a" }
        World.init).2.Asks (insertShape { account := lit "a" }) ∧
      (updateUserPasswordToDB Client.env (lit "a") (lit "p")
        World.init).2.Asks (updateShape "password" (lit "a") (lit "p")) := by
  obtain ⟨hselect, hinsert, hupdate⟩ :=
    sql_text_faithful Client.env World.init
  refine ⟨?_, ?_, ?_⟩
  · obtain ⟨⟨ret, info, w'⟩, h⟩ := Option.isSome_iff_exists.mp
      (show (getUsersInfoFromDB Client.env (lit "a") {} World.init).isSome =
        true by decide +kernel)
    exact ⟨w', (hselect (lit "a") {} ret info w' (by decide +kernel)
      (by decide +kernel) h).mpr (by decide +kernel)⟩
  · refine (hinsert { account := lit "a" } ⟨?_, ?_, ?_, ?_, ?_, ?_⟩).mpr
      ⟨by decide +kernel, ?_, ?_, ?_, ?_, ?_, ?_⟩
    all_goals decide +kernel
  · exact (hupdate (lit "a") (lit "p") (by decide +kernel)
      (by decide +kernel)).1.mpr ⟨by decide +kernel, by decide +kernel,
        by decide +kernel⟩

/-- An account with a quote ends its literal early. -/
theorem sql_text_injected :
    ¬ ∀ (env : Env) (w : World) (account : Bytes) (info : UsersInfo) (ret : Bool)
      (info' : UsersInfo) (w' : World), 0 ∉ account → account ≠ [] →
      getUsersInfoFromDB env account info w = some (ret, info', w') →
      w'.Asks (userShape account) := by
  intro hall
  obtain ⟨⟨ret, info, w'⟩, h⟩ := Option.isSome_iff_exists.mp
    (show (getUsersInfoFromDB Client.env (lit "x' OR '1'='1") {}
      World.init).isSome = true by decide +kernel)
  have hnul : 0 ∉ lit "x' OR '1'='1" := by decide +kernel
  have hne : lit "x' OR '1'='1" ≠ [] := by decide +kernel
  have hasks := hall Client.env World.init _ {} ret info w' hnul hne h
  exact absurd ((getUsersInfo_asks hnul hne h).mp hasks).2 (by decide +kernel)

end ChessServer
