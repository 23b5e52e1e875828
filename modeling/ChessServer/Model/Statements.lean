import ChessServer.Lib.SqlText
import ChessServer.Server.HeadImage

/-!
# What statements say

A statement is a text.  Here is what the ones that carry strings are meant to
say, as the tokens that SQL reads in them, when they do say it
(`updateColumn_reads`), and what `mysql_real_escape_string` does for the one
statement that uses it (`headImage_reads`).
-/

namespace ChessServer

open SqlText (Token lex render chars plain Shape Plain)

/-! ## Shapes -/

/-- The intended statement of `GetUsersInfoFromDB`. -/
def userShape (account : Bytes) : List Token :=
  chars (lit "SELECT * FROM users_info WHERE account=") ++ [.str account]

/-- The intended statement of the members that update one column. -/
def updateShape (column : String) (account value : Bytes) : List Token :=
  chars (lit "UPDATE users_info SET " ++ lit column ++ lit "=") ++
    .str value :: (chars (lit " WHERE account=") ++ [.str account])

/-- The intended statement of `InsertUsersInfoToDB`. -/
def insertShape (info : UsersInfo) : List Token :=
  chars (lit "INSERT INTO users_info (account,password,email,score,head_photo,user_name,phone) VALUES (") ++
    .str info.account :: (chars (lit ",") ++
    .str info.password :: (chars (lit ",") ++
    .str info.email :: (chars (lit "," ++ decimal info.score ++ lit ",") ++
    .str info.headPhoto :: (chars (lit ",") ++
    .str info.userName :: (chars (lit ",") ++
    .str info.phone :: chars (lit ")"))))))

/-- The statement that was sent last is read as these tokens. -/
def World.Asks (w : World) (toks : List Token) : Prop :=
  ∃ sql, w.sqlLog.head? = some sql ∧ lex none sql = some toks

/-! ## Templates -/

theorem shape_chars {s : Bytes} {toks : List Token} (hs : 39 ∉ s)
    (h : Shape toks) : Shape (chars s ++ toks) := by
  induction s with
  | nil => exact h
  | cons c s ih =>
      rw [List.mem_cons, not_or] at hs
      exact ⟨fun hc => hs.1 hc.symm, ih hs.2⟩

/-- A literal is followed by other text. -/
theorem shape_str {s t : Bytes} {toks : List Token} (ht : t ≠ [])
    (h : Shape (chars t ++ toks)) : Shape (.str s :: (chars t ++ toks)) := by
  cases t with
  | nil => exact absurd rfl ht
  | cons c t => exact h

theorem plain_append {toks toks' : List Token} :
    Plain (toks ++ toks') ↔ Plain toks ∧ Plain toks' := by
  constructor
  · exact fun h => ⟨fun s hs => h s (List.mem_append_left _ hs),
      fun s hs => h s (List.mem_append_right _ hs)⟩
  · rintro ⟨h, h'⟩ s hs
    rcases List.mem_append.mp hs with hs | hs
    · exact h s hs
    · exact h' s hs

theorem plain_chars (s : Bytes) : Plain (chars s) := by
  intro t ht
  simp [chars] at ht

theorem plain_str {s : Bytes} {toks : List Token} :
    Plain (.str s :: toks) ↔ plain s = true ∧ Plain toks := by
  constructor
  · exact fun h => ⟨h s List.mem_cons_self, h.tail⟩
  · rintro ⟨hs, h⟩ t ht
    rcases List.mem_cons.mp ht with heq | ht
    · cases heq
      exact hs
    · exact h t ht

theorem plain_nil : Plain [] := nofun

/-- Text and literals in turn. -/
theorem render_template (s t : Bytes) (toks : List Token) :
    render (chars s ++ .str t :: toks) = s ++ 39 :: (t ++ 39 :: render toks) := by
  rw [SqlText.render_append, SqlText.render_chars]
  rfl

/-- A statement whose text is the first `size - 1` bytes of a template. -/
theorem asks_iff (size : Nat) {w : World} {sql : Bytes} {toks : List Token}
    (hshape : Shape toks) (hsql : w.sqlLog.head? = some sql)
    (htext : sql = snprintf size (render toks)) :
    w.Asks toks ↔ (render toks).length ≤ size - 1 ∧ Plain toks := by
  rw [← SqlText.lex_take_iff hshape (size - 1)]
  constructor
  · rintro ⟨sql', hsql', hlex⟩
    rw [hsql, Option.some.injEq] at hsql'
    rw [← hsql', htext] at hlex
    exact hlex
  · intro hlex
    exact ⟨sql, hsql, by rw [htext]; exact hlex⟩

/-! ## The update of a column -/

/-- When the update of one column is read as intended. -/
def updateFits (column : String) (account value : Bytes) : Prop :=
  (render (updateShape column account value)).length ≤ 253 ∧
    plain value = true ∧ plain account = true

instance (column : String) (account value : Bytes) :
    Decidable (updateFits column account value) :=
  inferInstanceAs (Decidable (_ ∧ _ ∧ _))

theorem updateShape_shape {column : String} (hcolumn : 39 ∉ lit column)
    (account value : Bytes) : Shape (updateShape column account value) := by
  have hprefix : 39 ∉ lit "UPDATE users_info SET " ++ lit column ++ lit "=" := by
    have hfirst : 39 ∉ lit "UPDATE users_info SET " := by decide +kernel
    have hlast : 39 ∉ lit "=" := by decide +kernel
    simp only [List.mem_append, not_or]
    exact ⟨⟨hfirst, hcolumn⟩, hlast⟩
  refine shape_chars hprefix (shape_str (by decide +kernel) ?_)
  exact shape_chars (by decide +kernel) trivial

/-- The text is the beginning of the template. -/
theorem updateColumnSql_eq {column : String} {account value : Bytes}
    (ha : 0 ∉ account) (hv : 0 ∉ value) :
    updateColumnSql column account value =
      snprintf 254 (render (updateShape column account value)) := by
  rw [updateColumnSql, cString_eq ha, cString_eq hv, updateShape,
    render_template, render_template,
    show lit "='" = lit "=" ++ [39] by decide +kernel,
    show lit "' WHERE account='" = 39 :: (lit " WHERE account=" ++ [39]) by
      decide +kernel,
    show lit "'" = [39] by decide +kernel]
  simp [render]

theorem updateColumnSql_cString (column : String) (account value : Bytes) :
    updateColumnSql column account value =
      updateColumnSql column (cString account) (cString value) := by
  rw [updateColumnSql, updateColumnSql, cString_eq (zero_not_mem_cString _),
    cString_eq (zero_not_mem_cString _)]

theorem length_updateShape (column : String) (account value : Bytes) :
    (render (updateShape column account value)).length =
      (lit column).length + account.length + value.length + 42 := by
  have hset : (lit "UPDATE users_info SET ").length = 22 := by decide +kernel
  have hwhere : (lit " WHERE account=").length = 15 := by decide +kernel
  have heq : (lit "=").length = 1 := by decide +kernel
  simp only [updateShape, render_template, render, List.length_append,
    List.length_cons, List.length_nil, hset, hwhere, heq]
  omega

/-- The statement is read as intended exactly when it fits. -/
theorem updateColumn_reads {column : String} {account value : Bytes}
    (hcolumn : 39 ∉ lit column) (ha : 0 ∉ account) (hv : 0 ∉ value) :
    lex none (updateColumnSql column account value) =
        some (updateShape column account value) ↔
      updateFits column account value := by
  have hplain : Plain (updateShape column account value) ↔
      plain value = true ∧ plain account = true := by
    simp [updateShape, plain_append, plain_chars, plain_str, plain_nil]
  rw [updateColumnSql_eq ha hv, snprintf,
    SqlText.lex_take_iff (updateShape_shape hcolumn account value), hplain,
    updateFits]

/-- Otherwise a NUL cuts a string off. -/
theorem updateColumn_reads_iff {column : String} {account value : Bytes}
    (hcolumn : 39 ∉ lit column) :
    lex none (updateColumnSql column account value) =
        some (updateShape column account value) ↔
      0 ∉ account ∧ 0 ∉ value ∧ updateFits column account value := by
  constructor
  · intro h
    have hlen := SqlText.length_render_le h
    rw [updateColumnSql_cString, updateColumnSql_eq (zero_not_mem_cString _)
      (zero_not_mem_cString _), snprintf, List.length_take,
      length_updateShape, length_updateShape] at hlen
    have haccount := length_cString_le account
    have hvalue := length_cString_le value
    have ha : 0 ∉ account := zero_not_mem_of_length (by omega)
    have hv : 0 ∉ value := zero_not_mem_of_length (by omega)
    exact ⟨ha, hv, (updateColumn_reads hcolumn ha hv).mp h⟩
  · rintro ⟨ha, hv, hfits⟩
    exact (updateColumn_reads hcolumn ha hv).mpr hfits

/-! ## The update of a picture -/

/-- The bytes that `mysql_real_escape_string` escapes. -/
def escaped (c : UInt8) : Bool := [0, 10, 13, 26, 34, 39, 92].contains c

/-- What is documented of `mysql_real_escape_string`: every byte it escapes
takes two, and its result stands for the data in a literal. -/
structure EscapesString (escape : Bytes → Bytes) : Prop where
  length : ∀ data,
    (escape data).length = data.length + data.countP escaped
  read : ∀ data before text, lex (some before) (escape data ++ text) =
    lex (some (before ++ data)) text

/-- How a statement for an account ends. -/
def whereShape (account : Bytes) : List Token :=
  chars (lit " WHERE account=") ++ [.str account]

theorem whereShape_shape (account : Bytes) : Shape (whereShape account) :=
  shape_chars (by decide +kernel) trivial

theorem plain_whereShape {account : Bytes} :
    Plain (whereShape account) ↔ plain account = true := by
  simp [whereShape, plain_append, plain_chars, plain_str, plain_nil]

theorem length_whereShape (account : Bytes) :
    (render (whereShape account)).length = account.length + 17 := by
  have hwhere : (lit " WHERE account=").length = 15 := by decide +kernel
  simp only [whereShape, render_template, render, List.length_append,
    List.length_cons, List.length_nil, hwhere]
  omega

theorem where_reads_iff {account : Bytes} :
    lex none (render (whereShape (cString account))) =
        some (whereShape account) ↔
      0 ∉ account ∧ plain account = true := by
  constructor
  · intro h
    have hlen := SqlText.length_render_le h
    rw [length_whereShape, length_whereShape] at hlen
    have ha : 0 ∉ account := zero_not_mem_of_length (by omega)
    rw [cString_eq ha, SqlText.lex_render_iff (whereShape_shape account),
      plain_whereShape] at h
    exact ⟨ha, h⟩
  · rintro ⟨ha, hplain⟩
    rw [cString_eq ha, SqlText.lex_render_iff (whereShape_shape account),
      plain_whereShape]
    exact hplain

/-- A picture is read as it is, whatever it is. -/
theorem headImage_lex {env : Env}
    (hescape : EscapesString env.mysqlRealEscapeString)
    (account data : Bytes) :
    lex none (headImageSelectCmd env account data).text =
      (lex none (render (whereShape (cString account)))).map fun toks =>
        chars (lit "UPDATE users_info SET head_photo=") ++ .str data :: toks := by
  have htext : (headImageSelectCmd env account data).text =
      lit "UPDATE users_info SET head_photo=" ++
        39 :: (env.mysqlRealEscapeString data ++
          39 :: render (whereShape (cString account))) := by
    have hwhere : lit " WHERE account='" = lit " WHERE account=" ++ [39] := by
      decide +kernel
    have hquote : lit "'" = [39] := by decide +kernel
    simp only [headImageSelectCmd, Cursor.text_puts, Cursor.text_putc,
      Cursor.text_start, whereShape, render_template, render, hwhere, hquote,
      List.nil_append, List.append_assoc, List.cons_append]
  obtain ⟨rest, hrest⟩ : ∃ rest,
      render (whereShape (cString account)) = 32 :: rest := by
    rw [whereShape, render_template, show lit " WHERE account=" =
      32 :: lit "WHERE account=" by decide +kernel]
    exact ⟨_, rfl⟩
  rw [htext, SqlText.lex_chars (by decide +kernel), lex, if_pos rfl,
    hescape.read, List.nil_append, hrest, SqlText.lex_close data (by decide),
    Option.map_map]
  rfl

theorem headImage_reads_iff {env : Env}
    (hescape : EscapesString env.mysqlRealEscapeString)
    {account data : Bytes} :
    lex none (headImageSelectCmd env account data).text =
        some (updateShape "head_photo" account data) ↔
      0 ∉ account ∧ plain account = true := by
  have hprefix : lit "UPDATE users_info SET " ++ lit "head_photo" ++ lit "=" =
      lit "UPDATE users_info SET head_photo=" := by decide +kernel
  have hshape : updateShape "head_photo" account data =
      chars (lit "UPDATE users_info SET head_photo=") ++
        .str data :: whereShape account := by
    rw [updateShape, hprefix, whereShape]
  rw [headImage_lex hescape, hshape, ← where_reads_iff,
    Option.map_eq_some_iff]
  constructor
  · rintro ⟨toks, htoks, heq⟩
    rw [List.append_cancel_left_eq, List.cons.injEq] at heq
    rw [htoks, heq.2]
  · intro h
    exact ⟨_, h, rfl⟩

end ChessServer
