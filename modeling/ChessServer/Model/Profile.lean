import ChessServer.Lib.WriteThrough
import ChessServer.Model.Statements
import ChessServer.Server.States

/-!
# The columns that a user changes

`UpdateUserInfos` writes up to five columns of the user's row, and the
session keeps a copy of each.  A column is written when the message brings a
value that differs from the session's copy; a picture is written whenever it
is not empty.  What reaches the row is the value that the statement carries,
which is the one that was assigned when it fits (`Column.carried_sql`).
-/

namespace ChessServer

open WriteThrough
open SqlText (Token lex chars plain)

/-- The columns of `users_info` that `UpdateUserInfos` writes. -/
inductive Column where
  | userName
  | password
  | email
  | phone
  | headPhoto
  deriving DecidableEq

/-- In the order of the source. -/
def Column.all : List Column :=
  [.userName, .password, .email, .phone, .headPhoto]

/-- The values of the columns. -/
abbrev Profile := Column → Bytes

/-- What a session knows of its row. -/
def UsersInfo.profile (info : UsersInfo) : Profile
  | .userName => info.userName
  | .password => info.password
  | .email => info.email
  | .phone => info.phone
  | .headPhoto => info.headPhoto

namespace Column

/-- The assignment to the session's copy. -/
def set : Column → Bytes → UsersInfo → UsersInfo
  | .userName, value, info => { info with userName := value }
  | .password, value, info => { info with password := value }
  | .email, value, info => { info with email := value }
  | .phone, value, info => { info with phone := value }
  | .headPhoto, value, info => { info with headPhoto := value }

/-- The `WorkThread` member that writes the column. -/
def toDB (env : Env) : Column → Bytes → Bytes → World → Bool × World
  | .userName => updateUserNameToDB env
  | .password => updateUserPasswordToDB env
  | .email => updateUserEmailToDB env
  | .phone => updateUserPhoneToDB env
  | .headPhoto => updateHeadImageToDB env

/-- Its name in the table. -/
def name : Column → String
  | .userName => "user_name"
  | .password => "password"
  | .email => "email"
  | .phone => "phone"
  | .headPhoto => "head_photo"

/-- Its statement. -/
def sql (env : Env) (account value : Bytes) : Column → Bytes
  | .userName => updateColumnSql "user_name" account value
  | .password => updateColumnSql "password" account value
  | .email => updateColumnSql "email" account value
  | .phone => updateColumnSql "phone" account value
  | .headPhoto => (headImageSelectCmd env account value).text

/-- What the statement is meant to say. -/
def shape (account value : Bytes) (c : Column) : List Token :=
  updateShape c.name account value

/-- The value that a statement carries for the column, if it is an update of
it in the row of the account. -/
def carried (account sql : Bytes) (c : Column) : Option Bytes :=
  (lex none sql).bind fun toks =>
    (toks.findSome? Token.literal).filter fun value =>
      toks = c.shape account value

/-- The value and the account survive the statement: a picture is escaped, the
other columns are printed as they are. -/
def Fits (account value : Bytes) : Column → Prop
  | .headPhoto => 0 ∉ account ∧ plain account = true
  | c => 0 ∉ account ∧ 0 ∉ value ∧ updateFits c.name account value

instance : (c : Column) → (account value : Bytes) →
    Decidable (c.Fits account value)
  | .headPhoto, _, _ => inferInstanceAs (Decidable (_ ∧ _))
  | .userName, _, _ => inferInstanceAs (Decidable (_ ∧ _ ∧ _))
  | .password, _, _ => inferInstanceAs (Decidable (_ ∧ _ ∧ _))
  | .email, _, _ => inferInstanceAs (Decidable (_ ∧ _ ∧ _))
  | .phone, _, _ => inferInstanceAs (Decidable (_ ∧ _ ∧ _))

/-- A value is worth writing. -/
def writes : Column → Bytes → Bytes → Bool
  | .headPhoto, _, image => decide (0 < image.length)
  | _, old, value => value != old

theorem profile_set (c : Column) (value : Bytes) (info : UsersInfo) :
    (c.set value info).profile = Function.update info.profile c value := by
  funext c'
  cases c <;> cases c' <;> rfl

theorem account_set (c : Column) (value : Bytes) (info : UsersInfo) :
    (c.set value info).account = info.account := by
  cases c <;> rfl

theorem toDB_eq (env : Env) (c : Column) (account value : Bytes) (w : World) :
    c.toDB env account value w = w.mysqlDbExcute env (c.sql env account value) := by
  cases c with
  | headPhoto => exact updateHeadImageToDB_text env account value w
  | userName => rfl
  | password => rfl
  | email => rfl
  | phone => rfl

theorem mem_all (c : Column) : c ∈ Column.all := by
  cases c <;> decide

theorem nodup_all : Column.all.Nodup := by decide

/-- Only a picture is written over itself. -/
theorem writes_self {c : Column} {value : Bytes}
    (h : c.writes value value = true) :
    c = .headPhoto ∧ ∀ old, c.writes old value = true := by
  cases c with
  | headPhoto => exact ⟨rfl, fun _ => h⟩
  | userName => simp [writes] at h
  | password => simp [writes] at h
  | email => simp [writes] at h
  | phone => simp [writes] at h

/-! ### What statements carry -/

theorem quote_not_mem_name (c : Column) : 39 ∉ lit c.name := by
  cases c <;> decide +kernel

theorem literal_shape (c : Column) (account value : Bytes) :
    (c.shape account value).findSome? Token.literal = some value := by
  rw [shape, updateShape, List.findSome?_append, SqlText.findSome_chars]
  rfl

theorem carried_iff {c : Column} {account sql value : Bytes} :
    c.carried account sql = some value ↔
      lex none sql = some (c.shape account value) := by
  simp only [carried, Option.bind_eq_some_iff, Option.filter_eq_some_iff,
    decide_eq_true_eq]
  constructor
  · rintro ⟨toks, htoks, _, rfl⟩
    exact htoks
  · intro hlex
    exact ⟨_, hlex, c.literal_shape account value, rfl⟩

/-- The columns' statements differ. -/
theorem shape_injective {c c' : Column} {account value value' : Bytes}
    (h : c.shape account value = c'.shape account value') : c = c' := by
  have hbefore := congrArg (List.takeWhile fun tok : Token =>
    tok.literal.isNone) h
  simp only [shape, updateShape, SqlText.takeWhile_chars] at hbefore
  have hname := SqlText.chars_injective hbefore
  revert hname
  cases c <;> cases c' <;> decide +kernel

theorem carried_other {c c' : Column} {account sql value : Bytes}
    (h : c.carried account sql = some value) (hne : c' ≠ c) :
    c'.carried account sql = none := by
  cases hc' : c'.carried account sql with
  | none => rfl
  | some value' =>
      rw [carried_iff] at h hc'
      rw [h, Option.some.injEq] at hc'
      exact absurd (shape_injective hc').symm hne

/-- A column's statement carries the value that it is made of if and only if
the value fits. -/
theorem carried_sql {env : Env}
    (hescape : EscapesString env.mysqlRealEscapeString) {c : Column}
    {account value : Bytes} :
    c.carried account (c.sql env account value) = some value ↔
      c.Fits account value := by
  rw [carried_iff]
  cases c with
  | headPhoto => exact headImage_reads_iff hescape
  | userName => exact updateColumn_reads_iff (quote_not_mem_name .userName)
  | password => exact updateColumn_reads_iff (quote_not_mem_name .password)
  | email => exact updateColumn_reads_iff (quote_not_mem_name .email)
  | phone => exact updateColumn_reads_iff (quote_not_mem_name .phone)

end Column

/-! ## Updates -/

/-- An `UPDATE` of a column, and whether the database executed it. -/
structure Update where
  column : Column
  value : Bytes
  ok : Bool
  deriving DecidableEq

namespace Update

/-- What it does to the session and to its row: the row takes the value that
the statement carries. -/
def write (env : Env) (account : Bytes) (a : Update) : Write Column Bytes where
  key := a.column
  value := a.value
  stored :=
    if a.ok then
      a.column.carried account (a.column.sql env account a.value)
    else none

/-- It succeeded and its value survived, or the row had the value already. -/
def Lands (account : Bytes) (a : Update) (row : Profile) : Prop :=
  if a.ok then a.column.Fits account a.value else a.value = row a.column

/-- What MySQL reads in the statement is an update of the column. -/
def Reads (env : Env) (account : Bytes) (a : Update) : Prop :=
  ∃ value, a.column.carried account (a.column.sql env account a.value) =
    some value

variable {env : Env} {account : Bytes} {a : Update} {row : Profile}

/-- A value that fits is one that MySQL reads. -/
theorem Lands.reads (hescape : EscapesString env.mysqlRealEscapeString)
    (h : a.Lands account row) (hok : a.ok = true) : a.Reads env account := by
  rw [Lands, if_pos hok] at h
  exact ⟨a.value, (Column.carried_sql hescape).mpr h⟩

/-- The row has the value afterwards if it fits, or was there before. -/
theorem write_lands (hescape : EscapesString env.mysqlRealEscapeString)
    (hreads : a.ok = true → a.Reads env account) :
    (a.write env account).Lands row ↔ a.Lands account row := by
  unfold Write.Lands Lands write
  by_cases hok : a.ok = true
  · obtain ⟨value, hvalue⟩ := hreads hok
    simp only [hok, if_true]
    rw [← Column.carried_sql hescape, hvalue, Option.getD_some,
      Option.some.injEq]
  · simp only [hok, Bool.false_eq_true, if_false, Option.getD_none]
    exact eq_comm

end Update

/-! ## Rows -/

/-- What is documented of an `UPDATE` that succeeds: it stores the value that
it carries, in its column of the account's row.  What another statement does
to the row is left open. -/
def StoresValues (account : Bytes) (execute : Bytes → Profile → Profile) :
    Prop :=
  ∀ {c : Column} {sql value : Bytes} (row : Profile),
    c.carried account sql = some value →
      execute sql row = Function.update row c value

/-- The row after some updates: those that the database accepts are
executed. -/
def executeAll (env : Env) (account : Bytes)
    (execute : Bytes → Profile → Profile) (row : Profile)
    (updates : List Update) : Profile :=
  updates.foldl (fun row a =>
    if a.ok then execute (a.column.sql env account a.value) row else row) row

/-- As long as MySQL reads updates, the row takes what they carry. -/
theorem executeAll_eq {env : Env} {account : Bytes}
    {execute : Bytes → Profile → Profile}
    (hstores : StoresValues account execute) (memory row : Profile)
    {updates : List Update}
    (hreads : ∀ a ∈ updates, a.ok = true → a.Reads env account) :
    executeAll env account execute row updates =
      (Copies.writeAll ⟨memory, row⟩
        (updates.map (Update.write env account))).store := by
  induction updates generalizing memory row with
  | nil => rfl
  | cons a updates ih =>
      have hrest := fun b hb => hreads b (List.mem_cons_of_mem a hb)
      have hone : (if a.ok then execute (a.column.sql env account a.value) row
          else row) = (Copies.write ⟨memory, row⟩ (a.write env account)).store := by
        unfold Copies.write Update.write
        by_cases hok : a.ok = true
        · obtain ⟨value, hvalue⟩ := hreads a List.mem_cons_self hok
          simp only [hok, if_true, hstores row hvalue, hvalue,
            Option.getD_some]
        · simp [hok]
      rw [executeAll, List.foldl_cons, hone, ← executeAll, List.map_cons,
        Copies.writeAll_cons]
      exact ih _ _ hrest

namespace UpdateUserInfo

/-- The value that a message has for a column. -/
def brings (m : UpdateUserInfo) : Column → Option Bytes
  | .userName => some m.userName
  | .password => some m.password
  | .email => m.exEmail
  | .phone => m.phone
  | .headPhoto => m.headImage

/-- The value that a message writes over a copy. -/
def field (m : UpdateUserInfo) (old : Profile) (c : Column) : Option Bytes :=
  (m.brings c).filter (c.writes (old c))

/-- The updates that a message makes to some columns, with the answers of the
database, which has been sent `log` before. -/
def updates (env : Env) (account : Bytes) (m : UpdateUserInfo)
    (old : Profile) : List Column → List Bytes → List Update
  | [], _ => []
  | c :: cs, log =>
      match m.field old c with
      | none => updates env account m old cs log
      | some value =>
          let log := c.sql env account value :: log
          ⟨c, value, env.mysql log != .error⟩ ::
            updates env account m old cs log

variable {env : Env} {account : Bytes} {m : UpdateUserInfo} {old : Profile}

theorem keys_updates (cs : List Column) (log : List Bytes) :
    ((updates env account m old cs log).map Update.column).Sublist cs := by
  induction cs generalizing log with
  | nil => exact List.Sublist.slnil
  | cons c cs ih =>
      unfold updates
      cases m.field old c with
      | none => exact (ih log).cons c
      | some value => exact (ih _).cons_cons c

/-- A column is written if the message writes a value over its copy. -/
theorem mem_updates {c : Column} {value : Bytes} (cs : List Column)
    (log : List Bytes) :
    (∃ ok, ⟨c, value, ok⟩ ∈ updates env account m old cs log) ↔
      c ∈ cs ∧ m.field old c = some value := by
  induction cs generalizing log with
  | nil => simp [updates]
  | cons d cs ih =>
      unfold updates
      cases hfield : m.field old d with
      | none =>
          show (∃ ok, _ ∈ updates env account m old cs log) ↔ _
          rw [ih, List.mem_cons]
          constructor
          · rintro ⟨hc, hvalue⟩
            exact ⟨Or.inr hc, hvalue⟩
          · rintro ⟨rfl | hc, hvalue⟩
            · rw [hfield] at hvalue
              cases hvalue
            · exact ⟨hc, hvalue⟩
      | some x =>
          show (∃ ok, _ ∈ (_ : Update) ::
            updates env account m old cs _) ↔ _
          simp only [List.mem_cons, exists_or, ih, Update.mk.injEq]
          constructor
          · rintro (⟨_, rfl, rfl, _⟩ | ⟨hc, hvalue⟩)
            · exact ⟨Or.inl rfl, hfield⟩
            · exact ⟨Or.inr hc, hvalue⟩
          · rintro ⟨rfl | hc, hvalue⟩
            · rw [hfield, Option.some.injEq] at hvalue
              exact Or.inl ⟨_, rfl, hvalue.symm, rfl⟩
            · exact Or.inr ⟨hc, hvalue⟩

end UpdateUserInfo

end ChessServer
