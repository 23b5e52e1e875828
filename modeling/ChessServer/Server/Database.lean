import ChessServer.Server.World

/-!
# Statements sent to MySQL

`mysqldb.cpp` and the `WorkThread::*DB` members of `thread.cpp`.  A
statement is the text that reaches `mysql_query`: `%s` stops at a NUL, and
`snprintf(buf, sizeof(buf)-1, ...)` keeps at most `sizeof(buf) - 2` bytes.
-/

namespace ChessServer

/-- What `%s` prints of `c_str()`. -/
def cString (s : Bytes) : Bytes := s.takeWhile (· ≠ 0)

/-- Without a NUL it is the whole string. -/
theorem cString_eq {s : Bytes} (h : 0 ∉ s) : cString s = s := by
  induction s with
  | nil => rfl
  | cons c s ih =>
      rw [List.mem_cons, not_or] at h
      have hc : c ≠ 0 := fun hc => h.1 hc.symm
      have hs : s.takeWhile (· ≠ 0) = s := ih h.2
      rw [cString, List.takeWhile_cons_of_pos (by simpa using hc), hs]

theorem zero_not_mem_cString (s : Bytes) : 0 ∉ cString s := by
  intro h
  have hne := List.all_eq_true.mp List.all_takeWhile 0 h
  simp at hne

theorem length_cString_le (s : Bytes) : (cString s).length ≤ s.length :=
  (List.takeWhile_prefix _).length_le

/-- If it is as long as the string there is no NUL. -/
theorem zero_not_mem_of_length {s : Bytes}
    (h : s.length ≤ (cString s).length) : 0 ∉ s := by
  have heq : cString s = s := (List.takeWhile_prefix _).eq_of_length
    (Nat.le_antisymm (length_cString_le s) h)
  rw [← heq]
  exact zero_not_mem_cString s

/-- `snprintf(buf, size, ...)` of an already formatted text. -/
def snprintf (size : Nat) (text : Bytes) : Bytes := text.take (size - 1)

/-- `%d` of a `u_int32`. -/
def decimal (n : UInt32) : Bytes := lit (toString n.toInt32)

/-- Execute one statement. -/
def World.query (env : Env) (sql : Bytes) (w : World) : SqlReply × World :=
  (env.mysql (sql :: w.sqlLog), { w with sqlLog := sql :: w.sqlLog })

/-- `mysql_db_excute(...) == 0`. -/
def World.mysqlDbExcute (env : Env) (sql : Bytes) (w : World) : Bool × World :=
  ((w.query env sql).1 != .error, (w.query env sql).2)

/-! ## Updates -/

/-- The text of `UpdateUserScoreToDB`. -/
def updateScoreSql (account : Bytes) (score : UInt32) : Bytes :=
  snprintf 254 (lit "UPDATE users_info SET score=" ++ decimal score ++
    lit " where account='" ++ cString account ++ lit "'")

/-- The text of the four `UPDATE users_info SET column='value'` members. -/
def updateColumnSql (column : String) (account value : Bytes) : Bytes :=
  snprintf 254 (lit "UPDATE users_info SET " ++ lit column ++ lit "='" ++
    cString value ++ lit "' WHERE account='" ++ cString account ++ lit "'")

/-- `WorkThread::UpdateUserScoreToDB`. -/
def updateUserScoreToDB (env : Env) (account : Bytes) (score : UInt32)
    (w : World) : Bool × World :=
  w.mysqlDbExcute env (updateScoreSql account score)

/-- `WorkThread::UpdateUserPasswordToDB`. -/
def updateUserPasswordToDB (env : Env) (account pswd : Bytes) (w : World) :
    Bool × World :=
  w.mysqlDbExcute env (updateColumnSql "password" account pswd)

/-- `WorkThread::UpdateUserNameToDB`. -/
def updateUserNameToDB (env : Env) (account name : Bytes) (w : World) :
    Bool × World :=
  w.mysqlDbExcute env (updateColumnSql "user_name" account name)

/-- `WorkThread::UpdateUserPhoneToDB`. -/
def updateUserPhoneToDB (env : Env) (account phoneNo : Bytes) (w : World) :
    Bool × World :=
  w.mysqlDbExcute env (updateColumnSql "phone" account phoneNo)

/-- `WorkThread::UpdateUserEmailToDB`. -/
def updateUserEmailToDB (env : Env) (account email : Bytes) (w : World) :
    Bool × World :=
  w.mysqlDbExcute env (updateColumnSql "email" account email)

/-- `WorkThread::UpdateHeadImageToDB`. -/
def updateHeadImageToDB (env : Env) (account data : Bytes) (w : World) :
    Bool × World :=
  w.mysqlDbExcute env (lit "UPDATE users_info SET head_photo=" ++ lit "'" ++
    env.mysqlRealEscapeString data ++ lit "'" ++ lit " WHERE account='" ++
    cString account ++ lit "'")

/-- `WorkThread::InsertUsersInfoToDB`. -/
def insertUsersInfoToDB (env : Env) (info : UsersInfo) (w : World) :
    Bool × World :=
  w.mysqlDbExcute env (snprintf 511
    (lit "INSERT INTO users_info (account,password,email,score,head_photo,user_name,phone) VALUES ('" ++
      cString info.account ++ lit "','" ++ cString info.password ++
      lit "','" ++ cString info.email ++ lit "'," ++ decimal info.score ++
      lit ",'" ++ cString info.headPhoto ++ lit "','" ++
      cString info.userName ++ lit "','" ++ cString info.phone ++ lit "')"))

/-! ## Queries -/

/-- One round of the fetch loop of `mysql_db_query`; `atoi(NULL)` dies. -/
def fetchUserRow (info : UsersInfo) (row : UserRow) : Option UsersInfo :=
  row.score.map fun score =>
    { info with
      account := row.account
      password := row.password
      email := row.email.getD []
      score := score.toUInt32
      userName := row.userName.getD []
      phone := row.phone.getD [] }

/-- `mysql_db_query(...)`: the row count (`-1` on an error) and the filled
`user_info`. -/
def mysqlDbQuery (env : Env) (sql : Bytes) (info : UsersInfo) (w : World) :
    Option (Int × UsersInfo × World) :=
  let (reply, w) := w.query env sql
  match reply with
  | .users rows => do
      let info ← rows.foldlM fetchUserRow info
      some (rows.length, info, w)
  | _ => some (-1, info, w)

/-- `WorkThread::GetUsersInfoFromDB`. -/
def getUsersInfoFromDB (env : Env) (account : Bytes) (info : UsersInfo)
    (w : World) : Option (Bool × UsersInfo × World) :=
  if account = [] then some (false, info, w)
  else do
    let (ret, info, w) ← mysqlDbQuery env (snprintf 254
      (lit "SELECT * FROM users_info WHERE account='" ++ cString account ++
        lit "'")) info w
    some (decide (0 < ret), info, w)

/-- `WorkThread::GetHeadImageFromDB` through `mysql_get_binary_data`: the
last non-NULL column wins. -/
def getHeadImageFromDB (env : Env) (account data : Bytes) (w : World) :
    Bool × Bytes × World :=
  let (reply, w) := w.query env (snprintf 254
    (lit "SELECT head_photo FROM users_info WHERE account='" ++
      cString account ++ lit "'"))
  match reply with
  | .error => (false, data, w)
  | .photos rows => (true, rows.foldl (fun d row => row.getD d) data, w)
  | _ => (true, data, w)

/-- `AdPicturesInfo`. -/
structure AdPicturesInfo where
  imageId : UInt32 := 0
  existed : Bool := false
  imageHashcode : Bytes := []
  imageName : Bytes := []
  imageType : Bytes := []
  linkUrl : Bytes := []
  locatePath : Bytes := []
  imageSize : UInt32 := 0
  deriving DecidableEq

/-- One round of the fetch loop of `mysql_db_query_ad_info`. -/
def fetchAdRow (_ : AdPicturesInfo) (row : AdRow) : AdPicturesInfo :=
  { imageId := row.id.toUInt32
    existed := row.existed ≠ 0
    imageHashcode := row.imageHashcode.getD []
    imageName := row.imageName.getD []
    imageType := row.imageType.getD []
    linkUrl := row.linkUrl.getD []
    locatePath := row.locatePath.getD []
    imageSize := (row.imageSize.getD 0).toUInt32 }

/-- `WorkThread::GetAdPicturesInfoFromDB`. -/
def getAdPicturesInfoFromDB (env : Env) (id : UInt32) (info : AdPicturesInfo)
    (w : World) : Bool × AdPicturesInfo × World :=
  let (reply, w) := w.query env
    (snprintf 254 (lit "SELECT * FROM ad_pictures WHERE id=" ++ decimal id))
  match reply with
  | .ads (row :: rows) => (true, (row :: rows).foldl fetchAdRow info, w)
  | _ => (false, { info with existed := false }, w)

/-- `ImageVersions`. -/
structure ImageVersions where
  version : Bytes := []
  mandatoryUpdate : Bool := false
  info : Bytes := []
  locatePath : Bytes := []
  deriving DecidableEq

/-- One round of the fetch loop of `mysql_db_query_image_version`. -/
def fetchVersionRow (_ : ImageVersions) (row : VersionRow) : ImageVersions :=
  { version := row.version.getD []
    mandatoryUpdate := row.mandatoryUpdate = 1
    info := row.info.getD []
    locatePath := row.locatePath.getD [] }

/-- `WorkThread::GetImageVersionInfoFromDB`. -/
def getImageVersionInfoFromDB (env : Env) (info : ImageVersions) (w : World) :
    Bool × ImageVersions × World :=
  let (reply, w) := w.query env (lit
    "SELECT version, mandatory_update, image_info, locate_path FROM image_version ORDER BY id DESC limit 1")
  match reply with
  | .versions (row :: rows) =>
      (true, (row :: rows).foldl fetchVersionRow info, w)
  | _ => (false, { info with version := [] }, w)

end ChessServer
