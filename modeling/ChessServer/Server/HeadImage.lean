import ChessServer.Lib.Cursor
import ChessServer.Server.Database

/-!
# The buffer of `UpdateHeadImageToDB`

`World.query` gets a statement as a whole; here is how
`WorkThread::UpdateHeadImageToDB` lays it out in memory of its own.
-/

namespace ChessServer

/-- The size that is asked of `new char[...]`. -/
def headImageBufferSize (dataSize : Nat) : Nat :=
  dataSize + dataSize * 2 / 3 + 255

/-- How `select_cmd` is filled. -/
def headImageSelectCmd (env : Env) (account data : Bytes) : Cursor :=
  ((((Cursor.start.puts (lit "UPDATE users_info SET head_photo=")).putc 39
    ).puts (env.mysqlRealEscapeString data)).putc 39
    ).puts (lit " WHERE account='" ++ cString account ++ lit "'")

/-- It is the statement that goes to the database. -/
theorem updateHeadImageToDB_text (env : Env) (account data : Bytes)
    (w : World) : updateHeadImageToDB env account data w =
      w.mysqlDbExcute env (headImageSelectCmd env account data).text := by
  have hquote : lit "'" = [39] := by decide +kernel
  simp only [updateHeadImageToDB, headImageSelectCmd, Cursor.text_puts,
    Cursor.text_putc, Cursor.text_start, List.nil_append, hquote,
    List.append_assoc]

end ChessServer
