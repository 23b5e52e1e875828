import ChessServer.Model.Client
import ChessServer.Model.Frames

/-!
# The size of a head image's statement

The buffer of `UpdateHeadImageToDB` has room for two thirds of the image's
bytes to be escaped, and 255 bytes more.  An image with more bytes to escape
is written past its end (`head_image_fits_iff`).
-/

namespace ChessServer

open Wire

/-- All bytes that are written into the buffer. -/
theorem high_headImageSelectCmd {env : Env}
    (hescape : EscapesString env.mysqlRealEscapeString)
    (account data : Bytes) : (headImageSelectCmd env account data).high =
      data.length + data.countP escaped + (cString account).length + 53 := by
  have hprefix : (lit "UPDATE users_info SET head_photo=").length = 33 := by
    decide +kernel
  have hwhere : (lit " WHERE account='").length = 16 := by decide +kernel
  have hquote : (lit "'").length = 1 := by decide +kernel
  rw [headImageSelectCmd, Cursor.high_puts]
  simp only [Cursor.text_puts, Cursor.text_putc, Cursor.text_start,
    List.length_append, List.length_nil, List.length_singleton, hprefix,
    hwhere, hquote, hescape.length]
  omega

/-- A head image's statement fits its buffer if and only if no more bytes of
the image are escaped than two thirds of its size and what the account leaves
of 202 bytes. -/
theorem head_image_fits_iff {env : Env}
    (hescape : EscapesString env.mysqlRealEscapeString)
    (account data : Bytes) :
    (headImageSelectCmd env account data).high ≤
        headImageBufferSize data.length ↔
      data.countP escaped + (cString account).length ≤
        data.length * 2 / 3 + 202 := by
  rw [high_headImageSelectCmd hescape, headImageBufferSize]
  omega

/-- Of the images of NULs, one of 603 bytes fits and one of 606 does not. -/
theorem head_image_fits_blank :
    (headImageSelectCmd Client.env (lit "a") (List.replicate 603 0)).high ≤
        headImageBufferSize (List.replicate 603 (0 : UInt8)).length ∧
      ¬ (headImageSelectCmd Client.env (lit "a") (List.replicate 606 0)).high ≤
        headImageBufferSize (List.replicate 606 (0 : UInt8)).length := by
  constructor
  · exact (head_image_fits_iff Client.escapeString_escapes _ _).mpr
      (by decide +kernel)
  · intro hfits
    exact absurd ((head_image_fits_iff Client.escapeString_escapes _ _).mp
      hfits) (by decide +kernel)

/-- The frame of an update with a head image of 700 NULs. -/
def blankImageFrame : Frame where
  msgType := MessageType.updateUserInfo.code
  body := encode [(1, .bytes (lit "n")), (2, .bytes (lit "a")),
    (3, .bytes (lit "p")), (6, .bytes (List.replicate 700 0))]
  msgType_le := by decide
  size_le := by decide +kernel

/-- Seven hundred NULs do not fit. -/
theorem blank_head_image_overflows :
    ¬ ∀ (account data : Bytes) (f : Frame) (m : UpdateUserInfo),
      account.length ≤ 50 → wireProtobuf.updateUserInfo f.body = some m →
      m.headImage = some data →
      (headImageSelectCmd Client.env account data).high ≤
        headImageBufferSize data.length := by
  intro hclaim
  have hparse : (wireProtobuf.updateUserInfo blankImageFrame.body).any
      (fun m => m.headImage == some (List.replicate 700 0)) = true := by
    decide +kernel
  simp only [Option.any_eq_true, beq_iff_eq] at hparse
  obtain ⟨m, hm, himage⟩ := hparse
  have hfits := hclaim (lit "a") _ blankImageFrame m
    (by decide +kernel) hm himage
  revert hfits
  decide +kernel

end ChessServer
