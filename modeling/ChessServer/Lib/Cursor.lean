/-!
# Writing into a buffer

A cursor that moves through a buffer from its start, the way C code builds a
text piece by piece.  The string functions of C also write a terminating NUL
behind the text, which the next piece overwrites, so the cursor knows how
much text there is and how far the buffer has been written.
-/

/-- The text in front of a cursor, and the end of the bytes written so far:
nothing but a terminating NUL is behind the text. -/
structure Cursor where
  text : List UInt8
  high : Nat
  length_le : text.length ≤ high
  high_le : high ≤ text.length + 1

namespace Cursor

/-- The start of a buffer. -/
def start : Cursor := ⟨[], 0, by decide, by decide⟩

/-- `*end++ = c`. -/
def putc (p : Cursor) (c : UInt8) : Cursor where
  text := p.text ++ [c]
  high := max p.high (p.text.length + 1)
  length_le := by
    rw [List.length_append, List.length_singleton]
    omega
  high_le := by
    have hhigh := p.high_le
    rw [List.length_append, List.length_singleton]
    omega

/-- A string and its NUL are copied, and the cursor moves to the NUL. -/
def puts (p : Cursor) (s : List UInt8) : Cursor where
  text := p.text ++ s
  high := max p.high (p.text.length + s.length + 1)
  length_le := by
    rw [List.length_append]
    omega
  high_le := by
    have hhigh := p.high_le
    rw [List.length_append]
    omega

@[simp] theorem text_start : start.text = [] := rfl

@[simp] theorem text_putc (p : Cursor) (c : UInt8) :
    (p.putc c).text = p.text ++ [c] := rfl

@[simp] theorem text_puts (p : Cursor) (s : List UInt8) :
    (p.puts s).text = p.text ++ s := rfl

/-- After a string the buffer is written up to the NUL. -/
theorem high_puts (p : Cursor) (s : List UInt8) :
    (p.puts s).high = (p.puts s).text.length + 1 := by
  have hhigh := p.high_le
  show max p.high (p.text.length + s.length + 1) = (p.text ++ s).length + 1
  rw [List.length_append]
  omega

end Cursor
