/-!
# Tagged fields on the wire

The encoding that protocol buffers use for a message: a sequence of fields,
each a tag (field number and wire type), then a variable-length integer or a
length-prefixed byte string.  Fields of the two fixed-width wire types are
skipped.
-/

namespace Wire

/-- A field's value. -/
inductive Value where
  | varint (n : Nat)
  | bytes (data : List UInt8)
  deriving DecidableEq

/-- A field: its number and its value. -/
abbrev Field := Nat × Value

/-- Little-endian groups of seven bits; the high bit marks continuation. -/
def encodeVarint (fuel n : Nat) : List UInt8 :=
  match fuel with
  | 0 => []
  | fuel + 1 =>
      if n < 128 then [n.toUInt8]
      else (n % 128 + 128).toUInt8 :: encodeVarint fuel (n / 128)

/-- Read a variable-length integer of at most `fuel` bytes. -/
def decodeVarint (fuel : Nat) (data : List UInt8) :
    Option (Nat × List UInt8) :=
  match fuel, data with
  | fuel + 1, b :: rest =>
      if b < 128 then some (b.toNat, rest)
      else (decodeVarint fuel rest).map fun (n, rest) =>
        (b.toNat - 128 + 128 * n, rest)
  | _, _ => none

/-- A 64-bit integer takes at most ten bytes. -/
def maxVarint : Nat := 10

/-- One field. -/
def encodeField : Field → List UInt8
  | (num, .varint n) =>
      encodeVarint maxVarint (8 * num) ++ encodeVarint maxVarint n
  | (num, .bytes data) =>
      encodeVarint maxVarint (8 * num + 2) ++
        encodeVarint maxVarint data.length ++ data

/-- A message. -/
def encode (fields : List Field) : List UInt8 := fields.flatMap encodeField

/-- The bytes after the first `n`, if there are as many. -/
def skip (n : Nat) (data : List UInt8) : Option (List UInt8) :=
  if n ≤ data.length then some (data.drop n) else none

/-- Read one field; `none` in the pair is a field of fixed width. -/
def decodeField (data : List UInt8) :
    Option (Option Field × List UInt8) := do
  let (tag, rest) ← decodeVarint maxVarint data
  if tag / 8 = 0 then none
  else if tag % 8 = 0 then do
    let (n, rest) ← decodeVarint maxVarint rest
    some (some (tag / 8, .varint n), rest)
  else if tag % 8 = 1 then (skip 8 rest).map fun rest => (none, rest)
  else if tag % 8 = 2 then do
    let (n, rest) ← decodeVarint maxVarint rest
    let tail ← skip n rest
    some (some (tag / 8, .bytes (rest.take n)), tail)
  else if tag % 8 = 5 then (skip 4 rest).map fun rest => (none, rest)
  else none

/-- Read a message; every field takes at least one byte of `fuel`. -/
def decodeFields (fuel : Nat) (data : List UInt8) : Option (List Field) :=
  match fuel, data with
  | _, [] => some []
  | 0, _ => none
  | fuel + 1, data => do
      let (field, rest) ← decodeField data
      let fields ← decodeFields fuel rest
      some (field.toList ++ fields)

/-- Read a message. -/
def decode (data : List UInt8) : Option (List Field) :=
  decodeFields data.length data

/-! ## Scalar fields: the last occurrence counts -/

/-- An integer field. -/
def varint? (fields : List Field) (num : Nat) : Option Nat :=
  fields.foldl (fun last field =>
    match field with
    | (k, .varint n) => if k = num then some n else last
    | (_, .bytes _) => last) none

/-- A string field. -/
def bytes? (fields : List Field) (num : Nat) : Option (List UInt8) :=
  fields.foldl (fun last field =>
    match field with
    | (k, .bytes data) => if k = num then some data else last
    | (_, .varint _) => last) none

/-- A `uint32` field. -/
def uint32? (fields : List Field) (num : Nat) : Option UInt32 :=
  (varint? fields num).map Nat.toUInt32

/-- An `int32` field. -/
def int32? (fields : List Field) (num : Nat) : Option Int32 :=
  (uint32? fields num).map UInt32.toInt32

/-- A `bool` field. -/
def bool? (fields : List Field) (num : Nat) : Option Bool :=
  (varint? fields num).map (· != 0)

/-- The fields whose numbers are not among `nums`, written back. -/
def unknown (fields : List Field) (nums : List Nat) : List UInt8 :=
  encode (fields.filter fun field => field.1 ∉ nums)

/-- The value of an `int32` field: negative numbers fill 64 bits. -/
def ofInt32 (n : UInt32) : Value :=
  .varint (if n < 2147483648 then n.toNat
    else n.toNat + 18446744069414584320)

/-- The value of a `uint32` field. -/
def ofUInt32 (n : UInt32) : Value := .varint n.toNat

/-- The value of a `bool` field. -/
def ofBool (b : Bool) : Value := .varint b.toNat

/-- A field that may be absent. -/
def optional {α : Type} (num : Nat) (value : α → Value) :
    Option α → List Field
  | none => []
  | some a => [(num, value a)]

end Wire
