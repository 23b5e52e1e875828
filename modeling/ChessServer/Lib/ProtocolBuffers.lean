import Mathlib.Tactic.Linarith

/-!
# Generated protocol buffer classes

What the compiler of protocol buffers generates for a message is determined by
its fields.  A descriptor is the list of these; a message of it is a tuple
with a slot for each field and the fields it does not know.  The functions
below are the members of the generated classes, with the descriptor as a
parameter.

The library that the generated code calls, its `Runtime`, is a parameter too.
What it documents of itself is stated in `Runtime.Reads` (streams) and
`Runtime.ReadsBack` (what was written is read).
-/

namespace ProtocolBuffers

/-! ## Messages -/

/-- The types of a field that is no message. -/
inductive Scalar where
  | int32
  | uint32
  | bool
  | bytes
  deriving DecidableEq

/-- How often a message occurs as a field. -/
inductive Label where
  | required
  | optional
  | repeated
  deriving DecidableEq

/-- The fields of a message in the order of their numbers. -/
inductive Desc where
  | nil
  | scalar (num : Nat) (required : Bool) (type : Scalar) (rest : Desc)
  | message (num : Nat) (label : Label) (sub rest : Desc)
  deriving DecidableEq

/-- A scalar field that has to be set. -/
abbrev Desc.required (num : Nat) (type : Scalar) (rest : Desc) : Desc :=
  .scalar num true type rest

abbrev Desc.optional (num : Nat) (type : Scalar) (rest : Desc) : Desc :=
  .scalar num false type rest

@[reducible] def Scalar.Value : Scalar → Type
  | .int32 => Int32
  | .uint32 => UInt32
  | .bool => Bool
  | .bytes => List UInt8

/-- The storage for a message as a field: `has_x()` and a pointer, or a
`RepeatedPtrField`. -/
@[reducible] def Label.Slot (α : Type) : Label → Type
  | .repeated => List α
  | _ => Option α

/-- `U` is the `UnknownFieldSet`. -/
@[reducible] def Desc.Message (U : Type) : Desc → Type
  | .nil => U
  | .scalar _ _ type rest => Option type.Value × rest.Message U
  | .message _ label sub rest =>
      label.Slot (sub.Message U) × rest.Message U

namespace Label

variable {α : Type}

def none : (label : Label) → label.Slot α
  | .repeated => []
  | .required | .optional => Option.none

/-- The messages in a slot. -/
def toList : (label : Label) → label.Slot α → List α
  | .repeated, xs => xs
  | .required, x | .optional, x => Option.toList x

/-- The object that a message is read into: `mutable_x()` or `add_x()`. -/
def target (clear : α) : (label : Label) → label.Slot α → α
  | .repeated, _ => clear
  | .required, x | .optional, x => Option.getD x clear

/-- What the slot is when that object has become `a`. -/
def put (a : α) : (label : Label) → label.Slot α → label.Slot α
  | .repeated, (xs : List α) => xs ++ [a]
  | .required, _ | .optional, _ => some a

/-- `mutable_x()->MergeFrom(v)` or `add_x()->MergeFrom(v)`. -/
def add (clear : α) (mergeFrom : α → α → α) (label : Label)
    (slot : label.Slot α) (v : α) : label.Slot α :=
  label.put (mergeFrom (label.target clear slot) v) slot

end Label

/-! ## Tags -/

/-- `WIRETYPE_LENGTH_DELIMITED` of a string and `WIRETYPE_VARINT` of the
numbers. -/
def Scalar.wireType : Scalar → Nat
  | .bytes => 2
  | _ => 0

/-- `WIRETYPE_END_GROUP`. -/
def endGroup : Nat := 4

/-- The constant that the compiler writes for a tag. -/
def makeTag (num wireType : Nat) : Nat := 8 * num + wireType

/-! ## The library -/

/-- What the generated code calls of its library.  `U` is the `UnknownFieldSet`
and `S` what later calls can tell of a `CodedInputStream`: that is all but the
last tag, which none of them asks for. -/
structure Runtime (U S : Type) where
  empty : U
  isEmpty : U → Bool
  /-- `UnknownFieldSet::MergeFrom`. -/
  mergeUnknown : U → U → U
  serializeUnknownFields : U → List UInt8
  computeUnknownFieldsSize : U → Nat
  skipField : Nat → U → S → Option (U × S)
  getTagFieldNumber : Nat → Nat
  getTagWireType : Nat → Nat
  /-- How many bytes of the input no call has read yet. -/
  unread : S → Nat
  readTag : S → Nat × S
  expectTag : Nat → S → Option S
  expectAtEnd : S → Option S
  consumedEntireMessage : S → Bool
  /-- `ReadPrimitive`, `ReadString` and `ReadBytes`. -/
  read : (type : Scalar) → S → Option (type.Value × S)
  /-- `ReadMessageNoVirtual`, and the member of the message that it calls. -/
  readMessage : {M : Type} → (M → S → Option (M × S)) → M → S → Option (M × S)
  /-- `WriteInt32` and its like: the tag of a field and its value. -/
  write : Nat → (type : Scalar) → type.Value → List UInt8
  /-- `WriteMessageMaybeToArray`, for a cached size and what the message
  writes. -/
  writeMessage : Nat → Nat → List UInt8 → List UInt8
  /-- `Int32Size` and its like. -/
  size : (type : Scalar) → type.Value → Nat
  /-- `MessageSizeNoVirtual`, for the `ByteSize` of a message. -/
  messageSize : Nat → Nat
  /-- `ParseFromString` of an object, by its members `Clear`,
  `MergePartialFromCodedStream` and `IsInitialized`. -/
  parseFromString : {M : Type} → M → (M → S → Option (M × S)) → (M → Bool) →
    List UInt8 → Option M

section

variable {U S : Type} (lib : Runtime U S)

/-! ## Clear, IsInitialized, MergeFrom -/

/-- `Clear`. -/
def Desc.clear : (d : Desc) → d.Message U
  | .nil => lib.empty
  | .scalar _ _ _ rest => (none, rest.clear)
  | .message _ label _ rest => (label.none, rest.clear)

/-- `IsInitialized`. -/
def Desc.isInitialized : (d : Desc) → d.Message U → Bool
  | .nil, _ => true
  | .scalar _ required _ rest, m =>
      (!required || Option.isSome m.1) && rest.isInitialized m.2
  | .message _ label sub rest, m =>
      (label != .required || !(label.toList m.1).isEmpty) &&
        (label.toList m.1).all sub.isInitialized && rest.isInitialized m.2

/-- `MergeFrom`. -/
def Desc.mergeFrom : (d : Desc) → d.Message U → d.Message U → d.Message U
  | .nil, x, y => lib.mergeUnknown x y
  | .scalar _ _ _ rest, x, y => (Option.or y.1 x.1, rest.mergeFrom x.2 y.2)
  | .message _ label sub rest, x, y =>
      ((label.toList y.1).foldl (label.add (sub.clear lib) sub.mergeFrom) x.1,
        rest.mergeFrom x.2 y.2)

/-! ## ByteSize, SerializeWithCachedSizes -/

/-- What a value adds to `ByteSize` after the byte of its tag; that of a `bool`
is a constant. -/
def Scalar.byteSize : (type : Scalar) → type.Value → Nat
  | .bool, _ => 1
  | .int32, v => lib.size .int32 v
  | .uint32, v => lib.size .uint32 v
  | .bytes, v => lib.size .bytes v

/-- `ByteSize`. -/
def Desc.byteSize : (d : Desc) → d.Message U → Nat
  | .nil, x => if lib.isEmpty x then 0 else lib.computeUnknownFieldsSize x
  | .scalar _ _ type rest, m =>
      (Option.elim m.1 0 fun v => 1 + type.byteSize lib v) + rest.byteSize m.2
  | .message _ label sub rest, m =>
      ((label.toList m.1).map fun v =>
        1 + lib.messageSize (sub.byteSize v)).sum + rest.byteSize m.2

/-- `SerializeWithCachedSizes`: the sizes are those that `ByteSize` left. -/
def Desc.serialize : (d : Desc) → d.Message U → List UInt8
  | .nil, x => if lib.isEmpty x then [] else lib.serializeUnknownFields x
  | .scalar num _ type rest, m =>
      (Option.elim m.1 [] fun v => lib.write num type v) ++ rest.serialize m.2
  | .message num label sub rest, m =>
      ((label.toList m.1).flatMap fun v =>
        lib.writeMessage num (sub.byteSize lib v) (sub.serialize v)) ++
      rest.serialize m.2

/-! ## MergePartialFromCodedStream -/

/-- What a round of the loop leaves, and whether it was a `return true`. -/
structure Round (M S : Type) where
  message : M
  stream : S
  returned : Bool

/-- The round of an object, of which `M` was a part. -/
def Round.map {M N S : Type} (f : M → N) (r : Round M S) : Round N S :=
  ⟨f r.message, r.stream, r.returned⟩

/-- `while ((tag = input->ReadTag()) != 0)`, around a round. -/
def loop {M : Type} (round : Nat → M → S → Option (Round M S)) :
    Nat → M → S → Option (M × S)
  | 0, _, _ => none
  | fuel + 1, m, s =>
      if (lib.readTag s).1 = 0 then some (m, (lib.readTag s).2)
      else do
        let r ← round (lib.readTag s).1 m (lib.readTag s).2
        if r.returned then some (r.message, r.stream)
        else loop round fuel r.message r.stream

/-- The loop with as much fuel as it can use: every tag takes a byte. -/
def run {M : Type} (round : Nat → M → S → Option (Round M S)) (m : M) (s : S) :
    Option (M × S) :=
  loop lib round (lib.unread s + 1) m s

/-- `handle_uninterpreted`. -/
def Desc.uninterpreted (tag : Nat) : (d : Desc) → d.Message U → S →
    Option (Round (d.Message U) S)
  | .nil, x, s =>
      if lib.getTagWireType tag = endGroup then some ⟨x, s, true⟩
      else (lib.skipField tag x s).map fun r => ⟨r.1, r.2, false⟩
  | .scalar _ _ _ rest, m, s =>
      (rest.uninterpreted tag m.2 s).map (Round.map fun y => (m.1, y))
  | .message _ _ _ rest, m, s =>
      (rest.uninterpreted tag m.2 s).map (Round.map fun y => (m.1, y))

/-- Reading an embedded message into its slot. -/
def readSlot {M : Type} (parse : M → S → Option (M × S)) (clear : M)
    (label : Label) (slot : label.Slot M) (s : S) :
    Option (label.Slot M × S) :=
  (lib.readMessage parse (label.target clear slot) s).map fun r =>
    (label.put r.1 slot, r.2)

/-- `if (input->ExpectTag(tag)) goto parse_x;` at the end of the case of a
repeated field itself.  Every jump takes a byte. -/
def again {M : Type} (tag : Nat) (read : M → S → Option (M × S)) :
    Nat → M → S → Option (M × S)
  | 0, slot, s => some (slot, s)
  | fuel + 1, slot, s =>
      (lib.expectTag tag s).elim (some (slot, s)) fun s => do
        let (slot, s) ← read slot s
        again tag read fuel slot s

/-- The case of a field of messages, without what follows it. -/
def readField {M : Type} (parse : M → S → Option (M × S)) (clear : M)
    (num : Nat) (label : Label) (slot : label.Slot M) (s : S) :
    Option (label.Slot M × S) := do
  let (slot, s) ← readSlot lib parse clear label slot s
  if label = .repeated then
    again lib (makeTag num 2) (readSlot lib parse clear label)
      (lib.unread s) slot s
  else some (slot, s)

mutual

/-- What follows the case of a field: the fields of `d` are those after it. -/
def Desc.expect : (d : Desc) → d.Message U → S →
    Option (Round (d.Message U) S)
  | .nil, x, s =>
      some ((lib.expectAtEnd s).elim ⟨x, s, false⟩ fun s => ⟨x, s, true⟩)
  | .scalar num _ type rest, m, s =>
      (lib.expectTag (makeTag num type.wireType) s).elim (some ⟨m, s, false⟩)
        fun s => do
          let (v, s) ← lib.read type s
          (rest.expect m.2 s).map (Round.map fun y => (some v, y))
  | .message num label sub rest, m, s =>
      (lib.expectTag (makeTag num 2) s).elim (some ⟨m, s, false⟩)
        fun s => do
          let (slot, s) ← readField lib (run lib sub.mergeCase)
            (sub.clear lib) num label m.1 s
          (rest.expect m.2 s).map (Round.map fun y => (slot, y))

/-- The `switch` on the number in the tag. -/
def Desc.mergeCase : (d : Desc) → Nat → d.Message U → S →
    Option (Round (d.Message U) S)
  | .nil, tag, x, s => Desc.nil.uninterpreted lib tag x s
  | .scalar num required type rest, tag, m, s =>
      if lib.getTagFieldNumber tag = num then
        if lib.getTagWireType tag = type.wireType then do
          let (v, s) ← lib.read type s
          (rest.expect m.2 s).map (Round.map fun y => (some v, y))
        else (Desc.scalar num required type rest).uninterpreted lib tag m s
      else (rest.mergeCase tag m.2 s).map (Round.map fun y => (m.1, y))
  | .message num label sub rest, tag, m, s =>
      if lib.getTagFieldNumber tag = num then
        if lib.getTagWireType tag = 2 then do
          let (slot, s) ← readField lib (run lib sub.mergeCase)
            (sub.clear lib) num label m.1 s
          (rest.expect m.2 s).map (Round.map fun y => (slot, y))
        else (Desc.message num label sub rest).uninterpreted lib tag m s
      else (rest.mergeCase tag m.2 s).map (Round.map fun y => (m.1, y))

end

/-- `MergePartialFromCodedStream`. -/
def Desc.mergePartial (d : Desc) : d.Message U → S →
    Option (d.Message U × S) :=
  run lib (d.mergeCase lib)

/-- `ParseFromString`. -/
def Desc.parseFromString (d : Desc) (data : List UInt8) :
    Option (d.Message U) :=
  lib.parseFromString (d.clear lib) (d.mergePartial lib) d.isInitialized data

/-! ## The loop without its jumps -/

/-- A parser for messages of every descriptor. -/
abbrev Parser (U S : Type) :=
  (d : Desc) → d.Message U → S → Option (d.Message U × S)

/-- One round of the plain loop: the field whose number is in the tag, and
nothing after it. -/
def Desc.mergeField (parse : Parser U S) : (d : Desc) → Nat → d.Message U →
    S → Option (Round (d.Message U) S)
  | .nil, tag, x, s => Desc.nil.uninterpreted lib tag x s
  | .scalar num required type rest, tag, m, s =>
      if lib.getTagFieldNumber tag = num then
        if lib.getTagWireType tag = type.wireType then
          (lib.read type s).map fun r => ⟨(some r.1, m.2), r.2, false⟩
        else (Desc.scalar num required type rest).uninterpreted lib tag m s
      else (rest.mergeField parse tag m.2 s).map (Round.map fun y => (m.1, y))
  | .message num label sub rest, tag, m, s =>
      if lib.getTagFieldNumber tag = num then
        if lib.getTagWireType tag = 2 then
          (readSlot lib (parse sub) (sub.clear lib) label m.1 s).map fun r =>
            ⟨(r.1, m.2), r.2, false⟩
        else (Desc.message num label sub rest).uninterpreted lib tag m s
      else (rest.mergeField parse tag m.2 s).map (Round.map fun y => (m.1, y))

/-- A tag is read and its field, and then, unless that returned, the rest. -/
def Desc.plainLoop (parse : Parser U S) : Parser U S := fun d m s =>
  if (lib.readTag s).1 = 0 then some (m, (lib.readTag s).2)
  else do
    let r ← d.mergeField lib parse (lib.readTag s).1 m (lib.readTag s).2
    if r.returned then some (r.message, r.stream)
    else parse d r.message r.stream

end

/-! ## What the library documents of itself -/

/-- A tag of the generated code: its number takes four bits. -/
def IsTag (num wireType : Nat) : Prop := 0 < num ∧ num < 16 ∧ wireType < 8

/-- A parser that takes no bytes back. -/
def Runtime.Onward {U S M : Type} (lib : Runtime U S)
    (parse : M → S → Option (M × S)) : Prop :=
  ∀ m s r, parse m s = some r → lib.unread r.2 ≤ lib.unread s

/-- Streams are read from the front; a tag or an end that was expected is the
one that `ReadTag` would give. -/
structure Runtime.Reads {U S : Type} (lib : Runtime U S) : Prop where
  getTagFieldNumber_eq : ∀ {num wireType}, IsTag num wireType →
    lib.getTagFieldNumber (makeTag num wireType) = num
  getTagWireType_eq : ∀ {num wireType}, IsTag num wireType →
    lib.getTagWireType (makeTag num wireType) = wireType
  readTag_le : ∀ s, lib.unread (lib.readTag s).2 ≤ lib.unread s
  readTag_lt : ∀ {s}, (lib.readTag s).1 ≠ 0 →
    lib.unread (lib.readTag s).2 < lib.unread s
  expectTag_eq : ∀ {num wireType s s'}, IsTag num wireType →
    lib.expectTag (makeTag num wireType) s = some s' →
    lib.readTag s = (makeTag num wireType, s')
  expectAtEnd_eq : ∀ {s s'}, lib.expectAtEnd s = some s' →
    lib.readTag s = (0, s')
  read_le : ∀ {type s r}, lib.read type s = some r →
    lib.unread r.2 ≤ lib.unread s
  skipField_le : ∀ {tag x s r}, lib.skipField tag x s = some r →
    lib.unread r.2 ≤ lib.unread s
  readMessage_onward : ∀ {M : Type} {parse : M → S → Option (M × S)},
    lib.Onward parse → lib.Onward (lib.readMessage parse)

/-- What a stream still gives: the bytes up to its limit, those behind it, the
size of the whole input, and how many more messages may be entered. -/
structure Window where
  bytes : List UInt8
  hidden : List UInt8
  size : Nat
  levels : Nat

/-- The same limit, with other bytes before it. -/
def Window.left (w : Window) (bytes : List UInt8) : Window :=
  { w with bytes := bytes }

/-- The limit of an embedded message. -/
def Window.inner (w : Window) (body rest : List UInt8) : Window :=
  ⟨body, rest ++ w.hidden, w.size, w.levels - 1⟩

/-- The library refuses an input of 64 MB. -/
def maxLength : Nat := 67108864

/-- The lengths of strings are limited. -/
def Scalar.Fits : (type : Scalar) → type.Value → Prop
  | .bytes, (v : List UInt8) => v.length < maxLength
  | _, _ => True

/-- What is written is read again, and takes the bytes that were counted.
`Sees s w` says that `w` is what the stream `s` still gives. -/
structure Runtime.ReadsBack {U S : Type} (lib : Runtime U S)
    (Sees : S → Window → Prop) : Prop extends lib.Reads where
  isEmpty_empty : lib.isEmpty lib.empty = true
  mergeUnknown_empty : ∀ x, lib.mergeUnknown x lib.empty = x
  empty_mergeUnknown : ∀ x, lib.mergeUnknown lib.empty x = x
  length_unknown : ∀ x,
    (lib.serializeUnknownFields x).length = lib.computeUnknownFieldsSize x
  length_write : ∀ {num type v}, IsTag num type.wireType → type.Fits v →
    (lib.write num type v).length = 1 + type.byteSize lib v
  length_value : ∀ {num v}, v.length ≤ (lib.write num .bytes v).length
  length_writeMessage : ∀ {num body}, IsTag num 2 → body.length < maxLength →
    (lib.writeMessage num body.length body).length =
      1 + lib.messageSize body.length
  length_body : ∀ {num size body},
    body.length ≤ (lib.writeMessage num size body).length
  readTag_end : ∀ {s w}, Sees s w → w.bytes = [] →
    ∃ s', lib.readTag s = (0, s') ∧ Sees s' w ∧
      lib.consumedEntireMessage s' = true
  read_write : ∀ {num type v s w rest}, IsTag num type.wireType →
    type.Fits v → Sees s w → w.bytes = lib.write num type v ++ rest →
    ∃ s' s'', lib.readTag s = (makeTag num type.wireType, s') ∧
      lib.read type s' = some (v, s'') ∧ Sees s'' (w.left rest)
  readMessage_write : ∀ {num body s w rest}, IsTag num 2 →
    body.length < maxLength → 0 < w.levels → Sees s w →
    w.bytes = lib.writeMessage num body.length body ++ rest →
    ∃ s', lib.readTag s = (makeTag num 2, s') ∧
      ∀ {M : Type} {parse : M → S → Option (M × S)} {m m' : M},
        (∀ s, Sees s (w.inner body rest) →
          ∃ s', parse m s = some (m', s') ∧ Sees s' (w.inner [] rest) ∧
            lib.consumedEntireMessage s' = true) →
        ∃ s'', lib.readMessage parse m s' = some (m', s'') ∧
          Sees s'' (w.left rest)
  parseFromString_eq : ∀ {M : Type} {clear m : M}
    {parse : M → S → Option (M × S)} {isInitialized : M → Bool}
    {data : List UInt8}, data.length < maxLength →
    (∀ s, Sees s ⟨data, [], data.length, 64⟩ →
      ∃ s', parse clear s = some (m, s') ∧
        lib.consumedEntireMessage s' = true) →
    lib.parseFromString clear parse isInitialized data =
      if isInitialized m then some m else none

/-! ## Descriptors and messages in order -/

/-- The numbers of the fields. -/
def Desc.nums : Desc → List Nat
  | .nil => []
  | .scalar num _ _ rest => num :: rest.nums
  | .message num _ _ rest => num :: rest.nums

/-- No two fields have the same number, and every tag takes one byte. -/
def Desc.lawful : Desc → Bool
  | .nil => true
  | .scalar num _ _ rest =>
      decide (0 < num ∧ num < 16 ∧ num ∉ rest.nums) && rest.lawful
  | .message num _ sub rest =>
      decide (0 < num ∧ num < 16 ∧ num ∉ rest.nums) && sub.lawful && rest.lawful

/-- How deep messages are embedded. -/
def Desc.height : Desc → Nat
  | .nil => 0
  | .scalar _ _ _ rest => rest.height
  | .message _ _ sub rest => max (sub.height + 1) rest.height

/-- A message without unknown fields. -/
def Desc.Known {U S : Type} (lib : Runtime U S) :
    (d : Desc) → d.Message U → Prop
  | .nil, x => x = lib.empty
  | .scalar _ _ _ rest, m => rest.Known lib m.2
  | .message _ label sub rest, m =>
      (∀ v ∈ label.toList m.1, sub.Known lib v) ∧ rest.Known lib m.2

end ProtocolBuffers
