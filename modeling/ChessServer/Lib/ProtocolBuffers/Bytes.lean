import ChessServer.Lib.ProtocolBuffers
import ChessServer.Lib.Wire

/-!
# A library on lists of bytes

`bytesRuntime` writes the wire format of protocol buffers to lists and reads it
from them; the fields that no class knows are skipped and dropped.  It keeps
what a `Runtime` documents of itself: `bytesRuntime_readsBack`.
-/

namespace ProtocolBuffers

open Wire

/-! ## Integers of variable length -/

/-- A number below 128 is its own last byte. -/
theorem decodeVarint_low (fuel : Nat) {n : Nat} (h : n < 128)
    (rest : List UInt8) :
    decodeVarint (fuel + 1) (n.toUInt8 :: rest) = some (n, rest) := by
  have hbyte : n.toUInt8.toNat = n := by simp; omega
  have hlt : n.toUInt8 < 128 := by
    rw [UInt8.lt_iff_toNat_lt, hbyte]
    exact h
  unfold decodeVarint
  dsimp only
  rw [if_pos hlt, hbyte]

/-- A number that fits the groups is read back, with whatever stands behind it.
-/
theorem decodeVarint_encode (fuel : Nat) {n : Nat} (h : n < 128 ^ (fuel + 1))
    (rest : List UInt8) :
    decodeVarint (fuel + 1) (encodeVarint (fuel + 1) n ++ rest) =
      some (n, rest) := by
  induction fuel generalizing n with
  | zero =>
      have hlow : n < 128 := by omega
      unfold encodeVarint
      rw [if_pos hlow]
      exact decodeVarint_low 0 hlow rest
  | succ fuel ih =>
      unfold encodeVarint
      by_cases hlow : n < 128
      · rw [if_pos hlow]
        exact decodeVarint_low (fuel + 1) hlow rest
      · have hbyte : (n % 128 + 128).toUInt8.toNat = n % 128 + 128 := by
          simp; omega
        have hge : ¬ (n % 128 + 128).toUInt8 < 128 := by
          rw [UInt8.lt_iff_toNat_lt, hbyte]
          exact Nat.not_lt.mpr (Nat.le_add_left 128 _)
        have hdiv : n / 128 < 128 ^ (fuel + 1) := by
          rw [Nat.div_lt_iff_lt_mul (by omega)]
          rwa [Nat.pow_succ] at h
        unfold decodeVarint
        rw [if_neg hlow]
        simp only [List.cons_append]
        rw [if_neg hge, ih hdiv, Option.map_some, hbyte]
        congr 2
        omega

/-- A number takes at least a byte. -/
theorem decodeVarint_lt {fuel n : Nat} {input rest : List UInt8}
    (h : decodeVarint fuel input = some (n, rest)) :
    rest.length < input.length := by
  induction fuel generalizing n input with
  | zero =>
      unfold decodeVarint at h
      cases h
  | succ fuel ih =>
      cases input with
      | nil =>
          unfold decodeVarint at h
          cases h
      | cons b tail =>
          unfold decodeVarint at h
          dsimp only at h
          split at h
          · cases h
            exact Nat.lt_succ_self _
          · obtain ⟨r, hr, heq⟩ := Option.map_eq_some_iff.mp h
            cases heq
            exact Nat.lt_succ_of_lt (ih hr)

/-- `ReadVarint32`: the upper bits are dropped. -/
def readVarint32 (input : List UInt8) : Option (UInt32 × List UInt8) :=
  (decodeVarint maxVarint input).map fun r => (r.1.toUInt32, r.2)

def writeVarint (n : Nat) : List UInt8 := encodeVarint maxVarint n

theorem readVarint32_lt {input : List UInt8} {r : UInt32 × List UInt8}
    (h : readVarint32 input = some r) : r.2.length < input.length := by
  obtain ⟨r, hr, rfl⟩ := Option.map_eq_some_iff.mp h
  exact decodeVarint_lt hr

/-- The lower bits of a written number are read back. -/
theorem readVarint32_write {n : Nat} (h : n < 18446744073709551616)
    (rest : List UInt8) :
    readVarint32 (writeVarint n ++ rest) = some (n.toUInt32, rest) := by
  have hfits : n < 128 ^ (9 + 1) := Nat.lt_trans h (by decide)
  unfold readVarint32 writeVarint maxVarint
  rw [decodeVarint_encode 9 hfits rest]
  rfl

theorem readVarint32_write_self (n : UInt32) (rest : List UInt8) :
    readVarint32 (writeVarint n.toNat ++ rest) = some (n, rest) := by
  have hlt := n.toNat_lt
  rw [readVarint32_write (by omega), Nat.toUInt32_eq, UInt32.ofNat_toNat]

/-- A small number is a byte. -/
theorem writeVarint_low {n : Nat} (h : n < 128) :
    writeVarint n = [n.toUInt8] := by
  unfold writeVarint maxVarint encodeVarint
  rw [if_pos h]

/-! ## Scalars -/

/-- A negative `int32` is extended to 64 bits. -/
def extended (v : Int32) : Nat :=
  if v < 0 then v.toUInt32.toNat + 18446744069414584320 else v.toUInt32.toNat

/-- What is written after the tag. -/
def Scalar.payload : (type : Scalar) → type.Value → List UInt8
  | .int32, (v : Int32) => writeVarint (extended v)
  | .uint32, (v : UInt32) => writeVarint v.toNat
  | .bool, (v : Bool) => writeVarint v.toNat
  | .bytes, (v : List UInt8) => writeVarint v.length ++ v

/-- As many bytes as a length in front of them says. -/
def readBytes (input : List UInt8) : Option (List UInt8 × List UInt8) := do
  let (n, rest) ← readVarint32 input
  if n < 2147483648 ∧ n.toNat ≤ rest.length then
    some (rest.take n.toNat, rest.drop n.toNat)
  else none

def Scalar.readPayload : (type : Scalar) → List UInt8 →
    Option (type.Value × List UInt8)
  | .int32, input => (readVarint32 input).map fun r => (r.1.toInt32, r.2)
  | .uint32, input => readVarint32 input
  | .bool, input => (readVarint32 input).map fun r => (r.1 != 0, r.2)
  | .bytes, input => readBytes input

/-- A byte string is taken from the front. -/
theorem readBytes_le {input : List UInt8} {r : List UInt8 × List UInt8}
    (h : readBytes input = some r) : r.2.length ≤ input.length := by
  obtain ⟨⟨n, rest⟩, hr, h⟩ := Option.bind_eq_some_iff.mp h
  have hlt := readVarint32_lt hr
  dsimp only at h hlt
  split at h
  · cases h
    dsimp only
    rw [List.length_drop]
    omega
  · cases h

/-- A value is taken from the front. -/
theorem Scalar.readPayload_le {type : Scalar} {input : List UInt8}
    {r : type.Value × List UInt8} (h : type.readPayload input = some r) :
    r.2.length ≤ input.length := by
  cases type with
  | int32 =>
      obtain ⟨r, hr, rfl⟩ := Option.map_eq_some_iff.mp h
      exact Nat.le_of_lt (readVarint32_lt hr)
  | uint32 => exact Nat.le_of_lt (readVarint32_lt h)
  | bool =>
      obtain ⟨r, hr, rfl⟩ := Option.map_eq_some_iff.mp h
      exact Nat.le_of_lt (readVarint32_lt hr)
  | bytes => exact readBytes_le h

/-- The extension of a negative number is in the bits that are dropped. -/
theorem readVarint32_extended (v : Int32) (rest : List UInt8) :
    readVarint32 (writeVarint (extended v) ++ rest) =
      some (v.toUInt32, rest) := by
  have hlt := v.toUInt32.toNat_lt
  unfold extended
  split
  · have hlow : (v.toUInt32.toNat + 18446744069414584320).toUInt32 =
        v.toUInt32 := by
      apply UInt32.toNat_inj.mp
      simp
    rw [readVarint32_write (by omega), hlow]
  · exact readVarint32_write_self v.toUInt32 rest

theorem readBytes_write {v : List UInt8} (h : v.length < maxLength)
    (rest : List UInt8) :
    readBytes (writeVarint v.length ++ v ++ rest) = some (v, rest) := by
  unfold maxLength at h
  have hn : v.length.toUInt32.toNat = v.length := by
    simp; omega
  have hlt : v.length.toUInt32 < 2147483648 := by
    rw [UInt32.lt_iff_toNat_lt, hn]
    exact Nat.lt_trans h (by decide)
  unfold readBytes
  rw [List.append_assoc, readVarint32_write (by omega)]
  simp only [Option.bind_eq_bind, Option.bind_some, hn]
  rw [if_pos ⟨hlt, by simp⟩, List.take_left, List.drop_left]

/-- A written value is read back, with whatever stands behind it. -/
theorem Scalar.readPayload_write {type : Scalar} {v : type.Value}
    (h : type.Fits v) (rest : List UInt8) :
    type.readPayload (type.payload v ++ rest) = some (v, rest) := by
  cases type with
  | int32 =>
      unfold Scalar.readPayload Scalar.payload
      dsimp only
      rw [readVarint32_extended]
      rfl
  | uint32 => exact readVarint32_write_self v rest
  | bool =>
      cases v with
      | true => rfl
      | false => rfl
  | bytes => exact readBytes_write h rest

/-! ## Streams -/

/-- A stream, and whether its last `ReadTag` was at the limit. -/
structure Stream where
  window : Window
  atEnd : Bool

def Stream.unread (s : Stream) : Nat :=
  s.window.bytes.length + s.window.hidden.length

/-- The stream after some bytes were read from the front. -/
def Stream.left (s : Stream) (bytes : List UInt8) : Stream :=
  ⟨s.window.left bytes, s.atEnd⟩

def Stream.readTag (s : Stream) : Nat × Stream :=
  (readVarint32 s.window.bytes).elim (0, ⟨s.window, s.window.bytes.isEmpty⟩)
    fun r => (r.1.toNat, s.left r.2)

def Stream.expectTag (tag : Nat) (s : Stream) : Option Stream :=
  if s.window.bytes.head? = some tag.toUInt8 then
    some (s.left s.window.bytes.tail)
  else none

def Stream.expectAtEnd (s : Stream) : Option Stream :=
  if s.window.bytes = [] then some ⟨s.window, true⟩ else none

/-- `PopLimit`, back to the limit that hides as many bytes as that of `w`. -/
def Stream.leave (s : Stream) (w : Window) : Stream :=
  let bytes := s.window.bytes ++ s.window.hidden
  let k := bytes.length - w.hidden.length
  ⟨{ w with bytes := bytes.take k, hidden := bytes.drop k }, false⟩

def Stream.readMessage {M : Type} (parse : M → Stream → Option (M × Stream))
    (m : M) (s : Stream) : Option (M × Stream) := do
  let (n, rest) ← readVarint32 s.window.bytes
  if s.window.levels = 0 then none
  else do
    let (m, s') ← parse m
      ⟨s.window.inner (rest.take n.toNat) (rest.drop n.toNat), false⟩
    if s'.atEnd then some (m, s'.leave s.window) else none

/-- Numbers of variable length, eight bytes, a length and that many bytes, and
four bytes. -/
def Stream.skipField (tag : Nat) (s : Stream) : Option Stream :=
  let input := s.window.bytes
  let rest :=
    if tag % 8 = 0 then (readVarint32 input).map Prod.snd
    else if tag % 8 = 1 then skip 8 input
    else if tag % 8 = 2 then (readBytes input).map Prod.snd
    else if tag % 8 = 5 then skip 4 input
    else none
  rest.map s.left

def bytesRuntime : Runtime Unit Stream where
  empty := ()
  isEmpty _ := true
  mergeUnknown _ _ := ()
  serializeUnknownFields _ := []
  computeUnknownFieldsSize _ := 0
  skipField tag x s := (s.skipField tag).map fun s => (x, s)
  getTagFieldNumber tag := tag / 8
  getTagWireType tag := tag % 8
  unread := Stream.unread
  readTag := Stream.readTag
  expectTag := Stream.expectTag
  expectAtEnd := Stream.expectAtEnd
  consumedEntireMessage := Stream.atEnd
  read type s := (type.readPayload s.window.bytes).map fun r =>
    (r.1, s.left r.2)
  readMessage := Stream.readMessage
  write num type v := writeVarint (makeTag num type.wireType) ++ type.payload v
  writeMessage num size body :=
    writeVarint (makeTag num 2) ++ writeVarint size ++ body
  size type v := (type.payload v).length
  messageSize n := (writeVarint n).length + n
  parseFromString clear parse isInitialized data := do
    let (m, s) ← parse clear ⟨⟨data, [], data.length, 64⟩, false⟩
    if isInitialized m && s.atEnd then some m else none

/-! ## What it reads -/

/-- A tag of the generated code is a byte. -/
theorem makeTag_lt {num wireType : Nat} (h : IsTag num wireType) :
    makeTag num wireType < 128 := by
  obtain ⟨_, hnum, hwire⟩ := h
  unfold makeTag
  omega

theorem makeTag_div {num wireType : Nat} (h : IsTag num wireType) :
    makeTag num wireType / 8 = num := by
  obtain ⟨_, _, hwire⟩ := h
  unfold makeTag
  omega

theorem makeTag_mod {num wireType : Nat} (h : IsTag num wireType) :
    makeTag num wireType % 8 = wireType := by
  obtain ⟨_, _, hwire⟩ := h
  unfold makeTag
  omega

theorem Stream.unread_left (s : Stream) {bytes : List UInt8}
    (h : bytes.length ≤ s.window.bytes.length) :
    (s.left bytes).unread ≤ s.unread :=
  Nat.add_le_add_right h _

/-- Moving the limit reads nothing. -/
theorem Stream.unread_leave (s : Stream) (w : Window) :
    (s.leave w).unread = s.unread := by
  unfold Stream.leave Stream.unread
  dsimp only
  rw [← List.length_append, List.take_append_drop, List.length_append]

/-- A tag of one byte. -/
theorem Stream.readTag_write {s : Stream} {num wireType : Nat}
    (h : IsTag num wireType) {rest : List UInt8}
    (hs : s.window.bytes = writeVarint (makeTag num wireType) ++ rest) :
    s.readTag = (makeTag num wireType, s.left rest) := by
  have hlt := makeTag_lt h
  have hn : (makeTag num wireType).toUInt32.toNat = makeTag num wireType := by
    simp; omega
  unfold Stream.readTag
  rw [hs, readVarint32_write (by omega), Option.elim_some, hn]

/-- At the limit there is no tag, and the message may end. -/
theorem Stream.readTag_nil {s : Stream} (h : s.window.bytes = []) :
    s.readTag = (0, ⟨s.window, true⟩) := by
  unfold Stream.readTag
  rw [h]
  rfl

theorem Stream.readTag_le (s : Stream) : s.readTag.2.unread ≤ s.unread := by
  unfold Stream.readTag
  cases hr : readVarint32 s.window.bytes with
  | none => exact Nat.le_refl _
  | some r => exact s.unread_left (Nat.le_of_lt (readVarint32_lt hr))

/-- A tag takes at least a byte. -/
theorem Stream.readTag_lt {s : Stream} (h : s.readTag.1 ≠ 0) :
    s.readTag.2.unread < s.unread := by
  unfold Stream.readTag at h ⊢
  cases hr : readVarint32 s.window.bytes with
  | none =>
      rw [hr] at h
      exact absurd rfl h
  | some r => exact Nat.add_lt_add_right (readVarint32_lt hr) _

/-- A tag that was expected is the one that is read. -/
theorem Stream.expectTag_eq {s s' : Stream} {num wireType : Nat}
    (htag : IsTag num wireType)
    (h : s.expectTag (makeTag num wireType) = some s') :
    s.readTag = (makeTag num wireType, s') := by
  unfold Stream.expectTag at h
  split at h
  · rename_i hhead
    have hbytes : s.window.bytes =
        writeVarint (makeTag num wireType) ++ s.window.bytes.tail := by
      obtain ⟨rest, hrest⟩ := List.head?_eq_some_iff.mp hhead
      rw [writeVarint_low (makeTag_lt htag), hrest]
      rfl
    cases h
    exact Stream.readTag_write htag hbytes
  · cases h

theorem Stream.skipField_le {tag : Nat} {s s' : Stream}
    (h : s.skipField tag = some s') : s'.unread ≤ s.unread := by
  have hskip : ∀ {n : Nat} {input rest : List UInt8},
      skip n input = some rest → rest.length ≤ input.length := by
    intro n input rest h
    unfold skip at h
    split at h
    · cases h
      rw [List.length_drop]
      omega
    · cases h
  obtain ⟨rest, hrest, rfl⟩ := Option.map_eq_some_iff.mp h
  refine s.unread_left ?_
  split at hrest
  · obtain ⟨r, hr, rfl⟩ := Option.map_eq_some_iff.mp hrest
    exact Nat.le_of_lt (readVarint32_lt hr)
  · split at hrest
    · exact hskip hrest
    · split at hrest
      · obtain ⟨r, hr, rfl⟩ := Option.map_eq_some_iff.mp hrest
        exact readBytes_le hr
      · split at hrest
        · exact hskip hrest
        · cases hrest

/-- A message takes its bytes from the front, if its parser does. -/
theorem Stream.readMessage_le {M : Type}
    {parse : M → Stream → Option (M × Stream)}
    (hparse : ∀ m s r, parse m s = some r → r.2.unread ≤ s.unread) {m : M}
    {s : Stream} {r : M × Stream} (h : s.readMessage parse m = some r) :
    r.2.unread ≤ s.unread := by
  obtain ⟨⟨n, rest⟩, hn, h⟩ := Option.bind_eq_some_iff.mp h
  have hlt := readVarint32_lt hn
  dsimp only at h hlt
  split at h
  · cases h
  · obtain ⟨⟨m', s'⟩, hs', h⟩ := Option.bind_eq_some_iff.mp h
    have hinner := hparse _ _ _ hs'
    dsimp only at h hinner
    split at h
    · cases h
      show (s'.leave s.window).unread ≤ s.unread
      rw [Stream.unread_leave]
      refine Nat.le_trans hinner ?_
      unfold Stream.unread Window.inner
      simp only [List.length_append, List.length_take, List.length_drop]
      omega
    · cases h

/-- The streams are read from the front. -/
theorem bytesRuntime_reads : bytesRuntime.Reads where
  getTagFieldNumber_eq := makeTag_div
  getTagWireType_eq := makeTag_mod
  readTag_le := Stream.readTag_le
  readTag_lt := Stream.readTag_lt
  expectTag_eq := Stream.expectTag_eq
  expectAtEnd_eq := by
    intro s s' h
    have hs : (if s.window.bytes = [] then some (⟨s.window, true⟩ : Stream)
        else none) = some s' := h
    split at hs
    · rename_i hnil
      cases hs
      exact Stream.readTag_nil hnil
    · cases hs
  read_le := by
    intro type s r h
    obtain ⟨r, hr, rfl⟩ := Option.map_eq_some_iff.mp h
    exact s.unread_left (Scalar.readPayload_le hr)
  skipField_le := by
    intro tag x s r h
    obtain ⟨s', hs', rfl⟩ := Option.map_eq_some_iff.mp h
    exact Stream.skipField_le hs'
  readMessage_onward := fun h _ _ _ hr => Stream.readMessage_le h hr

/-! ## What it writes -/

/-- A stream in front of a message that was written. -/
theorem Stream.readMessage_write {M : Type} {num : Nat} {body rest : List UInt8}
    (htag : IsTag num 2) (hlen : body.length < maxLength) {s : Stream}
    (hlevels : 0 < s.window.levels)
    (hs : s.window.bytes = writeVarint (makeTag num 2) ++
      writeVarint body.length ++ body ++ rest) :
    ∃ s', s.readTag = (makeTag num 2, s') ∧
      ∀ {parse : M → Stream → Option (M × Stream)} {m m' : M},
        (∀ t : Stream, t.window = s.window.inner body rest →
          ∃ t', parse m t = some (m', t') ∧
            t'.window = s.window.inner [] rest ∧ t'.atEnd = true) →
        ∃ s'', s'.readMessage parse m = some (m', s'') ∧
          s''.window = s.window.left rest := by
  unfold maxLength at hlen
  have hn : body.length.toUInt32.toNat = body.length := by
    simp; omega
  rw [List.append_assoc, List.append_assoc] at hs
  refine ⟨_, Stream.readTag_write htag hs, ?_⟩
  intro parse m m' hparse
  obtain ⟨t', hrun, hwindow, hend⟩ := hparse
    ⟨s.window.inner body rest, false⟩ rfl
  refine ⟨t'.leave s.window, ?_, ?_⟩
  · have hbytes : (s.left (writeVarint body.length ++ (body ++ rest))).window
        = s.window.left (writeVarint body.length ++ (body ++ rest)) := rfl
    have hlevel : ¬ s.window.levels = 0 := by omega
    unfold Stream.readMessage
    rw [hbytes]
    dsimp only [Window.left]
    rw [readVarint32_write (by omega)]
    simp only [Option.bind_eq_bind, Option.bind_some, hn, List.take_left,
      List.drop_left]
    rw [if_neg hlevel]
    have hinner : ({ s.window with
        bytes := writeVarint body.length ++ (body ++ rest) } : Window).inner
          body rest = s.window.inner body rest := rfl
    rw [hinner, hrun, Option.bind_some, if_pos hend]
    rfl
  · unfold Stream.leave Window.left
    rw [hwindow]
    unfold Window.inner
    simp

theorem length_payload_bool (v : Bool) :
    (Scalar.bool.payload v).length = 1 := by
  cases v with
  | true => rfl
  | false => rfl

/-- What is written to lists is read from them. -/
theorem bytesRuntime_readsBack :
    bytesRuntime.ReadsBack fun s w => s.window = w where
  toReads := bytesRuntime_reads
  isEmpty_empty := rfl
  mergeUnknown_empty _ := rfl
  empty_mergeUnknown _ := rfl
  length_unknown _ := rfl
  length_write := by
    intro num type v htag _
    have htagLength : (writeVarint (makeTag num type.wireType)).length = 1 := by
      rw [writeVarint_low (makeTag_lt htag)]
      rfl
    show (writeVarint (makeTag num type.wireType) ++ type.payload v).length = _
    rw [List.length_append, htagLength]
    cases type with
    | int32 => rfl
    | uint32 => rfl
    | bool => rw [length_payload_bool]; rfl
    | bytes => rfl
  length_value := by
    intro num v
    show v.length ≤ (writeVarint (makeTag num 2) ++
      (writeVarint v.length ++ v)).length
    simp only [List.length_append]
    omega
  length_writeMessage := by
    intro num body htag _
    show (writeVarint (makeTag num 2) ++ writeVarint body.length ++ body).length
      = 1 + ((writeVarint body.length).length + body.length)
    rw [List.length_append, List.length_append,
      writeVarint_low (makeTag_lt htag), List.length_singleton, Nat.add_assoc]
  length_body := by
    intro num size body
    show body.length ≤ (writeVarint (makeTag num 2) ++ writeVarint size ++
      body).length
    rw [List.length_append]
    omega
  readTag_end := by
    intro s w hs hnil
    subst hs
    exact ⟨⟨s.window, true⟩, Stream.readTag_nil hnil, rfl, rfl⟩
  read_write := by
    intro num type v s w rest htag hfits hs hbytes
    subst hs
    have hwritten : s.window.bytes = writeVarint (makeTag num type.wireType) ++
        (type.payload v ++ rest) :=
      hbytes.trans (List.append_assoc _ _ _)
    refine ⟨_, s.left rest, Stream.readTag_write htag hwritten, ?_, rfl⟩
    show (type.readPayload (type.payload v ++ rest)).map _ = _
    rw [Scalar.readPayload_write hfits]
    rfl
  readMessage_write := by
    intro num body s w rest htag hlen hlevels hs hbytes
    subst hs
    obtain ⟨s', hread, _⟩ := Stream.readMessage_write (M := Unit) htag hlen
      hlevels hbytes
    refine ⟨s', hread, ?_⟩
    intro M parse m m' hparse
    obtain ⟨t, hread', hmessage⟩ := Stream.readMessage_write (M := M) htag hlen
      hlevels hbytes
    rw [hread] at hread'
    cases hread'
    exact hmessage hparse
  parseFromString_eq := by
    intro M clear m parse isInitialized data _ hparse
    obtain ⟨s', hrun, hend⟩ := hparse ⟨⟨data, [], data.length, 64⟩, false⟩ rfl
    have hatEnd : s'.atEnd = true := hend
    show ((parse clear ⟨⟨data, [], data.length, 64⟩, false⟩).bind fun r =>
      if isInitialized r.1 && r.2.atEnd then some r.1 else none) = _
    rw [hrun, Option.bind_some, hatEnd, Bool.and_true]

end ProtocolBuffers
