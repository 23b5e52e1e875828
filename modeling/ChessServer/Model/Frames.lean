import ChessServer.Lib.Pieces
import ChessServer.Model.Acts

/-!
# Frames on a connection

What `OnReadCb` makes of a stream of frames that arrives in pieces.  A frame
is handed on by the callback that runs when exactly its last byte has
arrived; a callback that finds more waits, and so does every later one.
-/

namespace ChessServer

open Pieces

/-! ## The header -/

/-- The four bytes of an integer in memory order give it back. -/
theorem le32_bytes (n : UInt32) :
    n.toUInt8.toUInt32 ||| (n >>> 8).toUInt8.toUInt32 <<< 8 |||
      (n >>> 16).toUInt8.toUInt32 <<< 16 |||
      (n >>> 24).toUInt8.toUInt32 <<< 24 = n := by
  refine UInt32.toNat_inj.mp (Nat.eq_of_testBit_eq fun i => ?_)
  have hhigh : 32 ≤ i → n.toNat.testBit i = false := fun hi =>
    Nat.testBit_lt_two_pow
      (n.toNat_lt.trans_le (Nat.pow_le_pow_right (by omega) hi))
  have h8 : UInt32.toNat 8 % 32 = 8 := rfl
  have h16 : UInt32.toNat 16 % 32 = 16 := rfl
  have h24 : UInt32.toNat 24 % 32 = 24 := rfl
  simp only [UInt32.toNat_or, UInt32.toNat_shiftLeft, UInt8.toNat_toUInt32,
    UInt32.toNat_toUInt8, UInt32.toNat_shiftRight, Nat.testBit_or,
    Nat.testBit_mod_two_pow, Nat.testBit_shiftLeft, Nat.testBit_shiftRight,
    h8, h16, h24]
  -- bit `i` comes from the byte that it lies in
  have hcases : i < 8 ∨ (8 ≤ i ∧ i < 16) ∨ (16 ≤ i ∧ i < 24) ∨
      (24 ≤ i ∧ i < 32) ∨ 32 ≤ i := by omega
  rcases hcases with h | ⟨h, h'⟩ | ⟨h, h'⟩ | ⟨h, h'⟩ | h
  · simp [h, show ¬ 8 ≤ i by omega, show ¬ 16 ≤ i by omega,
      show ¬ 24 ≤ i by omega]
  · simp [h, show ¬ i < 8 by omega, show i < 32 by omega,
      show i - 8 < 8 by omega, show 8 + (i - 8) = i by omega,
      show ¬ 16 ≤ i by omega, show ¬ 24 ≤ i by omega]
  · simp [h, show ¬ i < 8 by omega, show i < 32 by omega,
      show ¬ i - 8 < 8 by omega, show i - 16 < 8 by omega,
      show 16 + (i - 16) = i by omega, show ¬ 24 ≤ i by omega]
  · simp [h, show ¬ i < 8 by omega, show i < 32 by omega,
      show ¬ i - 8 < 8 by omega, show ¬ i - 16 < 8 by omega,
      show i - 24 < 8 by omega, show 24 + (i - 24) = i by omega]
  · simp [hhigh h, show ¬ i < 8 by omega, show ¬ i < 32 by omega]

/-- What was laid out as a `u_int32` is read back. -/
theorem readLe32_le32 (n : UInt32) (rest : Bytes) :
    readLe32 (le32 n ++ rest) = n := by
  simp only [readLe32, le32, List.cons_append, List.getD_cons_zero,
    List.getD_cons_succ]
  exact le32_bytes n

/-! ## Headers that were accepted -/

/-- A header that was accepted is still at the front of the buffer. -/
def ReadBufInfo.Peeked (info : ReadBufInfo) (input : Bytes) : Prop :=
  info.gotHead = true →
    dataHeadLength ≤ input.length ∧ info.invalid = false

namespace ReadBufInfo

theorem peeked_fresh (input : Bytes) : ReadBufInfo.Peeked {} input := nofun

theorem Peeked.append {info : ReadBufInfo} {input : Bytes}
    (h : info.Peeked input) (data : Bytes) : info.Peeked (input ++ data) := by
  intro hgot
  obtain ⟨hlen, hvalid⟩ := h hgot
  constructor
  · rw [List.length_append]
    omega
  · exact hvalid

/-- The header block accepts valid headers only, and takes nothing. -/
theorem Peeked.accept {info : ReadBufInfo} {input : Bytes}
    (h : info.Peeked input) (hkeep : info.refuses input = false) :
    (info.accept input).Peeked input := by
  unfold ReadBufInfo.accept
  by_cases hlen : dataHeadLength ≤ input.length
  · rw [if_pos hlen]
    intro _
    constructor
    · exact hlen
    · cases hgot : info.gotHead with
      | true =>
          -- an earlier callback has read the header
          have hsame : info.readHead input = info := if_neg (by simp [hgot])
          rw [hsame]
          exact (h hgot).2
      | false =>
          have hvalid : (info.readHead input).invalid = false := by
            simpa [refuses, hgot, hlen] using hkeep
          exact hvalid
  · rw [if_neg hlen]
    exact h

/-- What a callback that keeps the connection leaves to the next one. -/
theorem Peeked.after {info : ReadBufInfo} {input : Bytes}
    (h : info.Peeked input) (hkeep : info.refuses input = false) :
    (info.after input).2.Peeked (info.after input).1 := by
  unfold ReadBufInfo.after
  cases info.received input with
  | message msgType msg => exact peeked_fresh _
  | waiting => exact h.accept hkeep
  | refused => exact h.accept hkeep
  | broken => exact h.accept hkeep

/-- A body is built from at least a header and at most the largest frame. -/
theorem Peeked.bounds {info : ReadBufInfo} {input : Bytes}
    (h : info.Peeked input) (hcomplete : info.complete input = true) :
    dataHeadLength ≤ info.totalSize.toNat ∧
      info.totalSize.toNat ≤ 512 * maxDataLength ∧
      info.msgType ≤ msgTypeMax ∧ input.length = info.totalSize.toNat := by
  simp only [complete, Bool.and_eq_true, beq_iff_eq] at hcomplete
  obtain ⟨hsize, hgot⟩ := hcomplete
  obtain ⟨hlen, hvalid⟩ := h hgot
  simp only [invalid, Bool.or_eq_false_iff, decide_eq_false_iff_not, not_lt]
    at hvalid
  exact ⟨by omega, hvalid.2, UInt32.not_lt.mp (by simpa using hvalid.1), hsize⟩

end ReadBufInfo

/-! ## Frames -/

/-- A message of a client that keeps to the limits of `OnReadCb`. -/
structure Frame where
  msgType : UInt32
  body : Bytes
  msgType_le : msgType ≤ msgTypeMax
  size_le : body.length + dataHeadLength ≤ 512 * maxDataLength

namespace Frame

/-- The bytes of a frame. -/
def bytes (f : Frame) : Bytes := frame f.msgType f.body

/-- What `MessageHandle` should get. -/
def message (f : Frame) : UInt32 × Bytes := (f.msgType, f.body)

/-- The header state once the header was read. -/
def head (f : Frame) : ReadBufInfo :=
  ⟨(f.body.length + dataHeadLength).toUInt32, f.msgType, true⟩

/-- The bytes of some frames in a row. -/
def stream (frames : List Frame) : Bytes := (frames.map bytes).flatten

@[simp] theorem stream_nil : stream [] = [] := rfl

@[simp] theorem stream_cons (f : Frame) (frames : List Frame) :
    stream (f :: frames) = f.bytes ++ stream frames := rfl

theorem stream_append (front back : List Frame) :
    stream (front ++ back) = stream front ++ stream back := by
  simp [stream]

theorem length_bytes (f : Frame) :
    f.bytes.length = f.body.length + dataHeadLength := by
  simp [bytes, frame, le32, dataHeadLength]

theorem totalSize_head (f : Frame) :
    f.head.totalSize.toNat = f.bytes.length := by
  have hsize := f.size_le
  have hmax : 512 * maxDataLength < 2 ^ 32 := by decide
  rw [length_bytes, head]
  exact Nat.mod_eq_of_lt (by omega)

/-- A frame that keeps to the limits is not refused. -/
theorem valid_head (f : Frame) : f.head.invalid = false := by
  have hsize := f.size_le
  have htotal := f.totalSize_head
  rw [length_bytes] at htotal
  simp only [ReadBufInfo.invalid, Bool.or_eq_false_iff,
    decide_eq_false_iff_not, not_lt]
  exact ⟨UInt32.not_lt.mpr f.msgType_le, by omega⟩

/-- The header is read off the first eight bytes. -/
theorem readHead_eq {f : Frame} {input rest : Bytes} {info : ReadBufInfo}
    (hpre : input <+: f.bytes ++ rest) (hlen : dataHeadLength ≤ input.length)
    (hnew : info.gotHead = false) :
    info.readHead input = { f.head with gotHead := false } := by
  have hinput : input = le32 (f.body.length + dataHeadLength).toUInt32 ++
      (le32 f.msgType ++ input.drop dataHeadLength) := by
    have hhead : input.take dataHeadLength =
        (f.bytes ++ rest).take dataHeadLength := by
      obtain ⟨tail, htail⟩ := hpre
      rw [← htail, List.take_append_of_le_length hlen]
    conv_lhs => rw [← List.take_append_drop dataHeadLength input, hhead]
    simp [bytes, frame, le32, dataHeadLength]
  have htotal : readLe32 input = f.head.totalSize := by
    rw [hinput, readLe32_le32]
    rfl
  have htype : readLe32 (input.drop 4) = f.msgType := by
    rw [hinput]
    exact readLe32_le32 f.msgType _
  rw [ReadBufInfo.readHead, if_pos ⟨by simp [hnew], hlen⟩, htotal, htype, hnew]
  rfl

/-- The header state while a frame arrives. -/
def headOf : List Frame → Bytes → ReadBufInfo
  | f :: _, input => if dataHeadLength ≤ input.length then f.head else {}
  | [], _ => {}

/-- Once eight bytes of a frame are there, the header block leaves its
header, whether or not an earlier callback read it. -/
theorem accept_eq {f : Frame} (frames : List Frame) {input data : Bytes}
    (hpre : input ++ data <+: stream (f :: frames))
    (hlen : dataHeadLength ≤ (input ++ data).length) :
    (headOf (f :: frames) input).refuses (input ++ data) = false ∧
      (headOf (f :: frames) input).accept (input ++ data) = f.head := by
  rw [stream_cons] at hpre
  unfold ReadBufInfo.refuses ReadBufInfo.accept
  rw [if_pos hlen]
  by_cases hinput : dataHeadLength ≤ input.length
  · rw [headOf, if_pos hinput]
    have hkeep : f.head.readHead (input ++ data) = f.head :=
      if_neg (by simp [head])
    rw [hkeep]
    exact ⟨by simp [head], rfl⟩
  · rw [headOf, if_neg hinput, readHead_eq hpre hlen rfl]
    have hvalid := f.valid_head
    refine ⟨?_, rfl⟩
    have hsame : ({ f.head with gotHead := false } : ReadBufInfo).invalid =
        f.head.invalid := rfl
    rw [hsame, hvalid, Bool.and_false]

/-- A whole frame in the buffer is handed on and drained. -/
theorem received_whole {f : Frame} (frames : List Frame) {input data : Bytes}
    (hwhole : input ++ data = f.bytes) :
    (headOf (f :: frames) input).received (input ++ data) =
        .message f.msgType f.body ∧
      (headOf (f :: frames) input).after (input ++ data) = ([], {}) := by
  have hlen : dataHeadLength ≤ (input ++ data).length := by
    rw [hwhole, length_bytes]
    omega
  obtain ⟨hrefuse, haccept⟩ := accept_eq frames
    (by rw [hwhole, stream_cons]; exact List.prefix_append _ _) hlen
  have htotal := f.totalSize_head
  have hcomplete : f.head.complete (input ++ data) = true := by
    have hhead : f.head.gotHead = true := rfl
    rw [ReadBufInfo.complete, hwhole, htotal, hhead, beq_self_eq_true]
    rfl
  have hbody : f.head.body (input ++ data) = some f.body := by
    rw [ReadBufInfo.body, if_neg (by rw [htotal, length_bytes]; omega), htotal,
      hwhole, List.take_length]
    simp [bytes, frame, le32, dataHeadLength]
  have hrecv : (headOf (f :: frames) input).received (input ++ data) =
      .message f.msgType f.body := by
    rw [ReadBufInfo.received, hrefuse, haccept, hcomplete, hbody]
    rfl
  refine ⟨hrecv, ?_⟩
  rw [ReadBufInfo.after, hrecv]
  dsimp only
  rw [haccept, htotal, hwhole, List.drop_length]

/-- A callback that does not find exactly one frame waits. -/
theorem received_part {frames : List Frame} {input data : Bytes}
    (hpre : input ++ data <+: stream frames)
    (hpart : ∀ f rest, frames = f :: rest →
      (input ++ data).length ≠ f.bytes.length) :
    (headOf frames input).received (input ++ data) = .waiting ∧
      (headOf frames input).after (input ++ data) =
        (input ++ data, headOf frames (input ++ data)) := by
  have hwait : ∀ {info : ReadBufInfo}, info.received (input ++ data) =
      .waiting → info.accept (input ++ data) = headOf frames (input ++ data) →
      info.received (input ++ data) = .waiting ∧
        info.after (input ++ data) =
          (input ++ data, headOf frames (input ++ data)) := by
    intro info hrecv haccept
    exact ⟨hrecv, by rw [ReadBufInfo.after, hrecv, haccept]⟩
  have hshort : ∀ info : ReadBufInfo, info = {} →
      (input ++ data).length < dataHeadLength →
      info.received (input ++ data) = .waiting ∧
        info.accept (input ++ data) = {} := by
    rintro _ rfl hlen
    have haccept : ReadBufInfo.accept {} (input ++ data) = {} :=
      if_neg (by omega)
    refine ⟨?_, haccept⟩
    have hrefuse : ReadBufInfo.refuses {} (input ++ data) = false := by
      simp only [ReadBufInfo.refuses, ge_iff_le, Nat.not_le.mpr hlen,
        decide_false, Bool.and_false, Bool.false_and]
    have hcomplete : ReadBufInfo.complete {} (input ++ data) = false := by
      simp only [ReadBufInfo.complete, Bool.and_false]
    rw [ReadBufInfo.received, hrefuse, haccept, hcomplete]
    rfl
  cases frames with
  | nil =>
      have hempty : input ++ data = [] := List.prefix_nil.mp hpre
      obtain ⟨hrecv, haccept⟩ := hshort (headOf [] input) rfl
        (by simp [hempty, dataHeadLength])
      exact hwait hrecv haccept
  | cons f rest =>
      by_cases hlen : dataHeadLength ≤ (input ++ data).length
      · obtain ⟨hrefuse, haccept⟩ := accept_eq _ hpre hlen
        refine hwait ?_ (by rw [haccept, headOf, if_pos hlen])
        have hcomplete : f.head.complete (input ++ data) = false := by
          simp only [ReadBufInfo.complete, f.totalSize_head,
            Bool.and_eq_false_iff, beq_eq_false_iff_ne]
          exact Or.inl (hpart f rest rfl)
        rw [ReadBufInfo.received, hrefuse, haccept, hcomplete]
        rfl
      · have hinput : ¬ dataHeadLength ≤ input.length := by
          rw [List.length_append] at hlen
          omega
        obtain ⟨hrecv, haccept⟩ := hshort (headOf (f :: rest) input)
          (if_neg hinput) (by omega)
        exact hwait hrecv (by rw [haccept, headOf, if_neg hlen])

end Frame

/-! ## The stream so far -/

/-- The frames `done` were handed on and `todo` were not, after the pieces
`chunks` of the stream arrived. -/
structure Listening (chunks : List Bytes) (done todo : List Frame)
    (input : Bytes) (info : ReadBufInfo) : Prop where
  stream : chunks.flatten = Frame.stream done ++ input
  ahead : input <+: Frame.stream todo
  head : info = Frame.headOf todo input
  /-- every frame handed on ended with a piece -/
  ends : Refines chunks (done.map Frame.bytes)
  /-- the next one did not -/
  blocked : ∀ f rest, todo = f :: rest →
    ¬ Boundary chunks (Frame.stream (done ++ [f])).length

theorem listening_start (frames : List Frame) :
    Listening [] [] frames [] {} where
  stream := rfl
  ahead := List.nil_prefix
  head := by
    cases frames with
    | nil => rfl
    | cons f rest => simp [Frame.headOf, dataHeadLength]
  ends := fun n h => h
  blocked := by
    intro f rest _ h
    rw [boundary_nil] at h
    simp [Frame.length_bytes, dataHeadLength] at h

/-- One more piece of the stream either completes a frame or leaves the
receiver waiting. -/
theorem Listening.arrive {chunks : List Bytes} {done todo : List Frame}
    {input : Bytes} {info : ReadBufInfo}
    (h : Listening chunks done todo input info) {data : Bytes}
    (hpre : (chunks ++ [data]).flatten <+: Frame.stream (done ++ todo)) :
    (info.received (input ++ data) = .waiting ∧
      Listening (chunks ++ [data]) done todo (info.after (input ++ data)).1
        (info.after (input ++ data)).2) ∨
    (∃ f rest, todo = f :: rest ∧
      info.received (input ++ data) = .message f.msgType f.body ∧
      Listening (chunks ++ [data]) (done ++ [f]) rest
        (info.after (input ++ data)).1 {}) := by
  obtain ⟨hstream, _, rfl, hends, hblocked⟩ := h
  have hstream' : (chunks ++ [data]).flatten =
      Frame.stream done ++ (input ++ data) := by simp [hstream]
  have hahead : input ++ data <+: Frame.stream todo := by
    rw [hstream', Frame.stream_append] at hpre
    exact (List.prefix_append_right_inj _).mp hpre
  have hends' : Refines (chunks ++ [data]) (done.map Frame.bytes) :=
    fun n hn => boundary_concat.mpr (Or.inl (hends n hn))
  by_cases hwhole : ∃ f rest, todo = f :: rest ∧
      (input ++ data).length = f.bytes.length
  · obtain ⟨f, rest, rfl, hlen⟩ := hwhole
    have hsame : input ++ data = f.bytes := by
      rw [Frame.stream_cons] at hahead
      exact List.IsPrefix.eq_of_length
        (List.prefix_of_prefix_length_le hahead (List.prefix_append _ _)
          (Nat.le_of_eq hlen)) hlen
    obtain ⟨hrecv, hafter⟩ := Frame.received_whole rest hsame
    refine Or.inr ⟨f, rest, rfl, hrecv, ?_⟩
    have hdone : (chunks ++ [data]).flatten = Frame.stream (done ++ [f]) := by
      rw [hstream', hsame, Frame.stream_append]
      simp
    rw [hafter]
    refine ⟨by simp [hdone], List.nil_prefix, (listening_start rest).head,
      fun n hn => ?_, fun g rest' _ hg => ?_⟩
    · rw [List.map_append, List.map_singleton, boundary_concat] at hn
      rcases hn with hn | rfl
      · exact hends' n hn
      · rw [show (done.map Frame.bytes).flatten ++ f.bytes =
          (chunks ++ [data]).flatten by rw [hstream', hsame]; rfl]
        exact boundary_length _
    · -- nothing behind this frame has arrived
      have hle := hg.le
      rw [hdone, Frame.stream_append (done ++ [f])] at hle
      simp [Frame.length_bytes, dataHeadLength] at hle
  · have hpart : ∀ f rest, todo = f :: rest →
        (input ++ data).length ≠ f.bytes.length :=
      fun f rest htodo hlen => hwhole ⟨f, rest, htodo, hlen⟩
    obtain ⟨hrecv, hafter⟩ := Frame.received_part hahead hpart
    refine Or.inl ⟨hrecv, ?_⟩
    rw [hafter]
    refine ⟨hstream', hahead, rfl, hends', fun f rest htodo hf => ?_⟩
    rw [boundary_concat] at hf
    rcases hf with hf | hf
    · exact hblocked f rest htodo hf
    · refine hpart f rest htodo ?_
      rw [hstream, Frame.stream_append] at hf
      simp only [List.length_append, Frame.stream_cons, Frame.stream_nil,
        List.length_nil] at hf ⊢
      omega

/-- When the stream is over, all frames were handed on if and only if every
frame ended with a piece. -/
theorem Listening.all_iff {chunks : List Bytes} {done todo : List Frame}
    {input : Bytes} {info : ReadBufInfo}
    (h : Listening chunks done todo input info) :
    todo = [] ↔ Refines chunks ((done ++ todo).map Frame.bytes) := by
  cases todo with
  | nil => simpa using h.ends
  | cons f rest =>
      refine ⟨nofun, fun hall => absurd (hall _ ?_) (h.blocked f rest rfl)⟩
      have hfront := boundary_append ((done ++ [f]).map Frame.bytes)
        (rest.map Frame.bytes)
      rw [← List.map_append, List.append_assoc] at hfront
      exact hfront

end ChessServer
