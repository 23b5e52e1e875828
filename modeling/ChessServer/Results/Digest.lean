import ChessServer.Model.Digest
import ChessServer.Results.Tokens

/-!
# The digest of a message in pieces

However a message is handed to `update`, and whatever the object's memory held
before, `hexdigest` is the digest of the whole of it (`hash_pieces`).  The
tokens of the password requests are such texts (`reachable_minting`).
-/

namespace ChessServer.MD5

open Blocks Rfc1321

variable {md5 : MD5} {text input : Bytes} {length : UInt32}

/-- The state of a new object. -/
def init : State := ⟨0x67452301, 0xefcdab89, 0x98badcfe, 0x10325476⟩

/-- The object has taken in a text. -/
structure Holds (md5 : MD5) (text : Bytes) : Prop where
  unfinished : md5.finalized = false
  size : md5.buffer.length = blocksize
  count : md5.count0.toNat + 2 ^ 32 * md5.count1.toNat =
    8 * text.length % 2 ^ 64
  fed : feed blocksize transform (init, []) text =
    (md5.state, md5.buffer.take (text.length % blocksize))

theorem new_holds {buffer : Bytes} (hbuffer : buffer.length = blocksize)
    (digest : Bytes) : (new buffer digest).Holds [] where
  unfinished := rfl
  size := hbuffer
  count := rfl
  fed := rfl

/-! ## The parts of `update` -/

theorem index_toNat (h : md5.Holds text) :
    md5.index.toNat = text.length % blocksize := by
  have hcount := h.count
  have hlow := md5.count0.toNat_lt
  show md5.count0.toNat / 8 % 64 = text.length % 64
  omega

/-- The number of bits, and what the sums carry. -/
theorem countBits_toNat (length : UInt32) (md5 : MD5) :
    (md5.countBits length).count0.toNat +
        2 ^ 32 * (md5.countBits length).count1.toNat =
      (md5.count0.toNat + 2 ^ 32 * md5.count1.toNat + 8 * length.toNat) %
        2 ^ 64 := by
  have hlow := md5.count0.toNat_lt
  have hhigh := md5.count1.toNat_lt
  have hlength := length.toNat_lt
  have hshift : (length <<< 3).toNat = 8 * length.toNat % 2 ^ 32 := by
    rw [UInt32.toNat_shiftLeft, Nat.shiftLeft_eq]
    show length.toNat * 8 % _ = _
    rw [Nat.mul_comm]
  have htop : (length >>> 29).toNat = length.toNat / 2 ^ 29 := by
    rw [UInt32.toNat_shiftRight, Nat.shiftRight_eq_div_pow]
    rfl
  unfold countBits
  dsimp only
  rw [UInt32.toNat_add, UInt32.toNat_add, UInt32.toNat_add, hshift, htop]
  split
  · rename_i hcarry
    rw [UInt32.lt_iff_toNat_lt, UInt32.toNat_add, hshift] at hcarry
    show _ + 2 ^ 32 * (((_ + 1) % _ + _) % _) = _
    omega
  · rename_i hcarry
    rw [UInt32.lt_iff_toNat_lt, UInt32.toNat_add, hshift] at hcarry
    show _ + 2 ^ 32 * (((_ + 0) % _ + _) % _) = _
    omega

theorem memcpy_eq (dst : Bytes) (pos : Nat) (src : Bytes) (start n : Nat)
    (hdst : pos + n ≤ dst.length) (hsrc : start + n ≤ src.length) :
    memcpy dst pos src start n =
      some (dst.take pos ++ (src.drop start).take n ++ dst.drop (pos + n)) :=
  if_pos ⟨hdst, hsrc⟩

/-- The loop takes whole blocks while there are any. -/
theorem transformChunks_feed (hlength : length.toNat + blocksize < 2 ^ 32)
    (hinput : length.toNat ≤ input.length) (fuel : Nat) (i : UInt32)
    (hi : i.toNat ≤ length.toNat)
    (hfuel : length.toNat < i.toNat + 64 * fuel) (state : State) :
    ∃ i' state', transformChunks input length fuel i state = some (i', state') ∧
      i'.toNat ≤ length.toNat ∧ length.toNat < i'.toNat + blocksize ∧
      feed blocksize transform (state, [])
          ((input.take length.toNat).drop i.toNat) =
        (state', (input.take length.toNat).drop i'.toNat) := by
  have hblock : blocksize = 64 := rfl
  induction fuel generalizing i state with
  | zero => omega
  | succ fuel ih =>
      have hnext : (i + 64).toNat = i.toNat + 64 := by
        rw [UInt32.toNat_add]
        show (i.toNat + 64) % 2 ^ 32 = _
        omega
      have hlen : (input.take length.toNat).length = length.toNat := by
        rw [List.length_take]
        omega
      unfold transformChunks
      by_cases hmore : i + 64 ≤ length
      · have hle : i.toNat + 64 ≤ length.toNat := by
          rw [← hnext]
          exact UInt32.le_iff_toNat_le.mp hmore
        have hat : transformAt state input i.toNat =
            some (transform state ((input.drop i.toNat).take blocksize)) :=
          if_pos (show i.toNat + blocksize ≤ input.length by omega)
        obtain ⟨i', state', hrest, hle', hlt', hfeed⟩ :=
          ih (i + 64) (by omega) (by omega)
            (transform state ((input.drop i.toNat).take blocksize))
        refine ⟨i', state', ?_, hle', hlt', ?_⟩
        · rw [if_pos hmore, hat]
          exact hrest
        · have hsplit : (input.take length.toNat).drop i.toNat =
              (input.drop i.toNat).take blocksize ++
                (input.take length.toNat).drop (i + 64).toNat := by
            have hhead : (input.drop i.toNat).take blocksize =
                ((input.take length.toNat).drop i.toNat).take blocksize := by
              rw [List.drop_take, List.take_take]
              congr 1
              omega
            rw [hhead, hnext, ← List.drop_drop]
            exact (List.take_append_drop _ _).symm
          have hfull : ((input.drop i.toNat).take blocksize).length =
              blocksize := by
            rw [List.length_take, List.length_drop]
            omega
          rw [hsplit, feed_append, feed_full state [] _ (by decide)
            (by rw [hfull]; rfl)]
          exact hfeed
      · refine ⟨i, state, if_neg hmore, hi, ?_, ?_⟩
        · rw [UInt32.le_iff_toNat_le] at hmore
          omega
        · rw [UInt32.le_iff_toNat_le] at hmore
          refine feed_short state [] _ ?_
          rw [List.length_nil, List.length_drop, hlen]
          omega

/-! ## `update` -/

theorem Holds.kept (h : md5.Holds text) :
    (md5.buffer.take (text.length % blocksize)).length =
      text.length % blocksize := by
  have hmod : text.length % blocksize < blocksize := Nat.mod_lt _ (by decide)
  rw [List.length_take, h.size]
  omega

/-- What is kept of a text and a piece is what does not fill a block. -/
theorem Holds.feed_piece (h : md5.Holds text) (piece : Bytes) :
    feed blocksize transform (init, []) (text ++ piece) =
      feed blocksize transform
        (md5.state, md5.buffer.take (text.length % blocksize)) piece := by
  rw [feed_append, h.fed]

theorem Holds.firstpart (h : md5.Holds text) :
    (64 - md5.index).toNat = blocksize - text.length % blocksize := by
  have hblock : blocksize = 64 := rfl
  have hmod : text.length % blocksize < blocksize := Nat.mod_lt _ (by decide)
  have hindex := index_toNat h
  rw [UInt32.toNat_sub_of_le _ _
    (UInt32.le_iff_toNat_le.mpr (show _ ≤ 64 by omega)), hindex]
  rfl

/-- A piece that leaves the block open goes to the buffer. -/
theorem Holds.update_short (h : md5.Holds text)
    (hinput : length.toNat ≤ input.length)
    (hshort : text.length % blocksize + length.toNat < blocksize) :
    ∃ md5', update input length md5 = some md5' ∧
      md5'.Holds (text ++ input.take length.toNat) := by
  have hblock : blocksize = 64 := rfl
  have hindex := index_toNat h
  have hfirst : ¬ length ≥ 64 - md5.index := by
    show ¬ 64 - md5.index ≤ length
    rw [UInt32.le_iff_toNat_le, h.firstpart]
    omega
  have hcopy := memcpy_eq md5.buffer md5.index.toNat input 0 length.toNat
    (by rw [h.size, hindex]; omega) (by omega)
  have hpiece : (input.take length.toNat).length = length.toNat := by
    rw [List.length_take]
    omega
  have hmod : (text ++ input.take length.toNat).length % blocksize =
      text.length % blocksize + length.toNat := by
    rw [List.length_append, hpiece]
    rw [hblock] at hshort ⊢
    omega
  have hlen : (md5.buffer.take md5.index.toNat ++
      (input.drop 0).take length.toNat).length =
        text.length % blocksize + length.toNat := by
    rw [List.length_append, hindex, h.kept, List.drop_zero, hpiece]
  generalize hbuffer : md5.buffer.take md5.index.toNat ++
    (input.drop 0).take length.toNat ++
      md5.buffer.drop (md5.index.toNat + length.toNat) = buffer at hcopy
  refine ⟨{ md5.countBits length with buffer }, ?_, ?_⟩
  · unfold update
    dsimp only
    rw [if_neg hfirst]
    show (memcpy md5.buffer _ _ _ _).bind _ = _
    rw [hcopy, Option.bind_some]
  · refine ⟨h.unfinished, ?_, ?_, ?_⟩
    · show buffer.length = _
      rw [← hbuffer, List.length_append, hlen, List.length_drop, h.size, hindex]
      omega
    · show (md5.countBits length).count0.toNat + 2 ^ 32 *
        (md5.countBits length).count1.toNat = _
      rw [countBits_toNat, h.count, List.length_append, hpiece]
      omega
    · show _ = (md5.state, buffer.take _)
      rw [h.feed_piece, feed_short _ _ _ (by rw [h.kept, hpiece]; exact hshort),
        ← hbuffer, hmod, ← hlen, List.take_left, hindex, List.drop_zero]

/-- The block with the beginning of a piece that fills it. -/
def filled (md5 : MD5) (text input : Bytes) : Bytes :=
  md5.buffer.take (text.length % blocksize) ++
    input.take (64 - md5.index).toNat

theorem Holds.length_filled (h : md5.Holds text)
    (hinput : blocksize ≤ text.length % blocksize + input.length) :
    (filled md5 text input).length = blocksize := by
  have hmod : text.length % blocksize < blocksize := Nat.mod_lt _ (by decide)
  rw [filled, List.length_append, h.kept, List.length_take, h.firstpart]
  omega

theorem Holds.memcpy_filled (h : md5.Holds text)
    (hinput : blocksize ≤ text.length % blocksize + input.length) :
    memcpy md5.buffer md5.index.toNat input 0 (64 - md5.index).toNat =
      some (filled md5 text input) := by
  have hmod : text.length % blocksize < blocksize := Nat.mod_lt _ (by decide)
  have hindex := index_toNat h
  have hfirst := h.firstpart
  have hrest : md5.buffer.drop
      (md5.index.toNat + (64 - md5.index).toNat) = [] := by
    apply List.drop_eq_nil_of_le
    rw [h.size, hindex, hfirst]
    omega
  rw [memcpy_eq md5.buffer md5.index.toNat input 0 (64 - md5.index).toNat
    (by rw [h.size, hindex, hfirst]; omega) (by rw [hfirst]; omega), hrest,
    List.append_nil, List.drop_zero, hindex, filled]

/-- The rest of the piece is fed to what the full block left. -/
theorem Holds.feed_filled (h : md5.Holds text)
    (hinput : length.toNat ≤ input.length)
    (hlong : blocksize ≤ text.length % blocksize + length.toNat) :
    feed blocksize transform (init, []) (text ++ input.take length.toNat) =
      feed blocksize transform
        (transform md5.state (filled md5 text input), [])
        ((input.take length.toNat).drop (64 - md5.index).toNat) := by
  have hmod : text.length % blocksize < blocksize := Nat.mod_lt _ (by decide)
  have hfirst := h.firstpart
  have htake : input.take (64 - md5.index).toNat =
      (input.take length.toNat).take (64 - md5.index).toNat := by
    rw [List.take_take]
    congr 1
    omega
  have hsplit : input.take length.toNat = input.take (64 - md5.index).toNat ++
      (input.take length.toNat).drop (64 - md5.index).toNat := by
    rw [htake, List.take_append_drop]
  have hhead : (input.take (64 - md5.index).toNat).length =
      blocksize - text.length % blocksize := by
    rw [List.length_take, hfirst]
    omega
  rw [h.feed_piece, hsplit, feed_append,
    feed_full md5.state (md5.buffer.take (text.length % blocksize))
      (input.take (64 - md5.index).toNat) (by rw [h.kept]; exact hmod)
      (by rw [h.kept, hhead]; omega), ← hsplit, filled]

/-- A piece that reaches the end of the block. -/
theorem Holds.update_long (h : md5.Holds text)
    (hlength : length.toNat + blocksize < 2 ^ 32)
    (hinput : length.toNat ≤ input.length)
    (hlong : blocksize ≤ text.length % blocksize + length.toNat) :
    ∃ md5', update input length md5 = some md5' ∧
      md5'.Holds (text ++ input.take length.toNat) := by
  have hfirst := h.firstpart
  have hge : length ≥ 64 - md5.index := by
    show 64 - md5.index ≤ length
    rw [UInt32.le_iff_toNat_le, hfirst]
    omega
  have hpiece : (input.take length.toNat).length = length.toNat := by
    rw [List.length_take]
    omega
  -- the block that the piece completes
  have hcopy : memcpy md5.buffer md5.index.toNat input 0
      (64 - md5.index).toNat = some (filled md5 text input) :=
    h.memcpy_filled (by omega)
  have hfull : (filled md5 text input).length = blocksize :=
    h.length_filled (by omega)
  -- the blocks after it
  obtain ⟨i, state, hchunks, hi, hlast, hfeed⟩ := transformChunks_feed hlength
    hinput (input.length + 1) (64 - md5.index) (by rw [hfirst]; omega)
    (by omega) (transform md5.state (filled md5 text input))
  rw [← h.feed_filled hinput hlong] at hfeed
  -- the bytes behind them
  have hleft : (length - i).toNat = length.toNat - i.toNat :=
    UInt32.toNat_sub_of_le _ _ (UInt32.le_iff_toNat_le.mpr hi)
  have hcopy' := memcpy_eq (filled md5 text input) 0 input i.toNat
    (length - i).toNat (by rw [hfull, hleft]; omega) (by rw [hleft]; omega)
  have htail : (input.drop i.toNat).take (length - i).toNat =
      (input.take length.toNat).drop i.toNat := by
    rw [List.drop_take, hleft]
  have hkept : ((input.take length.toNat).drop i.toNat).length =
      (text ++ input.take length.toNat).length % blocksize := by
    have hlen := feed_kept (f := transform) (show 0 < blocksize by decide) init
      [] (text ++ input.take length.toNat) (by decide)
    rw [hfeed, List.length_nil, Nat.zero_add] at hlen
    exact hlen
  rw [List.take_zero, List.nil_append, htail, Nat.zero_add] at hcopy'
  generalize hbuffer : (input.take length.toNat).drop i.toNat ++
    (filled md5 text input).drop (length - i).toNat = buffer at hcopy'
  refine ⟨{ md5.countBits length with buffer, state }, ?_, ?_⟩
  · unfold update
    dsimp only
    rw [if_pos hge]
    show (memcpy md5.buffer _ _ _ _).bind _ = _
    rw [hcopy, Option.bind_some]
    show (transformChunks _ _ _ _ (transform md5.state _)).bind _ = _
    rw [hchunks, Option.bind_some]
    dsimp only
    rw [hcopy', Option.bind_eq_bind, Option.bind_some]
  · refine ⟨h.unfinished, ?_, ?_, ?_⟩
    · show buffer.length = _
      rw [← hbuffer, List.length_append, List.length_drop, List.length_drop,
        hfull, hpiece, hleft]
      omega
    · show (md5.countBits length).count0.toNat + 2 ^ 32 *
        (md5.countBits length).count1.toNat = _
      rw [countBits_toNat, h.count, List.length_append, hpiece]
      omega
    · show _ = (state, buffer.take _)
      rw [hfeed, ← hbuffer, ← hkept, List.take_left]

/-- Any piece, as long as the loop's variable does not wrap. -/
theorem Holds.update (h : md5.Holds text) (input : Bytes) (length : UInt32)
    (hlength : length.toNat + blocksize < 2 ^ 32)
    (hinput : length.toNat ≤ input.length) :
    ∃ md5', MD5.update input length md5 = some md5' ∧
      md5'.Holds (text ++ input.take length.toNat) := by
  by_cases hshort : text.length % blocksize + length.toNat < blocksize
  · exact h.update_short hinput hshort
  · exact h.update_long hlength hinput (by omega)

/-! ## `finalize` -/

/-- The two counters are the length that the RFC appends. -/
theorem Holds.encode_count (h : md5.Holds text) :
    encode [md5.count0, md5.count1] = littleEndian 8 (8 * text.length) := by
  have hcount := h.count
  have hlow := md5.count0.toNat_lt
  have hhigh := md5.count1.toNat_lt
  have hlo : md5.count0.toNat % 256 ^ 4 = 8 * text.length % 256 ^ 4 := by omega
  have hhi : md5.count1.toNat % 256 ^ 4 =
      8 * text.length / 256 ^ 4 % 256 ^ 4 := by omega
  rw [encode_cons, encode_word, littleEndian_congr hlo, littleEndian_congr hhi]
  exact (littleEndian_add 4 4 _).symm

/-- `padLen`. -/
def padLen (md5 : MD5) : UInt32 :=
  if md5.index < 56 then 56 - md5.index else 120 - md5.index

theorem Holds.padLen_toNat (h : md5.Holds text) :
    md5.padLen.toNat = (119 - text.length % 64) % 64 + 1 := by
  have hindex := index_toNat h
  have hmod : text.length % 64 < 64 := Nat.mod_lt _ (by decide)
  have hblock : text.length % blocksize = text.length % 64 := rfl
  unfold padLen
  split
  · rename_i hlt
    rw [UInt32.lt_iff_toNat_lt] at hlt
    rw [UInt32.toNat_sub_of_le _ _
      (UInt32.le_iff_toNat_le.mpr (Nat.le_of_lt hlt))]
    change _ < 56 at hlt
    show 56 - _ = _
    omega
  · rw [UInt32.toNat_sub_of_le _ _
      (UInt32.le_iff_toNat_le.mpr (show _ ≤ 120 by omega))]
    rename_i hge
    rw [UInt32.lt_iff_toNat_lt] at hge
    change ¬ _ < 56 at hge
    show 120 - _ = _
    omega

theorem take_padding {n : Nat} (hn : n ≤ 63) :
    MD5.padding.take (n + 1) = 128 :: List.replicate n 0 := by
  show 128 :: (List.replicate 63 0).take n = _
  rw [List.take_replicate, Nat.min_eq_left hn]

/-- What is appended fills the last block. -/
theorem dvd_padded (text : Bytes) :
    64 ∣ (text ++ Rfc1321.padding text.length).length := by
  unfold Rfc1321.padding
  simp only [List.length_append, List.length_cons, List.length_replicate,
    length_littleEndian]
  omega

theorem encode_regs (s : State) :
    encode s.toList = littleEndian 4 s.regs.a.toNat ++
      littleEndian 4 s.regs.b.toNat ++ littleEndian 4 s.regs.c.toNat ++
        littleEndian 4 s.regs.d.toNat := by
  unfold State.toList
  rw [encode_cons, encode_cons, encode_cons, encode_word, ← List.append_assoc,
    ← List.append_assoc]
  rfl

/-- The state at the end is the digest. -/
theorem Holds.encode_state (h : md5.Holds
    (text ++ Rfc1321.padding text.length)) :
    encode md5.state.toList = Rfc1321.digest text := by
  have hsplit := feed_split (f := transform) (show 0 < blocksize by decide) init
    (dvd_padded text)
  have hstate : md5.state = (split 64
      (text ++ Rfc1321.padding text.length)).foldl transform init := by
    have hfst := congrArg Prod.fst (h.fed.symm.trans hsplit)
    exact hfst
  have hregs : md5.state.regs = Rfc1321.hash text := by
    rw [hstate]
    exact foldl_transform (fun _ hb => length_of_mem_split hb) init
  rw [encode_regs, hregs]
  rfl

theorem Holds.finalize (h : md5.Holds text) :
    ∃ md5', MD5.finalize md5 = some md5' ∧
      md5'.hexdigest = (Rfc1321.digest text).flatMap hex := by
  have hpad := h.padLen_toNat
  have hmod : (119 - text.length % 64) % 64 < 64 := Nat.mod_lt _ (by decide)
  have hblock : blocksize = 64 := rfl
  obtain ⟨md5₁, hupdate₁, h₁⟩ := h.update MD5.padding md5.padLen (by omega)
    (by rw [hpad]; exact hmod)
  obtain ⟨md5₂, hupdate₂, h₂⟩ := h₁.update
    (encode [md5.count0, md5.count1]) 8 (by decide)
    (by rw [h.encode_count, length_littleEndian]; decide)
  rw [hpad, take_padding (by omega), h.encode_count, List.append_assoc] at h₂
  have hencode := Holds.encode_state h₂
  refine ⟨{ md5₂ with
    digest := encode md5₂.state.toList
    buffer := List.replicate 64 0
    count0 := 0
    count1 := 0
    finalized := true }, ?_, ?_⟩
  · unfold MD5.finalize
    rw [h.unfinished, if_neg (by decide)]
    show (MD5.update MD5.padding md5.padLen md5).bind _ = _
    rw [hupdate₁, Option.bind_some]
    show (MD5.update _ 8 md5₁).bind _ = _
    rw [hupdate₂, Option.bind_some]
  · show (encode md5₂.state.toList).flatMap hex = _
    rw [hencode]

/-! ## The whole -/

/-- Calls of `update`, then `finalize` and `hexdigest`. -/
def hash (calls : List (Bytes × UInt32)) (md5 : MD5) : Option Bytes := do
  let md5 ← calls.foldlM (fun md5 call => MD5.update call.1 call.2 md5) md5
  let md5 ← md5.finalize
  some md5.hexdigest

/-- What the calls hand over. -/
def handed (calls : List (Bytes × UInt32)) : Bytes :=
  calls.flatMap fun call : Bytes × UInt32 => call.1.take call.2.toNat

/-- A call whose length is one of its input, and leaves room for a block. -/
def Sound (call : Bytes × UInt32) : Prop :=
  call.2.toNat ≤ call.1.length ∧ call.2.toNat + 64 < 2 ^ 32

theorem Holds.updates (h : md5.Holds text) {calls : List (Bytes × UInt32)}
    (hcalls : ∀ call ∈ calls, Sound call) :
    ∃ md5', calls.foldlM (fun md5 call => MD5.update call.1 call.2 md5) md5 =
      some md5' ∧ md5'.Holds (text ++ handed calls) := by
  induction calls generalizing md5 text with
  | nil => exact ⟨md5, rfl, by rwa [handed, List.flatMap_nil, List.append_nil]⟩
  | cons call calls ih =>
      obtain ⟨hinput, hlength⟩ := hcalls call List.mem_cons_self
      obtain ⟨md5₁, hupdate, h₁⟩ := h.update call.1 call.2 hlength hinput
      obtain ⟨md5₂, hrest, h₂⟩ :=
        ih h₁ fun c hc => hcalls c (List.mem_cons_of_mem _ hc)
      refine ⟨md5₂, ?_, ?_⟩
      · rw [List.foldlM_cons, hupdate]
        exact hrest
      · rw [List.append_assoc] at h₂
        rw [handed, List.flatMap_cons]
        exact h₂

theorem Holds.hash (h : md5.Holds text) {calls : List (Bytes × UInt32)}
    (hcalls : ∀ call ∈ calls, Sound call) :
    MD5.hash calls md5 =
      some ((Rfc1321.digest (text ++ handed calls)).flatMap hex) := by
  obtain ⟨md5₁, hupdates, h₁⟩ := h.updates hcalls
  obtain ⟨md5₂, hfinalize, hhex⟩ := h₁.finalize
  unfold MD5.hash
  rw [hupdates]
  show (MD5.finalize md5₁).bind _ = _
  rw [hfinalize, Option.bind_some, hhex]

/-- In whatever pieces a message comes, the result is the hexadecimal text of
its digest, and the memory of the object does not matter. -/
theorem hash_pieces {buffer : Bytes} (hbuffer : buffer.length = blocksize)
    (digest : Bytes) {calls : List (Bytes × UInt32)}
    (hcalls : ∀ call ∈ calls, Sound call) :
    hash calls (new buffer digest) =
      some ((Rfc1321.digest (handed calls)).flatMap hex) :=
  (new_holds hbuffer digest).hash hcalls

instance (call : Bytes × UInt32) : Decidable (Sound call) :=
  inferInstanceAs (Decidable (_ ∧ _))

/-- Three letters in two pieces, the second from a longer array. -/
theorem hash_pieces_abc :
    hash [(lit "ab", 2), (lit "cd", 1)]
        (new (List.replicate 64 7) (List.replicate 16 3)) =
      some (lit "900150983cd24fb0d6963f7d28e17f72") :=
  (hash_pieces (by decide) _ (by decide +kernel)).trans (by decide +kernel)

/-! ## Strings -/

/-- The characters of a digest. -/
theorem hex_spec (byte : UInt8) : (hex byte).length = 2 ∧
    ∀ c ∈ hex byte, c ∈ lit "0123456789abcdef" := by
  have hlt := byte.toNat_lt
  have hdigit (n : Nat) (hn : n < 16) :
      (lit "0123456789abcdef").getD n 0 ∈ lit "0123456789abcdef" := by
    have hall : (lit "0123456789abcdef").length = 16 := by decide +kernel
    have hlen : n < (lit "0123456789abcdef").length := hall ▸ hn
    rw [List.getD_eq_getElem _ _ hlen]
    exact List.getElem_mem hlen
  refine ⟨rfl, fun c hc => ?_⟩
  rcases List.mem_cons.mp hc with rfl | hc
  · exact hdigit _ (by omega)
  · rw [List.mem_singleton.mp hc]
    exact hdigit _ (Nat.mod_lt _ (by decide))

theorem length_digest (message : Bytes) :
    (Rfc1321.digest message).length = 16 := by
  simp only [Rfc1321.digest, List.length_append, length_littleEndian]

/-- The text of a digest. -/
theorem hex_digest (message : Bytes) :
    ((Rfc1321.digest message).flatMap hex).length = 32 ∧
      ∀ c ∈ (Rfc1321.digest message).flatMap hex,
        c ∈ lit "0123456789abcdef" := by
  constructor
  · have hlen : ∀ b ∈ Rfc1321.digest message, (hex b).length = 2 :=
      fun b _ => (hex_spec b).1
    rw [List.length_flatMap, List.map_congr_left hlen, List.map_const',
      List.sum_replicate_nat, length_digest]
  · intro c hc
    obtain ⟨b, _, hcb⟩ := List.mem_flatMap.mp hc
    exact (hex_spec b).2 c hcb

end ChessServer.MD5

namespace ChessServer

/-- `md5` of a string whose length the loop's variable can hold. -/
theorem md5_eq {buffer : Bytes} (hbuffer : buffer.length = MD5.blocksize)
    (digest : Bytes) {str : Bytes} (hstr : str.length + 64 < 2 ^ 32) :
    md5 buffer digest str = some ((Rfc1321.digest str).flatMap MD5.hex) := by
  have hlen : str.length.toUInt32.toNat = str.length := by
    rw [UInt32.toNat_ofNat']
    omega
  obtain ⟨md5₁, hupdate, h₁⟩ := (MD5.new_holds hbuffer digest).update
    (str ++ [0]) str.length.toUInt32
    (by rw [hlen]; exact hstr) (by rw [hlen, List.length_append]; omega)
  rw [List.nil_append, hlen, List.take_left] at h₁
  obtain ⟨md5₂, hfinalize, hhex⟩ := h₁.finalize
  unfold md5 MD5.ofString
  show ((MD5.update _ _ _).bind _).bind _ = _
  rw [hupdate, Option.bind_some, hfinalize, Option.bind_some, hhex]

/-- What `md5` returns, as a token. -/
def md5Digest (str : Bytes) : FindPwd.Digest where
  val := (Rfc1321.digest str).flatMap MD5.hex
  property := by
    obtain ⟨hlen, hdigits⟩ := MD5.hex_digest str
    exact ⟨hlen, fun h => absurd (hdigits 0 h) (by decide +kernel)⟩

namespace FindPwd

/-- The token is what `md5` makes of an account and a time, whatever its
memory holds. -/
def Minted (token : Bytes) : Prop :=
  ∃ (account : Bytes) (time : UInt32), ∀ buffer digest : Bytes,
    buffer.length = MD5.blocksize →
      md5 buffer digest (account ++ lit (toString time.toNat)) = some token

/-- `md5` can take in what a request hands to it. -/
def Event.Short : Event → Prop
  | .request account time _ =>
      (account ++ lit (toString time.toNat)).length + 64 < 2 ^ 32
  | _ => True

/-- All tokens come from `md5`. -/
structure Minting (w : State) : Prop where
  timers : ∀ t ∈ w.timers, Minted t.user.token
  writes : ∀ o ∈ w.writes, Minted o.value

theorem Minting.timerAdd {w : State} (h : Minting w) (added : Bool)
    (sec usec : Nat) (handler : Handler) {user : FpwUserInfo}
    (huser : Minted user.token) :
    Minting (w.timerAdd added sec usec handler user) where
  timers := by
    intro t ht
    rcases mem_timerAdd ht with ht | rfl
    · exact h.timers t ht
    · exact huser
  writes := by
    rw [timerAdd_writes]
    exact h.writes

theorem Minting.sendMail {w : State} (h : Minting w) {user : FpwUserInfo}
    (huser : Minted user.token) (mailed added : Bool) :
    Minting (w.sendMail user mailed added) := by
  have hwrite : Minting (w.writeUserTokentoFile user mailed) := by
    refine ⟨h.timers, fun o ho => ?_⟩
    rcases List.mem_cons.mp ho with rfl | ho
    · exact huser
    · exact h.writes o ho
  unfold State.sendMail
  dsimp only
  split
  · exact hwrite.timerAdd _ _ _ _ huser
  · split
    · exact hwrite.timerAdd _ _ _ _ huser
    · exact hwrite.timerAdd _ _ _ _ huser

theorem step_minting {e : Event} {w w' : State} (h : Minting w)
    (henabled : e.Enabled w) (hshort : e.Short)
    (hstep : w.step md5Digest e = some w') : Minting w' := by
  cases e with
  | request account time added =>
      cases hstep
      have hstart : Minting { w with requests := w.requests + 1 } :=
        ⟨h.timers, h.writes⟩
      exact hstart.timerAdd _ _ _ _
        ⟨account, time, fun _ _ hbuffer => md5_eq hbuffer _ hshort⟩
  | fire timer mailed added =>
      cases hstep
      have hrest : Minting { w with timers := w.timers.erase timer } :=
        ⟨fun t ht => h.timers t (List.mem_of_mem_erase ht), h.writes⟩
      have huser := h.timers timer henabled.1
      unfold State.run
      cases timer.handler with
      | sendMail => exact hrest.sendMail huser mailed added
      | timeOutHandle => exact ⟨hrest.timers, hrest.writes⟩
  | pass usec =>
      cases hstep
      exact ⟨h.timers, h.writes⟩
  | destrory =>
      cases hstep
      refine ⟨fun t ht => ?_, h.writes⟩
      cases ht

/-- In every run in which the strings are short enough, every token that is
written is what `md5` returns. -/
theorem reachable_minting {w : State}
    (h : (machine md5Digest).ReachableWith (fun e _ => e.Short) w) :
    Minting w := by
  have hstart : Minting State.init := by
    refine ⟨fun t ht => ?_, fun o ho => ?_⟩
    · cases ht
    · cases ho
  exact h.invariant (I := Minting) hstart
    fun hminting henabled hshort hstep =>
      step_minting hminting henabled hshort hstep

end FindPwd

end ChessServer
