import Mathlib.Data.List.GetD
import ChessServer.Lib.Rfc1321
import ChessServer.Server.Md5

/-!
# The transformation is that of the RFC

The source writes the sixty-four steps out, four of them after which the
buffers are back in their places; the RFC has one step and moves the buffers.
-/

namespace ChessServer.MD5

open Rfc1321

/-! ## Rounds -/

/-- The buffers that a state holds. -/
def State.regs (s : State) : Regs := ⟨s.s0, s.s1, s.s2, s.s3⟩

/-- What the statements of a round have in common. -/
abbrev Operation :=
  UInt32 → UInt32 → UInt32 → UInt32 → UInt32 → UInt32 → UInt32 → UInt32

/-- An operation is the step of a round, up to the places of the buffers. -/
def Steps (f : Operation) (round : Nat) : Prop :=
  ∀ a b c d x s ac,
    f a b c d x s ac = b + rotl (a + aux round b c d + x + ac) s

theorem steps_FF : Steps FF 0 := fun _ _ _ _ _ _ _ => UInt32.add_comm _ _

theorem steps_GG : Steps GG 1 := fun _ _ _ _ _ _ _ => UInt32.add_comm _ _

theorem steps_HH : Steps HH 2 := fun _ _ _ _ _ _ _ => UInt32.add_comm _ _

theorem steps_II : Steps II 3 := fun _ _ _ _ _ _ _ => UInt32.add_comm _ _

/-- The last three arguments of a statement. -/
structure Args where
  x : UInt32
  s : UInt32
  ac : UInt32

/-- Four statements in a row, after which every buffer is back in its place. -/
def quad (f : Operation) (p q r t : Args) (s : State) : State :=
  let a := s.s0
  let b := s.s1
  let c := s.s2
  let d := s.s3
  let a := f a b c d p.x p.s p.ac
  let d := f d a b c q.x q.s q.ac
  let c := f c d a b r.x r.s r.ac
  let b := f b c d a t.x t.s t.ac
  ⟨a, b, c, d⟩

/-- What step `i` is given. -/
def args (x : Nat → UInt32) (i : Nat) : Args :=
  ⟨x (wordIndex i), shift i, table.getD i 0⟩

theorem quad_steps {f : Operation} {round : Nat} (hf : Steps f round)
    (x : Nat → UInt32) {i : Nat} (hfirst : i / 16 = round)
    (hlast : (i + 3) / 16 = round) (s : State) :
    (quad f (args x i) (args x (i + 1)) (args x (i + 2)) (args x (i + 3))
      s).regs = (List.range' i 4).foldl (step x) s.regs := by
  have h1 : (i + 1) / 16 = round := by omega
  have h2 : (i + 2) / 16 = round := by omega
  unfold quad
  simp only [hf _]
  show _ = step x (step x (step x (step x s.regs i) (i + 1)) (i + 2)) (i + 3)
  simp only [step, hfirst, h1, h2, hlast]
  rfl

/-- Sixteen statements. -/
def sixteen (f : Operation) (p : Nat → Args) (s : State) : State :=
  quad f (p 12) (p 13) (p 14) (p 15) (quad f (p 8) (p 9) (p 10) (p 11)
    (quad f (p 4) (p 5) (p 6) (p 7) (quad f (p 0) (p 1) (p 2) (p 3) s)))

theorem sixteen_steps {f : Operation} {round : Nat} (hf : Steps f round)
    (x : Nat → UInt32) (s : State) :
    (sixteen f (fun i => args x (16 * round + i)) s).regs =
      (List.range' (16 * round) 16).foldl (step x) s.regs := by
  have h0 (s : State) := quad_steps hf x
    (show (16 * round + 0) / 16 = round by omega) (by omega) s
  have h4 (s : State) := quad_steps hf x
    (show (16 * round + 4) / 16 = round by omega) (by omega) s
  have h8 (s : State) := quad_steps hf x
    (show (16 * round + 8) / 16 = round by omega) (by omega) s
  have h12 (s : State) := quad_steps hf x
    (show (16 * round + 12) / 16 = round by omega) (by omega) s
  simp only [Nat.add_assoc, Nat.reduceAdd] at h0 h4 h8 h12
  unfold sixteen
  dsimp only
  rw [h12, h8, h4, h0]
  rfl

theorem round1_eq (x : Nat → UInt32) (s : State) :
    round1 x s = sixteen FF (fun i => args x (16 * 0 + i)) s := by
  simp only [sixteen, args, wordIndex, shift, table, List.getD_cons_succ,
    List.getD_cons_zero, Nat.reduceAdd, Nat.reduceDiv, Nat.reduceMul,
    Nat.reduceMod]
  simp only [S11, S12, S13, S14, round1, quad]

theorem round2_eq (x : Nat → UInt32) (s : State) :
    round2 x s = sixteen GG (fun i => args x (16 * 1 + i)) s := by
  simp only [sixteen, args, wordIndex, shift, table, List.getD_cons_succ,
    List.getD_cons_zero, Nat.reduceAdd, Nat.reduceDiv, Nat.reduceMul,
    Nat.reduceMod]
  simp only [S21, S22, S23, S24, round2, quad]

theorem round3_eq (x : Nat → UInt32) (s : State) :
    round3 x s = sixteen HH (fun i => args x (16 * 2 + i)) s := by
  simp only [sixteen, args, wordIndex, shift, table, List.getD_cons_succ,
    List.getD_cons_zero, Nat.reduceAdd, Nat.reduceDiv, Nat.reduceMul,
    Nat.reduceMod]
  simp only [S31, S32, S33, S34, round3, quad]

theorem round4_eq (x : Nat → UInt32) (s : State) :
    round4 x s = sixteen II (fun i => args x (16 * 3 + i)) s := by
  simp only [sixteen, args, wordIndex, shift, table, List.getD_cons_succ,
    List.getD_cons_zero, Nat.reduceAdd, Nat.reduceDiv, Nat.reduceMul,
    Nat.reduceMod]
  simp only [S41, S42, S43, S44, round4, quad]

/-! ## Words and bytes -/

theorem decode_word {block : Bytes} (hblock : block.length = blocksize)
    (i : Nat) : (decode block blocksize).getD i 0 = word block i := by
  by_cases hi : i < 16
  · have hin : i < (decode block blocksize).length := by
      rw [decode, List.length_map, List.length_range]
      exact hi
    rw [List.getD_eq_getElem _ _ hin]
    simp only [decode, List.getElem_map, List.getElem_range]
    rfl
  · have hout : (decode block blocksize).length ≤ i := by
      rw [decode, List.length_map, List.length_range]
      show 64 / 4 ≤ i
      omega
    have hbyte (j : Nat) : block.getD (4 * i + j) 0 = 0 := by
      apply List.getD_eq_default
      rw [hblock]
      show 64 ≤ _
      omega
    have hzero := hbyte 0
    rw [Nat.add_zero] at hzero
    rw [List.getD_eq_default _ _ hout, word, hbyte, hbyte, hbyte, hzero]
    rfl

/-- `transform` is the compression of a block. -/
theorem transform_regs {block : Bytes} (hblock : block.length = blocksize)
    (s : State) : (transform s block).regs = compress s.regs block := by
  have hx : (fun i => (decode block blocksize).getD i 0) = word block :=
    funext (decode_word hblock)
  have hall : List.range 64 = List.range' (16 * 0) 16 ++
      (List.range' (16 * 1) 16 ++
        (List.range' (16 * 2) 16 ++ List.range' (16 * 3) 16)) := by decide
  have hrounds : (round4 (word block) (round3 (word block)
      (round2 (word block) (round1 (word block) s)))).regs =
      (List.range 64).foldl (step (word block)) s.regs := by
    rw [round4_eq, sixteen_steps steps_II, round3_eq, sixteen_steps steps_HH,
      round2_eq, sixteen_steps steps_GG, round1_eq, sixteen_steps steps_FF,
      hall, List.foldl_append, List.foldl_append, List.foldl_append]
  unfold transform compress
  rw [hx, ← hrounds]
  rfl

theorem foldl_transform {blocks : List Bytes}
    (hblocks : ∀ block ∈ blocks, block.length = blocksize) (s : State) :
    (blocks.foldl transform s).regs = blocks.foldl compress s.regs := by
  induction blocks generalizing s with
  | nil => rfl
  | cons block blocks ih =>
      rw [List.foldl_cons, List.foldl_cons,
        ih (fun b hb => hblocks b (List.mem_cons_of_mem _ hb)),
        transform_regs (hblocks block List.mem_cons_self)]

/-- A byte of a word. -/
theorem encode_byte (w k : UInt32) (n : Nat)
    (hn : w.toNat >>> (k.toNat % 32) = w.toNat / n) :
    (w >>> k &&& 255).toUInt8 = (w.toNat / n % 256).toUInt8 := by
  apply UInt8.toNat_inj.mp
  have hand : (w.toNat / n) &&& 255 = w.toNat / n % 256 :=
    Nat.and_two_pow_sub_one_eq_mod _ 8
  rw [UInt32.toNat_toUInt8, UInt32.toNat_and, UInt32.toNat_shiftRight, hn]
  show (w.toNat / n &&& 255) % 256 = _
  rw [hand]
  simp

theorem encode_word (w : UInt32) : encode [w] = littleEndian 4 w.toNat := by
  have h0 := encode_byte w 0 1 (by simp)
  rw [UInt32.shiftRight_zero] at h0
  have h8 := encode_byte w 8 256 (Nat.shiftRight_eq_div_pow _ 8)
  have h16 := encode_byte w 16 65536 (Nat.shiftRight_eq_div_pow _ 16)
  have h24 := encode_byte w 24 16777216 (Nat.shiftRight_eq_div_pow _ 24)
  have hword : encode [w] = [(w.toNat / 1 % 256).toUInt8,
      (w.toNat / 256 % 256).toUInt8, (w.toNat / 65536 % 256).toUInt8,
      (w.toNat / 16777216 % 256).toUInt8] := by
    rw [← h0, ← h8, ← h16, ← h24]
    rfl
  exact hword.trans rfl

theorem encode_cons (w : UInt32) (ws : List UInt32) :
    encode (w :: ws) = littleEndian 4 w.toNat ++ encode ws := by
  rw [← encode_word]
  rfl

end ChessServer.MD5
