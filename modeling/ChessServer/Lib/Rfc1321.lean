import Mathlib.Tactic.Linarith
import ChessServer.Lib.Blocks

/-!
# The MD5 message digest

RFC 1321 for messages that are whole bytes: the message is padded, cut into
blocks of sixteen words, and every block goes through four rounds of sixteen
steps.
-/

namespace Rfc1321

/-- The buffers A, B, C and D. -/
structure Regs where
  a : UInt32
  b : UInt32
  c : UInt32
  d : UInt32
  deriving DecidableEq

/-- The buffers at the start. -/
def iv : Regs := ⟨0x67452301, 0xefcdab89, 0x98badcfe, 0x10325476⟩

/-! ## A block -/

/-- The auxiliary function of a round. -/
def aux (round : Nat) (x y z : UInt32) : UInt32 :=
  match round with
  | 0 => x &&& y ||| ~~~x &&& z
  | 1 => x &&& z ||| y &&& ~~~z
  | 2 => x ^^^ y ^^^ z
  | _ => y ^^^ (x ||| ~~~z)

/-- The word that a step adds. -/
def wordIndex (i : Nat) : Nat :=
  match i / 16 with
  | 0 => i
  | 1 => (5 * i + 1) % 16
  | 2 => (3 * i + 5) % 16
  | _ => 7 * i % 16

/-- How far a step rotates. -/
def shift (i : Nat) : UInt32 :=
  [7, 12, 17, 22, 5, 9, 14, 20, 4, 11, 16, 23, 6, 10, 15, 21].getD
    (4 * (i / 16) + i % 4) 0

/-- The table T. -/
def table : List UInt32 :=
  [ 0xd76aa478, 0xe8c7b756, 0x242070db, 0xc1bdceee
  , 0xf57c0faf, 0x4787c62a, 0xa8304613, 0xfd469501
  , 0x698098d8, 0x8b44f7af, 0xffff5bb1, 0x895cd7be
  , 0x6b901122, 0xfd987193, 0xa679438e, 0x49b40821
  , 0xf61e2562, 0xc040b340, 0x265e5a51, 0xe9b6c7aa
  , 0xd62f105d, 0x02441453, 0xd8a1e681, 0xe7d3fbc8
  , 0x21e1cde6, 0xc33707d6, 0xf4d50d87, 0x455a14ed
  , 0xa9e3e905, 0xfcefa3f8, 0x676f02d9, 0x8d2a4c8a
  , 0xfffa3942, 0x8771f681, 0x6d9d6122, 0xfde5380c
  , 0xa4beea44, 0x4bdecfa9, 0xf6bb4b60, 0xbebfbc70
  , 0x289b7ec6, 0xeaa127fa, 0xd4ef3085, 0x04881d05
  , 0xd9d4d039, 0xe6db99e5, 0x1fa27cf8, 0xc4ac5665
  , 0xf4292244, 0x432aff97, 0xab9423a7, 0xfc93a039
  , 0x655b59c3, 0x8f0ccc92, 0xffeff47d, 0x85845dd1
  , 0x6fa87e4f, 0xfe2ce6e0, 0xa3014314, 0x4e0811a1
  , 0xf7537e82, 0xbd3af235, 0x2ad7d2bb, 0xeb86d391 ]

/-- Circular shift. -/
def rotl (x n : UInt32) : UInt32 := x <<< n ||| x >>> (32 - n)

/-- Step `i`; the buffers change their places. -/
def step (x : Nat → UInt32) (r : Regs) (i : Nat) : Regs where
  a := r.d
  b := r.b + rotl
    (r.a + aux (i / 16) r.b r.c r.d + x (wordIndex i) + table.getD i 0) (shift i)
  c := r.b
  d := r.c

/-- A word of a block, the low-order byte first. -/
def word (block : List UInt8) (i : Nat) : UInt32 :=
  (block.getD (4 * i) 0).toUInt32 |||
    (block.getD (4 * i + 1) 0).toUInt32 <<< 8 |||
    (block.getD (4 * i + 2) 0).toUInt32 <<< 16 |||
    (block.getD (4 * i + 3) 0).toUInt32 <<< 24

/-- One block. -/
def compress (r : Regs) (block : List UInt8) : Regs :=
  let r' := (List.range 64).foldl (step (word block)) r
  ⟨r.a + r'.a, r.b + r'.b, r.c + r'.c, r.d + r'.d⟩

/-! ## A message -/

/-- A number in `n` bytes, the low-order byte first. -/
def littleEndian (n value : Nat) : List UInt8 :=
  (List.range n).map fun i => (value / 256 ^ i % 256).toUInt8

@[simp] theorem length_littleEndian (n value : Nat) :
    (littleEndian n value).length = n := by
  rw [littleEndian, List.length_map, List.length_range]

/-- The bytes of a number are the low ones and those of the rest. -/
theorem littleEndian_add (m n value : Nat) :
    littleEndian (m + n) value =
      littleEndian m value ++ littleEndian n (value / 256 ^ m) := by
  unfold littleEndian
  rw [List.range_add, List.map_append, List.map_map]
  congr 1
  apply List.map_congr_left
  intro i _
  show (value / 256 ^ (m + i) % 256).toUInt8 = _
  rw [Nat.pow_add, Nat.div_div_eq_div_mul]

/-- Only the part that fits counts. -/
theorem littleEndian_congr {n v w : Nat} (h : v % 256 ^ n = w % 256 ^ n) :
    littleEndian n v = littleEndian n w := by
  have hbyte (u : Nat) {i : Nat} (hi : i < n) :
      u / 256 ^ i % 256 = u % 256 ^ n / 256 ^ i % 256 := by
    have hpow : 256 ^ n = 256 ^ i * 256 ^ (n - i) := by
      rw [← Nat.pow_add]
      congr 1
      omega
    have hdvd := Nat.pow_dvd_pow 256 (show 1 ≤ n - i by omega)
    rw [Nat.pow_one] at hdvd
    rw [hpow, Nat.mod_mul_right_div_self, Nat.mod_mod_of_dvd _ hdvd]
  apply List.map_congr_left
  intro i hi
  rw [hbyte v (List.mem_range.mp hi), hbyte w (List.mem_range.mp hi), h]

/-- The bits that follow a message: a one, zeros up to 448 modulo 512, and the
number of bits of the message modulo 2^64. -/
def padding (length : Nat) : List UInt8 :=
  128 :: List.replicate ((119 - length % 64) % 64) 0 ++
    littleEndian 8 (8 * length)

/-- The buffers after the last block of a message. -/
def hash (message : List UInt8) : Regs :=
  (Blocks.split 64 (message ++ padding message.length)).foldl compress iv

/-- The digest, beginning with the low-order byte of A. -/
def digest (message : List UInt8) : List UInt8 :=
  let r := hash message
  littleEndian 4 r.a.toNat ++ littleEndian 4 r.b.toNat ++
    littleEndian 4 r.c.toNat ++ littleEndian 4 r.d.toNat

end Rfc1321
