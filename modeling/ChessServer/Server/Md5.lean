import ChessServer.Server.Types

/-!
# MD5

`md5.cpp`.  A `uint4` is a `UInt32`, and so is a `size_type`, whose sums wrap.
A copy or a read that leaves its array is a fault.
-/

namespace ChessServer

namespace MD5

/-! ## The basic functions -/

/-- `MD5::F`. -/
def F (x y z : UInt32) : UInt32 := x &&& y ||| ~~~x &&& z

/-- `MD5::G`. -/
def G (x y z : UInt32) : UInt32 := x &&& z ||| y &&& ~~~z

/-- `MD5::H`. -/
def H (x y z : UInt32) : UInt32 := x ^^^ y ^^^ z

/-- `MD5::I`. -/
def I (x y z : UInt32) : UInt32 := y ^^^ (x ||| ~~~z)

/-- `MD5::rotate_left`. -/
def rotateLeft (x n : UInt32) : UInt32 := x <<< n ||| x >>> (32 - n)

/-- `MD5::FF`: the new `a`. -/
def FF (a b c d x s ac : UInt32) : UInt32 :=
  rotateLeft (a + F b c d + x + ac) s + b

/-- `MD5::GG`. -/
def GG (a b c d x s ac : UInt32) : UInt32 :=
  rotateLeft (a + G b c d + x + ac) s + b

/-- `MD5::HH`. -/
def HH (a b c d x s ac : UInt32) : UInt32 :=
  rotateLeft (a + H b c d + x + ac) s + b

/-- `MD5::II`. -/
def II (a b c d x s ac : UInt32) : UInt32 :=
  rotateLeft (a + I b c d + x + ac) s + b

def S11 : UInt32 := 7
def S12 : UInt32 := 12
def S13 : UInt32 := 17
def S14 : UInt32 := 22
def S21 : UInt32 := 5
def S22 : UInt32 := 9
def S23 : UInt32 := 14
def S24 : UInt32 := 20
def S31 : UInt32 := 4
def S32 : UInt32 := 11
def S33 : UInt32 := 16
def S34 : UInt32 := 23
def S41 : UInt32 := 6
def S42 : UInt32 := 10
def S43 : UInt32 := 15
def S44 : UInt32 := 21

/-! ## Words and bytes -/

/-- `MD5::decode`; `len` is a multiple of 4. -/
def decode (input : Bytes) (len : Nat) : List UInt32 :=
  (List.range (len / 4)).map fun i =>
    (input.getD (4 * i) 0).toUInt32 |||
      (input.getD (4 * i + 1) 0).toUInt32 <<< 8 |||
      (input.getD (4 * i + 2) 0).toUInt32 <<< 16 |||
      (input.getD (4 * i + 3) 0).toUInt32 <<< 24

/-- `MD5::encode` of all of `input`. -/
def encode (input : List UInt32) : Bytes :=
  input.flatMap fun word : UInt32 =>
    [ (word &&& 255).toUInt8, (word >>> 8 &&& 255).toUInt8
    , (word >>> 16 &&& 255).toUInt8, (word >>> 24 &&& 255).toUInt8 ]

/-- `blocksize`. -/
def blocksize : Nat := 64

/-- `uint4 state[4]`. -/
structure State where
  s0 : UInt32
  s1 : UInt32
  s2 : UInt32
  s3 : UInt32
  deriving DecidableEq

/-- `state[0]` to `state[3]`. -/
def State.toList (s : State) : List UInt32 := [s.s0, s.s1, s.s2, s.s3]

/-! ## The transformation -/

/-- Round 1 of `MD5::transform`. -/
def round1 (x : Nat → UInt32) (s : State) : State :=
  let a := s.s0
  let b := s.s1
  let c := s.s2
  let d := s.s3
  let a := FF a b c d (x 0) S11 0xd76aa478
  let d := FF d a b c (x 1) S12 0xe8c7b756
  let c := FF c d a b (x 2) S13 0x242070db
  let b := FF b c d a (x 3) S14 0xc1bdceee
  let a := FF a b c d (x 4) S11 0xf57c0faf
  let d := FF d a b c (x 5) S12 0x4787c62a
  let c := FF c d a b (x 6) S13 0xa8304613
  let b := FF b c d a (x 7) S14 0xfd469501
  let a := FF a b c d (x 8) S11 0x698098d8
  let d := FF d a b c (x 9) S12 0x8b44f7af
  let c := FF c d a b (x 10) S13 0xffff5bb1
  let b := FF b c d a (x 11) S14 0x895cd7be
  let a := FF a b c d (x 12) S11 0x6b901122
  let d := FF d a b c (x 13) S12 0xfd987193
  let c := FF c d a b (x 14) S13 0xa679438e
  let b := FF b c d a (x 15) S14 0x49b40821
  ⟨a, b, c, d⟩

/-- Round 2. -/
def round2 (x : Nat → UInt32) (s : State) : State :=
  let a := s.s0
  let b := s.s1
  let c := s.s2
  let d := s.s3
  let a := GG a b c d (x 1) S21 0xf61e2562
  let d := GG d a b c (x 6) S22 0xc040b340
  let c := GG c d a b (x 11) S23 0x265e5a51
  let b := GG b c d a (x 0) S24 0xe9b6c7aa
  let a := GG a b c d (x 5) S21 0xd62f105d
  let d := GG d a b c (x 10) S22 0x2441453
  let c := GG c d a b (x 15) S23 0xd8a1e681
  let b := GG b c d a (x 4) S24 0xe7d3fbc8
  let a := GG a b c d (x 9) S21 0x21e1cde6
  let d := GG d a b c (x 14) S22 0xc33707d6
  let c := GG c d a b (x 3) S23 0xf4d50d87
  let b := GG b c d a (x 8) S24 0x455a14ed
  let a := GG a b c d (x 13) S21 0xa9e3e905
  let d := GG d a b c (x 2) S22 0xfcefa3f8
  let c := GG c d a b (x 7) S23 0x676f02d9
  let b := GG b c d a (x 12) S24 0x8d2a4c8a
  ⟨a, b, c, d⟩

/-- Round 3. -/
def round3 (x : Nat → UInt32) (s : State) : State :=
  let a := s.s0
  let b := s.s1
  let c := s.s2
  let d := s.s3
  let a := HH a b c d (x 5) S31 0xfffa3942
  let d := HH d a b c (x 8) S32 0x8771f681
  let c := HH c d a b (x 11) S33 0x6d9d6122
  let b := HH b c d a (x 14) S34 0xfde5380c
  let a := HH a b c d (x 1) S31 0xa4beea44
  let d := HH d a b c (x 4) S32 0x4bdecfa9
  let c := HH c d a b (x 7) S33 0xf6bb4b60
  let b := HH b c d a (x 10) S34 0xbebfbc70
  let a := HH a b c d (x 13) S31 0x289b7ec6
  let d := HH d a b c (x 0) S32 0xeaa127fa
  let c := HH c d a b (x 3) S33 0xd4ef3085
  let b := HH b c d a (x 6) S34 0x4881d05
  let a := HH a b c d (x 9) S31 0xd9d4d039
  let d := HH d a b c (x 12) S32 0xe6db99e5
  let c := HH c d a b (x 15) S33 0x1fa27cf8
  let b := HH b c d a (x 2) S34 0xc4ac5665
  ⟨a, b, c, d⟩

/-- Round 4. -/
def round4 (x : Nat → UInt32) (s : State) : State :=
  let a := s.s0
  let b := s.s1
  let c := s.s2
  let d := s.s3
  let a := II a b c d (x 0) S41 0xf4292244
  let d := II d a b c (x 7) S42 0x432aff97
  let c := II c d a b (x 14) S43 0xab9423a7
  let b := II b c d a (x 5) S44 0xfc93a039
  let a := II a b c d (x 12) S41 0x655b59c3
  let d := II d a b c (x 3) S42 0x8f0ccc92
  let c := II c d a b (x 10) S43 0xffeff47d
  let b := II b c d a (x 1) S44 0x85845dd1
  let a := II a b c d (x 8) S41 0x6fa87e4f
  let d := II d a b c (x 15) S42 0xfe2ce6e0
  let c := II c d a b (x 6) S43 0xa3014314
  let b := II b c d a (x 13) S44 0x4e0811a1
  let a := II a b c d (x 4) S41 0xf7537e82
  let d := II d a b c (x 11) S42 0xbd3af235
  let c := II c d a b (x 2) S43 0x2ad7d2bb
  let b := II b c d a (x 9) S44 0xeb86d391
  ⟨a, b, c, d⟩

/-- `MD5::transform` of a block of 64 bytes. -/
def transform (state : State) (block : Bytes) : State :=
  let x := fun i => (decode block blocksize).getD i 0
  let s := round4 x (round3 x (round2 x (round1 x state)))
  ⟨state.s0 + s.s0, state.s1 + s.s1, state.s2 + s.s2, state.s3 + s.s3⟩

end MD5

/-! ## The class -/

/-- `MD5`; `count` is the 64-bit number of bits. -/
structure MD5 where
  finalized : Bool := false
  buffer : Bytes
  count0 : UInt32 := 0
  count1 : UInt32 := 0
  state : MD5.State := ⟨0x67452301, 0xefcdab89, 0x98badcfe, 0x10325476⟩
  digest : Bytes
  deriving DecidableEq

namespace MD5

/-- `memcpy(&dst[pos], &src[from], n)`. -/
def memcpy (dst : Bytes) (pos : Nat) (src : Bytes) (start n : Nat) :
    Option Bytes :=
  if pos + n ≤ dst.length ∧ start + n ≤ src.length then
    some (dst.take pos ++ (src.drop start).take n ++ dst.drop (pos + n))
  else none

/-- `transform(&input[i])`. -/
def transformAt (state : State) (input : Bytes) (i : Nat) : Option State :=
  if i + blocksize ≤ input.length then
    some (transform state ((input.drop i).take blocksize))
  else none

/-- `for (i = firstpart; i + blocksize <= length; i += blocksize)`: where `i`
ends.  Without fuel it never does. -/
def transformChunks (input : Bytes) (length : UInt32) :
    Nat → UInt32 → State → Option (UInt32 × State)
  | 0, _, _ => none
  | fuel + 1, i, state =>
      if i + 64 ≤ length then do
        let state ← transformAt state input i.toNat
        transformChunks input length fuel (i + 64) state
      else some (i, state)

/-- The bytes that wait in `buffer`. -/
def index (md5 : MD5) : UInt32 := md5.count0 / 8 % 64

/-- The bits are counted. -/
def countBits (length : UInt32) (md5 : MD5) : MD5 :=
  let count0 := md5.count0 + length <<< 3
  let carry : UInt32 := if count0 < length <<< 3 then 1 else 0
  { md5 with count0, count1 := md5.count1 + carry + length >>> 29 }

/-- `MD5::update` of the first `length` bytes of `input`. -/
def update (input : Bytes) (length : UInt32) (md5 : MD5) : Option MD5 :=
  let index := md5.index
  let md5 := md5.countBits length
  let firstpart := 64 - index
  if length ≥ firstpart then do
    let buffer ← memcpy md5.buffer index.toNat input 0 firstpart.toNat
    let (i, state) ← transformChunks input length (input.length + 1) firstpart
      (transform md5.state buffer)
    let buffer ← memcpy buffer 0 input i.toNat (length - i).toNat
    some { md5 with buffer, state }
  else do
    let buffer ← memcpy md5.buffer index.toNat input 0 length.toNat
    some { md5 with buffer }

/-- `padding`. -/
def padding : Bytes := 128 :: List.replicate 63 0

/-- `MD5::finalize`. -/
def finalize (md5 : MD5) : Option MD5 :=
  if md5.finalized then some md5
  else do
    let bits := encode [md5.count0, md5.count1]
    let index := md5.index
    let padLen := if index < 56 then 56 - index else 120 - index
    let md5 ← md5.update padding padLen
    let md5 ← md5.update bits 8
    some { md5 with
      digest := encode md5.state.toList
      buffer := List.replicate 64 0
      count0 := 0
      count1 := 0
      finalized := true }

/-- `"%02x"` of a byte. -/
def hex (byte : UInt8) : Bytes :=
  [ (lit "0123456789abcdef").getD (byte.toNat / 16) 0
  , (lit "0123456789abcdef").getD (byte.toNat % 16) 0 ]

/-- `MD5::hexdigest`. -/
def hexdigest (md5 : MD5) : Bytes :=
  if md5.finalized then md5.digest.flatMap hex else []

/-- `MD5::MD5()` in memory that holds something. -/
def new (buffer digest : Bytes) : MD5 := { buffer, digest }

/-- `MD5::MD5(const std::string &text)`, whose length is cut to 32 bits. -/
def ofString (buffer digest : Bytes) (text : Bytes) : Option MD5 := do
  let md5 ← (new buffer digest).update (text ++ [0]) text.length.toUInt32
  md5.finalize

end MD5

/-- `md5`. -/
def md5 (buffer digest : Bytes) (str : Bytes) : Option Bytes := do
  let md5 ← MD5.ofString buffer digest str
  some md5.hexdigest

end ChessServer
