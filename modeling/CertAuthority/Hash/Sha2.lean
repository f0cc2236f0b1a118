import CertAuthority.Bytes

namespace CertAuthority.Sha2

/-- What sets one function of the family apart. -/
structure Variant where
  width : Nat
  /-- One constant for every round. -/
  constants : List (BitVec width)
  /-- The eight words to start from. -/
  initial : List (BitVec width)
  /-- Rotations of the first mixing function of a round. -/
  sum0 : Nat × Nat × Nat
  /-- Rotations of the second mixing function of a round. -/
  sum1 : Nat × Nat × Nat
  /-- Two rotations and a shift for the schedule's first mixing function. -/
  small0 : Nat × Nat × Nat
  /-- Two rotations and a shift for the schedule's second mixing function. -/
  small1 : Nat × Nat × Nat
  size : Nat

structure State (w : Nat) where
  a : BitVec w
  b : BitVec w
  c : BitVec w
  d : BitVec w
  e : BitVec w
  f : BitVec w
  g : BitVec w
  h : BitVec w

namespace State

def words {w : Nat} (s : State w) : List (BitVec w) := [s.a, s.b, s.c, s.d, s.e, s.f, s.g, s.h]

def ofWords {w : Nat} (ws : List (BitVec w)) : State w :=
  let word (i : Nat) := ws.getD i 0
  ⟨word 0, word 1, word 2, word 3, word 4, word 5, word 6, word 7⟩

def add {w : Nat} (s t : State w) : State w :=
  ⟨s.a + t.a, s.b + t.b, s.c + t.c, s.d + t.d, s.e + t.e, s.f + t.f, s.g + t.g, s.h + t.h⟩

end State

namespace Variant

def wordSize (v : Variant) : Nat := v.width / 8

def blockSize (v : Variant) : Nat := 16 * v.wordSize

/-- Three rotations of a word, added without carry. -/
def mix (r : Nat × Nat × Nat) {w : Nat} (x : BitVec w) : BitVec w :=
  x.rotateRight r.1 ^^^ x.rotateRight r.2.1 ^^^ x.rotateRight r.2.2

/-- Two rotations and a shift of a word, added without carry. -/
def mixShift (r : Nat × Nat × Nat) {w : Nat} (x : BitVec w) : BitVec w :=
  x.rotateRight r.1 ^^^ x.rotateRight r.2.1 ^^^ (x >>> r.2.2)

def round (v : Variant) (s : State v.width) (kw : BitVec v.width) : State v.width :=
  let t1 := s.h + mix v.sum1 s.e + ((s.e &&& s.f) ^^^ (~~~s.e &&& s.g)) + kw
  let t2 := mix v.sum0 s.a + ((s.a &&& s.b) ^^^ (s.a &&& s.c) ^^^ (s.b &&& s.c))
  ⟨t1 + t2, s.a, s.b, s.c, s.d + t1, s.e, s.f, s.g⟩

def advance (v : Variant) (window : List (BitVec v.width)) : List (BitVec v.width) :=
  let word (i : Nat) := window.getD i 0
  window.drop 1 ++ [mixShift v.small1 (word 14) + word 9 + mixShift v.small0 (word 1) + word 0]

def rounds (v : Variant) :
    List (BitVec v.width) → List (BitVec v.width) → State v.width → State v.width
  | [], _, s => s
  | k :: ks, window, s => v.rounds ks (v.advance window) (v.round s (k + window.headD 0))

def words (v : Variant) (b : Bytes) : List (BitVec v.width) :=
  if b.isEmpty ∨ v.wordSize = 0 then []
  else BitVec.ofNat v.width (beNat (b.take v.wordSize)) :: v.words (b.drop v.wordSize)
termination_by b.length
decreasing_by
  cases b with
  | nil => simp at *
  | cons x r => simp only [List.length_drop, List.length_cons]; omega

def absorb (v : Variant) (b : Bytes) (s : State v.width) : State v.width :=
  if b.isEmpty ∨ v.blockSize = 0 then s
  else
    v.absorb (b.drop v.blockSize) (s.add (v.rounds v.constants (v.words (b.take v.blockSize)) s))
termination_by b.length
decreasing_by
  cases b with
  | nil => simp at *
  | cons x r => simp only [List.length_drop, List.length_cons]; omega

/-- A message with a set bit, zeros and its length in bits, up to a whole number of blocks. -/
def pad (v : Variant) (b : Bytes) : Bytes :=
  let lengthSize := 2 * v.wordSize
  let zeros := (v.blockSize - (b.length + 1 + lengthSize) % v.blockSize) % v.blockSize
  b ++ 0x80 :: List.replicate zeros 0 ++ fixedBytes lengthSize (8 * b.length)

def hash (v : Variant) (b : Bytes) : Bytes :=
  let s := v.absorb (v.pad b) (State.ofWords v.initial)
  (s.words.flatMap fun x => fixedBytes v.wordSize x.toNat).take v.size

/-- The keyed digest of a message: a key longer than a block is hashed first. -/
def hmac (v : Variant) (key message : Bytes) : Bytes :=
  let key := if v.blockSize < key.length then v.hash key else key
  let key := key ++ List.replicate (v.blockSize - key.length) 0
  v.hash (key.map (· ^^^ 0x5c) ++ v.hash (key.map (· ^^^ 0x36) ++ message))

end Variant

/-- Fractions of the cube roots of the first 80 primes. -/
def cubeRoots : List (BitVec 64) :=
  [0x428a2f98d728ae22, 0x7137449123ef65cd, 0xb5c0fbcfec4d3b2f, 0xe9b5dba58189dbbc,
    0x3956c25bf348b538, 0x59f111f1b605d019, 0x923f82a4af194f9b, 0xab1c5ed5da6d8118,
    0xd807aa98a3030242, 0x12835b0145706fbe, 0x243185be4ee4b28c, 0x550c7dc3d5ffb4e2,
    0x72be5d74f27b896f, 0x80deb1fe3b1696b1, 0x9bdc06a725c71235, 0xc19bf174cf692694,
    0xe49b69c19ef14ad2, 0xefbe4786384f25e3, 0x0fc19dc68b8cd5b5, 0x240ca1cc77ac9c65,
    0x2de92c6f592b0275, 0x4a7484aa6ea6e483, 0x5cb0a9dcbd41fbd4, 0x76f988da831153b5,
    0x983e5152ee66dfab, 0xa831c66d2db43210, 0xb00327c898fb213f, 0xbf597fc7beef0ee4,
    0xc6e00bf33da88fc2, 0xd5a79147930aa725, 0x06ca6351e003826f, 0x142929670a0e6e70,
    0x27b70a8546d22ffc, 0x2e1b21385c26c926, 0x4d2c6dfc5ac42aed, 0x53380d139d95b3df,
    0x650a73548baf63de, 0x766a0abb3c77b2a8, 0x81c2c92e47edaee6, 0x92722c851482353b,
    0xa2bfe8a14cf10364, 0xa81a664bbc423001, 0xc24b8b70d0f89791, 0xc76c51a30654be30,
    0xd192e819d6ef5218, 0xd69906245565a910, 0xf40e35855771202a, 0x106aa07032bbd1b8,
    0x19a4c116b8d2d0c8, 0x1e376c085141ab53, 0x2748774cdf8eeb99, 0x34b0bcb5e19b48a8,
    0x391c0cb3c5c95a63, 0x4ed8aa4ae3418acb, 0x5b9cca4f7763e373, 0x682e6ff3d6b2b8a3,
    0x748f82ee5defb2fc, 0x78a5636f43172f60, 0x84c87814a1f0ab72, 0x8cc702081a6439ec,
    0x90befffa23631e28, 0xa4506cebde82bde9, 0xbef9a3f7b2c67915, 0xc67178f2e372532b,
    0xca273eceea26619c, 0xd186b8c721c0c207, 0xeada7dd6cde0eb1e, 0xf57d4f7fee6ed178,
    0x06f067aa72176fba, 0x0a637dc5a2c898a6, 0x113f9804bef90dae, 0x1b710b35131c471b,
    0x28db77f523047d84, 0x32caab7b40c72493, 0x3c9ebe0a15c9bebc, 0x431d67c49c100d4c,
    0x4cc5d4becb3e42b6, 0x597f299cfc657e2a, 0x5fcb6fab3ad6faec, 0x6c44198c4a475817]

/-- Fractions of the square roots of the first 16 primes. -/
def squareRoots : List (BitVec 64) :=
  [0x6a09e667f3bcc908, 0xbb67ae8584caa73b, 0x3c6ef372fe94f82b, 0xa54ff53a5f1d36f1,
    0x510e527fade682d1, 0x9b05688c2b3e6c1f, 0x1f83d9abfb41bd6b, 0x5be0cd19137e2179,
    0xcbbb9d5dc1059ed8, 0x629a292a367cd507, 0x9159015a3070dd17, 0x152fecd8f70e5939,
    0x67332667ffc00b31, 0x8eb44a8768581511, 0xdb0c2e0d64f98fa7, 0x47b5481dbefa4fa4]

def upper (x : BitVec 64) : BitVec 32 := x.extractLsb' 32 32

def lower (x : BitVec 64) : BitVec 32 := x.extractLsb' 0 32

def narrow (initial : List (BitVec 32)) (size : Nat) : Variant where
  width := 32
  constants := (cubeRoots.take 64).map upper
  initial := initial
  sum0 := (2, 13, 22)
  sum1 := (6, 11, 25)
  small0 := (7, 18, 3)
  small1 := (17, 19, 10)
  size := size

def wide (initial : List (BitVec 64)) (size : Nat) : Variant where
  width := 64
  constants := cubeRoots
  initial := initial
  sum0 := (28, 34, 39)
  sum1 := (14, 18, 41)
  small0 := (1, 8, 7)
  small1 := (19, 61, 6)
  size := size

def sha224 : Variant := narrow ((squareRoots.drop 8).map lower) 28
def sha256 : Variant := narrow ((squareRoots.take 8).map upper) 32
def sha384 : Variant := wide (squareRoots.drop 8) 48
def sha512 : Variant := wide (squareRoots.take 8) 64

end CertAuthority.Sha2
