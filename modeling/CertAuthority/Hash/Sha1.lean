import CertAuthority.Bytes

namespace CertAuthority.Sha1

structure State where
  a : BitVec 32
  b : BitVec 32
  c : BitVec 32
  d : BitVec 32
  e : BitVec 32

namespace State

def initial : State := ⟨0x67452301, 0xefcdab89, 0x98badcfe, 0x10325476, 0xc3d2e1f0⟩

def words (s : State) : List (BitVec 32) := [s.a, s.b, s.c, s.d, s.e]

def add (s t : State) : State := ⟨s.a + t.a, s.b + t.b, s.c + t.c, s.d + t.d, s.e + t.e⟩

def phase (s : State) (i : Nat) : BitVec 32 × BitVec 32 :=
  if i < 20 then ((s.b &&& s.c) ||| (~~~s.b &&& s.d), 0x5a827999)
  else if i < 40 then (s.b ^^^ s.c ^^^ s.d, 0x6ed9eba1)
  else if i < 60 then ((s.b &&& s.c) ||| (s.b &&& s.d) ||| (s.c &&& s.d), 0x8f1bbcdc)
  else (s.b ^^^ s.c ^^^ s.d, 0xca62c1d6)

def round (s : State) (i : Nat) (w : BitVec 32) : State :=
  let (f, k) := s.phase i
  ⟨s.a.rotateLeft 5 + f + s.e + k + w, s.a, s.b.rotateLeft 30, s.c, s.d⟩

end State

def advance (window : List (BitVec 32)) : List (BitVec 32) :=
  let word (i : Nat) := window.getD i 0
  window.drop 1 ++ [(word 13 ^^^ word 8 ^^^ word 2 ^^^ word 0).rotateLeft 1]

/-- The last `k` of the eighty rounds. -/
def rounds : Nat → List (BitVec 32) → State → State
  | 0, _, s => s
  | k + 1, window, s => rounds k (advance window) (s.round (79 - k) (window.headD 0))

def words (block : Bytes) : List (BitVec 32) :=
  (List.range 16).map fun i => BitVec.ofNat 32 (beNat ((block.drop (4 * i)).take 4))

def absorb (b : Bytes) (s : State) : State :=
  if b.isEmpty then s else absorb (b.drop 64) (s.add (rounds 80 (words (b.take 64)) s))
termination_by b.length
decreasing_by
  cases b with
  | nil => simp at *
  | cons x r => simp only [List.length_drop, List.length_cons]; omega

/-- A message with a set bit, zeros and its length in bits, up to a whole number of blocks. -/
def pad (b : Bytes) : Bytes :=
  b ++ 0x80 :: List.replicate ((64 - (b.length + 9) % 64) % 64) 0 ++ fixedBytes 8 (8 * b.length)

def hash (b : Bytes) : Bytes :=
  (absorb (pad b) State.initial).words.flatMap fun x => fixedBytes 4 x.toNat

end CertAuthority.Sha1
