import CertAuthority.Arith.Modular
import CertAuthority.Der.Primitive
import CertAuthority.Hash.Sha2
import CertAuthority.Random

namespace CertAuthority.Rsa

/-- A modulus and the exponent of verification. -/
structure PublicKey where
  n : Nat
  e : Nat
deriving DecidableEq, Repr

def maxBits : Nat := 4096

def maxExponent : Nat := 0x1ffffffff

namespace PublicKey

def isSound (k : PublicKey) : Bool :=
  k.e < k.n && k.n % 2 == 1 && k.e % 2 == 1 && 2 ≤ k.e && k.e ≤ maxExponent

def encode (k : PublicKey) : Bytes :=
  (Der.Element.sequence [.integer k.n, .integer k.e]).encode

/-- Reads modulus and exponent. The modulus has at most 4096 bits. -/
def decode? (b : Bytes) : Option PublicKey := do
  match ← (← Der.Element.ofBytes? b).sequence? with
  | [n, e] =>
    let k : PublicKey := ⟨← n.natural?, ← e.natural?⟩
    if k.isSound ∧ bitLength k.n ≤ maxBits then some k else none
  | _ => none

def size (k : PublicKey) : Nat := (bitLength k.n + 7) / 8

end PublicKey

/-- Whether the factors of a modulus make it and an exponent undoes that of the public key modulo
each of them. -/
def fitTogether (k : PublicKey) (d p q : Nat) : Bool :=
  k.isSound && 2 ≤ p && 2 ≤ q && p * q == k.n && d * k.e % (p - 1) == 1 && d * k.e % (q - 1) == 1

/-- A public key with the exponent of signing and the two factors of the modulus. -/
structure PrivateKey where
  publicKey : PublicKey
  d : Nat
  p : Nat
  q : Nat
  sound : fitTogether publicKey d p q = true
deriving DecidableEq, Repr

namespace PrivateKey

def ofNumbers? (n e d p q : Nat) : Option PrivateKey :=
  if h : fitTogether ⟨n, e⟩ d p q = true then some ⟨⟨n, e⟩, d, p, q, h⟩ else none

def n (k : PrivateKey) : Nat := k.publicKey.n

def e (k : PrivateKey) : Nat := k.publicKey.e

/-- The inverse of the second factor modulo the first. -/
def coefficient? (k : PrivateKey) : Option Nat := Modular.inverse? k.q k.p

/-- All numbers of the key as a SEQUENCE, if the factors have a coefficient. -/
def encode? (k : PrivateKey) : Option Bytes := do
  let c ← k.coefficient?
  some (Der.Element.sequence
    ([0, k.n, k.e, k.d, k.p, k.q, k.d % (k.p - 1), k.d % (k.q - 1), c].map .integer)).encode

/-- Reads a key of two factors. The numbers that follow from the others are passed over. -/
def decode? (b : Bytes) : Option PrivateKey := do
  let fields ← (← Der.Element.ofBytes? b).sequence?
  match ← fields.mapM (·.natural?) with
  | [0, n, e, d, p, q, _, _, _] => ofNumbers? n e d p q
  | _ => none

/-- The power of a number with the signing exponent, composed from both factors where they have
a coefficient. -/
def power (k : PrivateKey) (m : Nat) : Nat :=
  match k.coefficient? with
  | none => Modular.pow m k.d k.n
  | some c =>
    let m1 := Modular.pow m (k.d % (k.p - 1)) k.p
    let m2 := Modular.pow m (k.d % (k.q - 1)) k.q
    m2 + ((m1 + (k.p - m2 % k.p)) * c % k.p) * k.q

end PrivateKey

/-- What stands in front of a SHA-256 digest that is signed: the identifier of the function. -/
def digestHeader : Bytes :=
  [0x30, 0x31, 0x30, 0x0d, 0x06, 0x09, 0x60, 0x86, 0x48, 0x01, 0x65, 0x03, 0x04, 0x02, 0x01, 0x05,
    0x00, 0x04, 0x20]

/-- A message's digest filled up to a size, which leaves at least eight filling octets. -/
def fill? (size : Nat) (message : Bytes) : Option Bytes :=
  let tail := digestHeader ++ Sha2.sha256.hash message
  if tail.length + 11 ≤ size then
    some (0 :: 1 :: List.replicate (size - tail.length - 3) 0xff ++ 0 :: tail)
  else none

/-- The signature of a message, if the key is large enough and its parts undo each other. -/
def sign? (k : PrivateKey) (message : Bytes) : Option Bytes := do
  let size := k.publicKey.size
  let m := beNat (← fill? size message)
  let s := k.power m
  if Modular.pow s k.e k.n = m then some (fixedBytes size s) else none

/-- The primes below 256. -/
def smallPrimes : List Nat :=
  (List.range 256).filter fun n => 2 ≤ n && (List.range n).all fun d => d < 2 || n % d != 0

def reachesMinusOne (n : Nat) : Nat → Nat → Bool
  | 0, _ => false
  | k + 1, x => x == n - 1 || reachesMinusOne n k (x * x % n)

def passes (n base : Nat) : Bool :=
  let (s, odd) := Modular.splitTwos (n - 1)
  let x := Modular.pow base odd n
  x == 1 || reachesMinusOne n s x

/-- Whether a number has no small factor and behaves as a prime for twenty bases. -/
def isProbablePrime (n : Nat) : Bool :=
  smallPrimes.contains n
    || (2 ≤ n && smallPrimes.all (n % · != 0) && (smallPrimes.take 20).all (passes n))

/-- The first probable prime from a number on in steps of two, with a limit on the steps. -/
def primeFrom? : Nat → Nat → Option Nat
  | 0, _ => none
  | fuel + 1, n => if isProbablePrime n then some n else primeFrom? fuel (n + 2)

/-- A probable prime of a number of bits, the two highest of them set, if there is one close to
the number that is drawn. -/
def drawPrime (bits : Nat) (pool : Bytes) : Except Fault (Option Nat) × Bytes :=
  match Entropy.drawBelow (1 <<< (bits - 2)) pool with
  | (.error e, rest) => (.error e, rest)
  | (.ok low, rest) =>
    (.ok ((primeFrom? (20 * bits) (3 <<< (bits - 2) + low / 2 * 2 + 1)).filter
      (bitLength · = bits)), rest)

def defaultExponent : Nat := 65537

def assemble? (bits p q : Nat) : Option PrivateKey := do
  let d ← Modular.inverse? defaultExponent ((p - 1) * (q - 1))
  if p ≠ q ∧ bitLength (p * q) = bits then PrivateKey.ofNumbers? (p * q) defaultExponent d p q
  else none

/-- Draws pairs of primes until they make a key, with a limit on their number. -/
def generateWithin (bits : Nat) : Nat → Bytes → Except Fault PrivateKey × Bytes
  | 0, pool => (.error .keyGeneration, pool)
  | fuel + 1, pool =>
    match drawPrime (bits / 2) pool with
    | (.error e, rest) => (.error e, rest)
    | (.ok p, rest) =>
      match drawPrime (bits - bits / 2) rest with
      | (.error e, rest) => (.error e, rest)
      | (.ok q, rest) =>
        match p.bind fun p => q.bind fun q => assemble? bits p q with
        | some k => (.ok k, rest)
        | none => generateWithin bits fuel rest

/-- The fewest bits of a modulus for which there are enough primes. -/
def minBits : Nat := 12

def generate (bits : Nat) (pool : Bytes) : Except Fault PrivateKey × Bytes :=
  if bits < minBits then (.error .keyGeneration, pool) else generateWithin bits 32 pool

end CertAuthority.Rsa
