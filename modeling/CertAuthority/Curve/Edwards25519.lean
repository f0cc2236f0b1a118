import CertAuthority.Arith.Modular
import CertAuthority.Hash.Sha2

namespace CertAuthority.Ed25519

def p : Nat := 0x7fffffffffffffffffffffffffffffffffffffffffffffffffffffffffffffed

def order : Nat := 0x1000000000000000000000000000000014def9dea2f79cd65812631a5cf5d3ed

def d : Nat := 37095705934669439343138083508754565189542113879843219016388785533085940283555

def size : Nat := 32

/-- The last bit of an octet string, which tells the parity of an abscissa. -/
def parityBit : Nat := 1 <<< 255

/-- A point of the curve `-x² + y² = 1 + d x² y²`, as numerators over a common denominator:
`x = X / Z`, `y = Y / Z` and `x y = T / Z`. -/
structure Extended where
  X : Nat
  Y : Nat
  Z : Nat
  T : Nat

def sub (u v : Nat) : Nat := (u + (p - v)) % p

def neutral : Extended := ⟨0, 1, 1, 0⟩

def add (P Q : Extended) : Extended :=
  let a := sub P.Y P.X * sub Q.Y Q.X % p
  let b := (P.Y + P.X) * (Q.Y + Q.X) % p
  let c := 2 * P.T * d * Q.T % p
  let z := 2 * P.Z * Q.Z % p
  let e := sub b a
  let f := sub z c
  let g := (z + c) % p
  let h := (b + a) % p
  ⟨e * f % p, g * h % p, f * g % p, e * h % p⟩

def scale (k : Nat) (P : Extended) : Extended :=
  if k = 0 then neutral
  else
    let half := scale (k / 2) P
    let Q := add half half
    if k % 2 = 1 then add Q P else Q
termination_by k
decreasing_by omega

def abscissa? (y : Nat) (odd : Bool) : Option Nat := do
  let inverse ← Modular.inverse? ((d * (y * y) + 1) % p) p
  let root ← Modular.sqrt? p 2 ((y * y + (p - 1)) * inverse % p)
  some (if (root % 2 == 1) == odd then root else sub 0 root)

def lift (x y : Nat) : Extended := ⟨x, y, 1, x * y % p⟩

def base : Extended :=
  lift 15112221349535400772501151409588531511454012693041857206046113283949847762202
    46316835694926478169428394003475163141307993866256225615783033603165251855960

/-- The ordinate in 255 bits and the parity of the abscissa in the last one. -/
def encode (P : Extended) : Bytes :=
  match Modular.inverse? P.Z p with
  | none => []
  | some inverse =>
    let x := P.X * inverse % p
    let y := P.Y * inverse % p
    fixedBytesLe size (y + parityBit * (x % 2))

/-- The point of an octet string. An ordinate beyond the field is taken modulo its size. -/
def decode? (b : Bytes) : Option Extended :=
  if b.length = size then do
    let n := leNat b
    let y := n % parityBit % p
    let x ← abscissa? y (n / parityBit == 1)
    some (lift x y)
  else none

/-- The digest of a secret, as the factor of the base point and the seed of nonces. -/
def expand (secret : Bytes) : Nat × Bytes :=
  let digest := Sha2.sha512.hash secret
  let n := leNat (digest.take size)
  ((1 <<< 254) + n % (1 <<< 254) / 8 * 8, digest.drop size)

def publicKey (secret : Bytes) : Bytes := encode (scale (expand secret).1 base)

def isPublicKey (b : Bytes) : Bool := (decode? b).isSome

structure PrivateKey where
  secret : Bytes
  sound : secret.length = size
deriving DecidableEq, Repr

def PrivateKey.ofSecret? (b : Bytes) : Option PrivateKey :=
  if h : b.length = size then some ⟨b, h⟩ else none

def sign (key : PrivateKey) (message : Bytes) : Bytes :=
  let (a, seed) := expand key.secret
  let r := leNat (Sha2.sha512.hash (seed ++ message)) % order
  let R := encode (scale r base)
  let k := leNat (Sha2.sha512.hash (R ++ publicKey key.secret ++ message)) % order
  R ++ fixedBytesLe size ((r + k * a) % order)

end CertAuthority.Ed25519
