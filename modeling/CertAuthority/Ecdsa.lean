import CertAuthority.Curve.Nist
import CertAuthority.Der.Primitive

namespace CertAuthority.Ecdsa

open Weierstrass

/-- The two numbers of a signature. -/
structure Signature where
  r : Nat
  s : Nat
deriving DecidableEq, Repr

/-- Whether a number is the secret of a key on a curve: not zero and below the order. No such number
fails to have a point, which the last test asks for. -/
def isSecret (curve : NistCurve) (secret : Nat) : Bool :=
  0 < secret && secret < curve.curve.n && (curve.curve.point? secret).isSome

structure PrivateKey where
  curve : NistCurve
  secret : Nat
  sound : isSecret curve secret = true
deriving DecidableEq, Repr

namespace PrivateKey

def ofSecret? (curve : NistCurve) (secret : Nat) : Option PrivateKey :=
  if h : isSecret curve secret = true then some ⟨curve, secret, h⟩ else none

theorem point?_isSome (k : PrivateKey) : (k.curve.curve.point? k.secret).isSome := by
  have h := k.sound
  simp only [isSecret, Bool.and_eq_true] at h
  exact h.2

def point (k : PrivateKey) : PointOn k.curve.curve :=
  (k.curve.curve.point? k.secret).get k.point?_isSome

end PrivateKey

def leadingBits (c : Curve) (b : Bytes) : Nat := beNat b >>> (8 * b.length - bitLength c.n)

def orderSize (c : Curve) : Nat := (bitLength c.n + 7) / 8

def stream (v : Sha2.Variant) (key : Bytes) : Nat → Bytes → Bytes → Bytes × Bytes
  | 0, value, out => (value, out)
  | k + 1, value, out =>
    let value := v.hmac key value
    stream v key k value (out ++ value)

/-- Candidates for the nonce until one is in range, with a limit on their number. -/
def nonceWithin (v : Sha2.Variant) (c : Curve) : Nat → Bytes → Bytes → Option Nat
  | 0, _, _ => none
  | fuel + 1, key, value =>
    let (value, out) := stream v key ((orderSize c + v.size - 1) / v.size) value []
    let k := leadingBits c (out.take (orderSize c))
    if 0 < k ∧ k < c.n then some k
    else
      let key := v.hmac key (value ++ [0])
      nonceWithin v c fuel key (v.hmac key value)

def nonce? (v : Sha2.Variant) (c : Curve) (secret : Nat) (digest : Bytes) : Option Nat :=
  let seed := fixedBytes (orderSize c) secret
    ++ fixedBytes (orderSize c) (leadingBits c digest % c.n)
  let key := List.replicate v.size (0 : UInt8)
  let value := List.replicate v.size (1 : UInt8)
  let key := v.hmac key (value ++ 0 :: seed)
  let value := v.hmac key value
  let key := v.hmac key (value ++ 1 :: seed)
  nonceWithin v c 64 key (v.hmac key value)

/-- The signature of a message with a nonce. -/
def signWith? (key : PrivateKey) (nonce : Nat) (message : Bytes) : Option Signature := do
  let c := key.curve.curve
  let R ← c.point? nonce
  let inverse ← Modular.inverse? nonce c.n
  let r := R.x % c.n
  let digest := leadingBits c (key.curve.hash.hash message)
  let s := inverse * (digest + r * key.secret) % c.n
  if r = 0 ∨ s = 0 then none else some ⟨r, s⟩

/-- The signature of a message. On the longest curve the nonce is the one that was drawn for it, and
on the others key and message determine one. -/
def sign? (key : PrivateKey) (drawn : Nat) (message : Bytes) : Option Signature :=
  if key.curve = .p521 then signWith? key drawn message
  else
    (nonce? key.curve.hash key.curve.curve key.secret (key.curve.hash.hash message)).bind
      fun nonce => signWith? key nonce message

def verify (curve : NistCurve) (P : Point) (message : Bytes) (sig : Signature) : Bool :=
  let c := curve.curve
  let digest := curve.hash.hash message
  if 0 < sig.r ∧ sig.r < c.n ∧ 0 < sig.s ∧ sig.s < c.n then
    match Modular.inverse? sig.s c.n with
    | none => false
    | some w =>
      let R := c.add (c.scale (leadingBits c digest * w % c.n) (Curve.lift c.generator))
        (c.scale (sig.r * w % c.n) (Curve.lift P))
      match c.affine? R with
      | none => false
      | some R => R.x % c.n == sig.r
  else false

namespace Signature

def encode (sig : Signature) : Bytes :=
  (Der.Element.sequence [.integer sig.r, .integer sig.s]).encode

def decode? (b : Bytes) : Option Signature := do
  let fields ← (← Der.Element.ofBytes? b).sequence?
  match fields with
  | [r, s] => some ⟨← r.natural?, ← s.natural?⟩
  | _ => none

end Signature

end CertAuthority.Ecdsa
