import CertAuthority.Curve.Edwards25519
import CertAuthority.Curve.Nist
import CertAuthority.Hash.Sha1
import CertAuthority.Key.Spki
import CertAuthority.KeyType
import CertAuthority.Rsa

namespace CertAuthority

inductive PublicKey
  | rsa (key : Rsa.PublicKey)
  | ecdsa (curve : NistCurve) (point : Weierstrass.PointOn curve.curve)
  | ed25519 (octets : Bytes)
deriving DecidableEq, Repr

def NistCurve.keyType : NistCurve → KeyType
  | .p224 => .ecdsaP224
  | .p256 => .ecdsaP256
  | .p384 => .ecdsaP384
  | .p521 => .ecdsaP521

namespace PublicKey

def keyType : PublicKey → KeyType
  | rsa _ => .rsa
  | ecdsa curve _ => curve.keyType
  | ed25519 _ => .ed25519

def algorithm : PublicKey → AlgorithmIdentifier
  | rsa _ => ⟨rsaOid, some .null⟩
  | ecdsa curve _ => ⟨ecdsaOid, some curve.oid.element⟩
  | ed25519 _ => ⟨ed25519Oid, none⟩

def octets : PublicKey → Bytes
  | rsa key => key.encode
  | ecdsa curve point => curve.curve.encode point
  | ed25519 octets => octets

/-- The form of a key in a certificate, however long. -/
def form (k : PublicKey) : SubjectPublicKeyInfo := ⟨k.algorithm, .ofOctets k.octets⟩

@[irreducible]
def toSpki (k : PublicKey) : Except Fault SubjectPublicKeyInfo :=
  if Der.fits k.form.encode then .ok k.form else .error (.encoding .key)

/-- A key of which only the octets are still to be read. -/
def orBadKey (k : Option PublicKey) : Except Fault PublicKey :=
  match k with
  | some k => .ok k
  | none => .error (.encoding .key)

/-- Reads a key whose form is within the limit on lengths. An algorithm that is not supported is
told, if its arcs can be. -/
def ofFitting (s : SubjectPublicKeyInfo) : Except Fault PublicKey :=
  if s.algorithm.oid = rsaOid then
    orBadKey do
      if s.algorithm.parameters = some .null then
        rsa <$> Rsa.PublicKey.decode? (← s.key.octets?)
      else none
  else if s.algorithm.oid = ecdsaOid then
    match s.algorithm.parameters with
    | none => .error (.decoding .noCurve)
    | some parameters =>
      match Oid.ofElement? parameters with
      | none => .error .malformed
      | some oid =>
        match NistCurve.ofOid? oid with
        | none => .error (.unsupportedKeyType (.curve oid))
        | some curve => orBadKey do ecdsa curve <$> curve.curve.decode? (← s.key.octets?)
  else if s.algorithm.oid = ed25519Oid then
    orBadKey do
      let octets ← s.key.octets?
      if s.algorithm.parameters = none ∧ Ed25519.isPublicKey octets then some (ed25519 octets)
      else none
  else if s.algorithm.oid.isLegible then
    .error (.unsupportedKeyType (.algorithm s.algorithm.oid))
  else .error .arcOverflow

@[irreducible]
def ofSpki (s : SubjectPublicKeyInfo) : Except Fault PublicKey :=
  if Der.fits s.encode then ofFitting s else .error .malformed

/-- The name of a key in key identifiers: the SHA-1 digest of its octets. -/
def identifier (k : PublicKey) : Except Fault Bytes :=
  k.toSpki.map fun s => Sha1.hash s.key.octets

end PublicKey

end CertAuthority
