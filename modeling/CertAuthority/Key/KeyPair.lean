import CertAuthority.Ecdsa
import CertAuthority.Key.Pkcs8
import CertAuthority.Key.PublicKey
import CertAuthority.Pem

namespace CertAuthority

/-- A private key, from which the public half follows. -/
inductive KeyPair
  | rsa (key : Rsa.PrivateKey)
  | ecdsa (key : Ecdsa.PrivateKey)
  | ed25519 (key : Ed25519.PrivateKey)
deriving DecidableEq, Repr

namespace KeyPair

def keyType : KeyPair → KeyType
  | rsa _ => .rsa
  | ecdsa key => key.curve.keyType
  | ed25519 _ => .ed25519

def publicKey : KeyPair → PublicKey
  | rsa key => .rsa key.publicKey
  | ecdsa key => .ecdsa key.curve key.point
  | ed25519 key => .ed25519 (Ed25519.publicKey key.secret)

/-- The signature of a message, given a nonce that was drawn for it. Only the keys on the longest
curve use that one. -/
def sign (k : KeyPair) (nonce : Nat) (message : Bytes) : Except Fault Bytes :=
  let signature := match k with
    | rsa key => Rsa.sign? key message
    | ecdsa key => (Ecdsa.sign? key nonce message).map (·.encode)
    | ed25519 key => some (Ed25519.sign key message)
  match signature with
  | some b => .ok b
  | none => .error (.encoding .signing)

def minSecretSize : Nat := 24

/-- The octets of a key on a curve: version, secret and public point. -/
def encodeSecret (key : Ecdsa.PrivateKey) : Bytes :=
  (Der.Element.sequence [.integer 1, .octets (fixedBytes key.curve.curve.size key.secret),
    .explicit 1 (Der.BitString.ofOctets (key.curve.curve.encode key.point)).element]).encode

def hasPoint (key : Ecdsa.PrivateKey) (b : Bytes) : Bool :=
  b = key.curve.curve.encode key.point || b = key.curve.curve.compress key.point

/-- Reads the octets of a key on a curve. The curve may be named again, whichever it is, and a
public point must be that of the secret. -/
def decodeSecret? (curve : NistCurve) (b : Bytes) : Option Ecdsa.PrivateKey := do
  match ← (← Der.Element.ofBytes? b).sequence? with
  | version :: secret :: rest =>
    let secret ← secret.octets?
    let (parameters, rest) := Der.takeContext 0 rest
    let (point, rest) := Der.takeContext 1 rest
    let _ ← parameters.mapM fun e => do Oid.ofElement? (← e.only?)
    let point ← point.mapM fun e => do (← Der.BitString.ofElement? (← e.only?)).octets?
    if version = .integer 1 ∧ rest = []
        ∧ (secret.length = curve.curve.size
          ∨ minSecretSize ≤ secret.length ∧ secret.length < curve.curve.size) then
      (Ecdsa.PrivateKey.ofSecret? curve (beNat secret)).filter fun key => point.all (hasPoint key)
    else none
  | _ => none

def toInfo : KeyPair → Except Fault PrivateKeyInfo
  | rsa key =>
    match key.encode? with
    | some octets => .ok ⟨(PublicKey.rsa key.publicKey).algorithm, octets, none⟩
    | none => .error (.encoding .key)
  | k@(ecdsa key) => .ok ⟨k.publicKey.algorithm, encodeSecret key, none⟩
  | k@(ed25519 key) =>
    .ok ⟨k.publicKey.algorithm, (Der.Element.octets key.secret).encode, some k.publicKey.octets⟩

/-- Reads the octets of an Ed25519 key, with the public key of its envelope. -/
def decodeSeed? (info : PrivateKeyInfo) : Option Ed25519.PrivateKey := do
  let key ← Ed25519.PrivateKey.ofSecret? (← (← Der.Element.ofBytes? info.octets).octets?)
  if info.algorithm.parameters = none
      ∧ info.publicKey.all (· = Ed25519.publicKey key.secret) then some key
  else none

def ofInfo (info : PrivateKeyInfo) : Except Fault KeyPair :=
  if info.algorithm.oid = rsaOid then
    orMalformed <|
      if info.algorithm.parameters = some .null then rsa <$> Rsa.PrivateKey.decode? info.octets
      else none
  else if info.algorithm.oid = ecdsaOid then
    match info.algorithm.parameters.bind Oid.ofElement? with
    | none => .error (.encoding .key)
    | some oid =>
      match NistCurve.ofOid? oid with
      | none => .error (.unsupportedKeyType (.curve oid))
      | some curve => orMalformed (ecdsa <$> decodeSecret? curve info.octets)
  else if info.algorithm.oid = ed25519Oid then orMalformed (ed25519 <$> decodeSeed? info)
  else .error (.unsupportedKeyType (.algorithm info.algorithm.oid))

def toPkcs8 (k : KeyPair) : Except Fault Bytes := do
  let info ← k.toInfo
  if Der.fits info.encode then return info.encode else throw (.encoding .key)

def ofPkcs8 (b : Bytes) : Except Fault KeyPair := do
  ofInfo (← orMalformed (PrivateKeyInfo.decode? b))

def toPem (k : KeyPair) : Except Fault String := k.toPkcs8.map (Pem.armor · Pem.privateKeyLabel)

/-- Reads a key from the first block of a text, whatever its label. -/
def ofPem (text : String) : Except Fault KeyPair := do ofPkcs8 (← Pem.decode text)

def orNoKey {α : Type} (k : Option α) : Except Fault α :=
  match k with
  | some k => .ok k
  | none => .error .keyGeneration

def generateOn (curve : NistCurve) (pool : Bytes) : Except Fault KeyPair × Bytes :=
  let (drawn, rest) := Entropy.drawBelow (curve.curve.n - 1) pool
  (do return ecdsa (← orNoKey (Ecdsa.PrivateKey.ofSecret? curve ((← drawn) + 1))), rest)

/-- A fresh key of a type; the number of bits is that of an RSA modulus. -/
def generate (keyType : KeyType) (bits : Nat) (pool : Bytes) : Except Fault KeyPair × Bytes :=
  match keyType with
  | .rsa =>
    let (key, rest) := Rsa.generate bits pool
    (key.map rsa, rest)
  | .ecdsaP224 => generateOn .p224 pool
  | .ecdsaP256 => generateOn .p256 pool
  | .ecdsaP384 => generateOn .p384 pool
  | .ecdsaP521 => generateOn .p521 pool
  | .ed25519 =>
    let (drawn, rest) := Entropy.drawBelow (1 <<< (8 * Ed25519.size)) pool
    (do return ed25519 (← orNoKey
      (Ed25519.PrivateKey.ofSecret? (fixedBytes Ed25519.size (← drawn)))), rest)

end KeyPair

end CertAuthority
