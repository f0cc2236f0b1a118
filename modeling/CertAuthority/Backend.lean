import CertAuthority.Issuer
import CertAuthority.PrivateKey
import CertAuthority.Template

namespace CertAuthority

/-- A backend: a source for serial numbers, and the making and reading of certificates. -/
structure Backend (m : Type → Type) where
  random : RandomSource m
  /-- The encoding of a certificate for a public key, signed with a key for an issuer. -/
  create : Template → Issuer → PublicKey → KeyPair → ExceptT Fault m Bytes
  parse : Bytes → ExceptT Fault m Certificate

namespace Template

/-- What a certificate for a public key and an issuer says, signed with a key of a type. -/
def contents (t : Template) (issuer : Issuer) (publicKey : PublicKey) (keyType : KeyType) :
    Except Fault Contents := do
  let subject := t.subject.toName
  let subjectKeyId ← publicKey.identifier
  let extensions ← t.toExtensions subjectKeyId issuer.authorityKeyId
  return {
    serial := t.serial
    algorithm := .ofKeyType keyType
    issuer := issuer.nameFor subject
    validity := t.validity
    subject
    publicKey
    extensions }

def signWith (t : Template) (issuer : Issuer) (publicKey : PublicKey) (key : KeyPair)
    (nonce : Nat) : Except Fault SignedCertificate := do
  let contents ← t.contents issuer publicKey key.keyType
  let tbs ← contents.toTbs
  let signature ← key.sign nonce (← withinLimit tbs.encode)
  return ⟨tbs, contents.algorithm.identifier, .ofOctets signature⟩

/-- The encoding of a certificate for a public key and an issuer, signed with a key and a nonce. -/
def create (t : Template) (issuer : Issuer) (publicKey : PublicKey) (key : KeyPair) (nonce : Nat) :
    Except Fault Bytes := do
  withinLimit (← t.signWith issuer publicKey key nonce).encode

end Template

/-- The backend that signs with the algorithm of the key, with a fresh nonce each time, and reads
what it is given. The nonces are not drawn from the source of serial numbers. -/
def Backend.standard {m : Type → Type} [Monad m] (random : RandomSource m) (nonces : m Nat) :
    Backend m where
  random
  create t issuer publicKey key := ExceptT.mk do
    return t.create issuer publicKey key (← nonces)
  parse der := ExceptT.mk (pure (Certificate.ofDer der))

namespace PrivateKey

def createCertificate {m : Type → Type} [Monad m] (k : PrivateKey) (backend : Backend m)
    (template : Template) (subjectKey : PublicKey) (issuer : Issuer) :
    ExceptT Fault m Certificate :=
  match k.data with
  | none => throw (.creation (.input (.noKeyToSign k.serial)))
  | some key => do
    let der ← ExceptT.adapt Fault.creation (backend.create template issuer subjectKey key)
    ExceptT.adapt Fault.parseAfterCreation (backend.parse der)

end PrivateKey

end CertAuthority
