import CertAuthority.Key.KeyPair
import CertAuthority.SerialNumber

namespace CertAuthority

/-- The data of a private key, or the type alone of a stub. -/
inductive KeyMaterial
  | stub (keyType : KeyType)
  | pair (key : KeyPair)
deriving DecidableEq, Repr

/-- The private key of the certificate with a serial number. -/
structure PrivateKey where
  serial : SerialNumber
  material : KeyMaterial
deriving DecidableEq, Repr

namespace PrivateKey

def ofKeyPair (serial : SerialNumber) (k : KeyPair) : PrivateKey := ⟨serial, .pair k⟩

/-- A key of a type, with or without data. Data decides about the type. -/
def make (serial : SerialNumber) (keyType : KeyType) : Option KeyPair → PrivateKey
  | some k => ofKeyPair serial k
  | none => ⟨serial, .stub keyType⟩

/-- The data of a key; a stub has none. -/
def data (k : PrivateKey) : Option KeyPair :=
  match k.material with
  | .stub _ => none
  | .pair key => some key

def keyType (k : PrivateKey) : KeyType :=
  match k.material with
  | .stub keyType => keyType
  | .pair key => key.keyType

/-- The public half; a stub has none. -/
def publicKey (k : PrivateKey) : Option PublicKey := k.data.map (·.publicKey)

def dataToStore (k : PrivateKey) : Except Fault KeyPair :=
  match k.data with
  | some key => .ok key
  | none => .error (.input (.noKeyToStore k.serial))

def generate (serial : SerialNumber) (keyType : KeyType) (bits : Nat) (pool : Bytes) :
    Except Fault PrivateKey × Bytes :=
  let (drawn, rest) := KeyPair.generate keyType bits pool
  (drawn.map (ofKeyPair serial), rest)

def generateRsa (serial : SerialNumber) (bits : Nat) (pool : Bytes) :
    Except Fault PrivateKey × Bytes :=
  generate serial .rsa bits pool

def generateEcdsa (serial : SerialNumber) (keyType : KeyType) (pool : Bytes) :
    Except Fault PrivateKey × Bytes :=
  if keyType.isEcdsa then generate serial keyType 0 pool
  else (.error (.unsupportedKeyType (.notEcdsa keyType.name)), pool)

def generateEd25519 (serial : SerialNumber) (pool : Bytes) : Except Fault PrivateKey × Bytes :=
  generate serial .ed25519 0 pool

end PrivateKey

end CertAuthority
