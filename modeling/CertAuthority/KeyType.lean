import CertAuthority.Fault

namespace CertAuthority

inductive KeyType
  | rsa
  | ecdsaP224
  | ecdsaP256
  | ecdsaP384
  | ecdsaP521
  | ed25519
deriving DecidableEq, Repr

namespace KeyType

def all : List KeyType := [rsa, ecdsaP224, ecdsaP256, ecdsaP384, ecdsaP521, ed25519]

def name : KeyType → String
  | rsa => "RSA"
  | ecdsaP224 => "ECDSA_P224"
  | ecdsaP256 => "ECDSA_P256"
  | ecdsaP384 => "ECDSA_P384"
  | ecdsaP521 => "ECDSA_P521"
  | ed25519 => "Ed25519"

def isEcdsa : KeyType → Bool
  | ecdsaP224 | ecdsaP256 | ecdsaP384 | ecdsaP521 => true
  | rsa | ed25519 => false

def ofName (s : String) : Except Fault KeyType :=
  match all.find? (·.name = s) with
  | some t => .ok t
  | none => .error (.unsupportedKeyType (.name s))

def ofTag (tag : Int) : Except Fault KeyType :=
  if 0 ≤ tag then
    match all[tag.toNat]? with
    | some t => .ok t
    | none => .error (.unsupportedKeyType (.tag tag))
  else .error (.unsupportedKeyType (.tag tag))

end KeyType

end CertAuthority
