import CertAuthority.Key.PublicKey

namespace CertAuthority

/-- The supported signature algorithms. -/
inductive SignatureAlgorithm
  | rsaSha256
  | ecdsaSha224
  | ecdsaSha256
  | ecdsaSha384
  | ecdsaSha512
  | ed25519
deriving DecidableEq, Repr

namespace SignatureAlgorithm

def all : List SignatureAlgorithm :=
  [rsaSha256, ecdsaSha224, ecdsaSha256, ecdsaSha384, ecdsaSha512, ed25519]

def name : SignatureAlgorithm → String
  | rsaSha256 => "Sha256WithRsa"
  | ecdsaSha224 => "EcdsaWithSha224"
  | ecdsaSha256 => "EcdsaWithSha256"
  | ecdsaSha384 => "EcdsaWithSha384"
  | ecdsaSha512 => "EcdsaWithSha512"
  | ed25519 => "Ed25519"

def ofKeyType : KeyType → SignatureAlgorithm
  | .rsa => rsaSha256
  | .ecdsaP224 => ecdsaSha224
  | .ecdsaP256 => ecdsaSha256
  | .ecdsaP384 => ecdsaSha384
  | .ecdsaP521 => ecdsaSha512
  | .ed25519 => ed25519

def oid : SignatureAlgorithm → Oid
  | rsaSha256 => .ofArcs [1, 2, 840, 113549, 1, 1, 11]
  | ecdsaSha224 => .ofArcs [1, 2, 840, 10045, 4, 3, 1]
  | ecdsaSha256 => .ofArcs [1, 2, 840, 10045, 4, 3, 2]
  | ecdsaSha384 => .ofArcs [1, 2, 840, 10045, 4, 3, 3]
  | ecdsaSha512 => .ofArcs [1, 2, 840, 10045, 4, 3, 4]
  | ed25519 => ed25519Oid

/-- The algorithm of an identifier. One that is not known is told, if its arcs can be. -/
def ofOid (o : Oid) : Except Fault SignatureAlgorithm :=
  match all.find? (·.oid = o) with
  | some a => .ok a
  | none =>
    if o.isLegible then .error (.decoding (.signatureAlgorithm o)) else .error .arcOverflow

/-- The algorithm identifier in certificates. RSA has NULL for parameters, the others none. -/
def identifier (a : SignatureAlgorithm) : AlgorithmIdentifier :=
  ⟨a.oid, if a = rsaSha256 then some .null else none⟩

end SignatureAlgorithm

end CertAuthority
