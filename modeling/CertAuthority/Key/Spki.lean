import CertAuthority.Der.Oid
import CertAuthority.Der.Primitive

namespace CertAuthority

/-- An algorithm and its parameters, which may be any element. -/
structure AlgorithmIdentifier where
  oid : Oid
  parameters : Option Der.Element
deriving DecidableEq, Repr

namespace AlgorithmIdentifier

def element (a : AlgorithmIdentifier) : Der.Element :=
  .sequence (a.oid.element :: a.parameters.toList)

def ofElement? (e : Der.Element) : Option AlgorithmIdentifier := do
  match ← e.sequence? with
  | [oid] => some ⟨← Oid.ofElement? oid, none⟩
  | [oid, parameters] => some ⟨← Oid.ofElement? oid, some parameters⟩
  | _ => none

def encode (a : AlgorithmIdentifier) : Bytes := a.element.encode

end AlgorithmIdentifier

/-- A public key as it stands in a certificate. -/
structure SubjectPublicKeyInfo where
  algorithm : AlgorithmIdentifier
  key : Der.BitString
deriving DecidableEq, Repr

namespace SubjectPublicKeyInfo

def element (s : SubjectPublicKeyInfo) : Der.Element :=
  .sequence [s.algorithm.element, s.key.element]

def ofElement? (e : Der.Element) : Option SubjectPublicKeyInfo := do
  match ← e.sequence? with
  | [algorithm, key] =>
    some ⟨← AlgorithmIdentifier.ofElement? algorithm, ← Der.BitString.ofElement? key⟩
  | _ => none

def encode (s : SubjectPublicKeyInfo) : Bytes := s.element.encode

def decode? (b : Bytes) : Option SubjectPublicKeyInfo := (Der.Element.ofBytes? b).bind ofElement?

end SubjectPublicKeyInfo

def rsaOid : Oid := .ofArcs [1, 2, 840, 113549, 1, 1, 1]

def ecdsaOid : Oid := .ofArcs [1, 2, 840, 10045, 2, 1]

def ed25519Oid : Oid := .ofArcs [1, 3, 101, 112]

end CertAuthority
