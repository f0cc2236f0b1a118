import CertAuthority.Der.Primitive
import CertAuthority.Key.Spki

namespace CertAuthority

structure PrivateKeyInfo where
  algorithm : AlgorithmIdentifier
  octets : Bytes
  publicKey : Option Bytes
deriving DecidableEq, Repr

namespace PrivateKeyInfo

/-- The envelope as a SEQUENCE. Its version is one where the public key is in it, else zero. -/
def element (k : PrivateKeyInfo) : Der.Element :=
  .sequence (.integer (if k.publicKey.isSome then 1 else 0) :: k.algorithm.element
    :: .octets k.octets
    :: k.publicKey.toList.map fun b => ⟨Der.Tag.context 1, (Der.BitString.ofOctets b).content⟩)

def publicKey? (e : Der.Element) : Option Bytes := do
  (← Der.BitString.ofContent? (← e.content? (Der.Tag.context 1))).octets?

/-- Reads an envelope. Attributes and fields behind the public key are passed over. -/
def ofElement? (e : Der.Element) : Option PrivateKeyInfo := do
  match ← e.sequence? with
  | version :: algorithm :: octets :: rest =>
    let version ← version.natural?
    let algorithm ← AlgorithmIdentifier.ofElement? algorithm
    let octets ← octets.octets?
    let (field, rest) := Der.takeContext 1 rest
    let publicKey ← field.mapM publicKey?
    if version = (if publicKey.isSome then 1 else 0)
        ∧ rest.all (fun e => Der.Tag.isContext e.tag && e.only?.isSome) then
      some ⟨algorithm, octets, publicKey⟩
    else none
  | _ => none

def encode (k : PrivateKeyInfo) : Bytes := k.element.encode

def decode? (b : Bytes) : Option PrivateKeyInfo := (Der.Element.ofBytes? b).bind ofElement?

end PrivateKeyInfo

end CertAuthority
