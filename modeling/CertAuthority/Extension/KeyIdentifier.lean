import CertAuthority.Extension.GeneralName
import CertAuthority.SerialNumber

namespace CertAuthority

structure SubjectKeyIdentifier where
  octets : Bytes
deriving DecidableEq, Repr

namespace SubjectKeyIdentifier

instance : ExtensionValue SubjectKeyIdentifier where
  oid := .ofArcs [2, 5, 29, 14]
  element i := .ok (.octets i.octets)
  ofElement? e := e.octets?.map (⟨·⟩)

end SubjectKeyIdentifier

/-- The identifier of the key that signed; no octets where the extension has none. -/
structure AuthorityKeyIdentifier where
  octets : Bytes
deriving DecidableEq, Repr

namespace AuthorityKeyIdentifier

def element (i : AuthorityKeyIdentifier) : Der.Element := .sequence [⟨Der.Tag.context 0, i.octets⟩]

/-- Reads an identifier. The issuer's names and serial number may stand behind it. -/
def ofElement? (e : Der.Element) : Option AuthorityKeyIdentifier := do
  let (key, rest) := Der.takeContext 0 (← e.sequence?)
  let (names, rest) := Der.takeContext 1 rest
  let (serial, rest) := Der.takeContext 2 rest
  let octets ← key.mapM (·.content? (Der.Tag.context 0))
  let _ ← names.mapM fun e => do
    GeneralName.readAll (← e.content? (Der.Tag.contextConstructed 1))
  let _ ← serial.mapM fun e => do
    SerialNumber.content? ⟨Der.Tag.integer, ← e.content? (Der.Tag.context 2)⟩
  if rest = [] then some ⟨octets.getD []⟩ else none

instance : ExtensionValue AuthorityKeyIdentifier where
  oid := .ofArcs [2, 5, 29, 35]
  element i := .ok i.element
  ofElement?

end AuthorityKeyIdentifier

end CertAuthority
