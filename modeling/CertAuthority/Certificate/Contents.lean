import CertAuthority.Certificate.Tbs
import CertAuthority.SignatureAlgorithm
import CertAuthority.Validity

namespace CertAuthority

/-- What the signed part of a certificate says. -/
structure Contents where
  serial : SerialNumber
  algorithm : SignatureAlgorithm
  issuer : Name
  validity : Validity
  subject : Name
  publicKey : PublicKey
  extensions : List Extension
deriving DecidableEq, Repr

namespace Contents

def toTbs (c : Contents) : Except Fault TbsCertificate := do
  let notBefore ← Time.ofInstant c.validity.notBefore
  let notAfter ← Time.ofInstant c.validity.notAfter
  let serial ← c.serial.toContent
  let publicKeyInfo ← c.publicKey.toSpki
  return {
    version := .v3
    serial
    algorithm := c.algorithm.identifier
    issuer := c.issuer
    notBefore
    notAfter
    subject := c.subject
    publicKeyInfo
    issuerUniqueId := none
    subjectUniqueId := none
    extensions := if c.extensions.isEmpty then none else some c.extensions }

def ofTbs (t : TbsCertificate) : Except Fault Contents := do
  let publicKey ← PublicKey.ofSpki t.publicKeyInfo
  let algorithm ← SignatureAlgorithm.ofOid t.algorithm.oid
  return {
    serial := .ofContent t.serial
    algorithm
    issuer := t.issuer
    validity := ⟨t.notBefore.instant, t.notAfter.instant⟩
    subject := t.subject
    publicKey
    extensions := t.extensions.getD [] }

def encode (c : Contents) : Except Fault Bytes := do withinLimit (← c.toTbs).encode

end Contents

end CertAuthority
