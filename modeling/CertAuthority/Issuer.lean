import CertAuthority.Certificate.Issued

namespace CertAuthority

/-- An issuer. One without a name stands for the new certificate itself. -/
structure Issuer where
  name : Option Name
  keyId : Option Bytes
deriving DecidableEq, Repr

namespace Issuer

def selfSigned : Issuer := ⟨none, none⟩

def issuesItself (i : Issuer) : Bool := i.name.isNone

def nameFor (i : Issuer) (subject : Name) : Name := i.name.getD subject

/-- The identifier of the key that signs, which a certificate of its own does not name. -/
def authorityKeyId (i : Issuer) : Option Bytes := if i.issuesItself then none else i.keyId

end Issuer

def Certificate.asIssuer (c : Certificate) : Issuer :=
  ⟨some c.contents.subject, c.profile.subjectKeyId⟩

def IssuedCertificate.asIssuer (c : IssuedCertificate) : Issuer := c.certificate.asIssuer

end CertAuthority
