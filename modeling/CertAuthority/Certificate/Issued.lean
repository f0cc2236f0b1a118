import CertAuthority.Certificate.Basic

namespace CertAuthority

/-- A certificate of an organization, with the serial number of the certificate it was issued
under. A root is issued under itself. -/
structure IssuedCertificate where
  organization : String
  signedBy : SerialNumber
  certificate : Certificate
deriving DecidableEq, Repr

namespace IssuedCertificate

def serial (c : IssuedCertificate) : SerialNumber := c.certificate.serial

/-- The first organization of the subject, if any. -/
def organizationName (c : IssuedCertificate) : String :=
  c.certificate.subject.organization.head?.getD ""

def isAuthority (c : IssuedCertificate) : Bool :=
  c.certificate.profile.basicConstraints.isSome && c.certificate.isCa

def isRoot (c : IssuedCertificate) : Bool := c.isAuthority && c.certificate.isSelfSigned

def isIntermediate (c : IssuedCertificate) : Bool := c.isAuthority && !c.certificate.isSelfSigned

def isServer (c : IssuedCertificate) : Bool := c.certificate.profile.purposes.contains .serverAuth

def isClient (c : IssuedCertificate) : Bool := c.certificate.profile.purposes.contains .clientAuth

def same (a b : IssuedCertificate) : Bool :=
  a.organization == b.organization && a.signedBy == b.signedBy
    && a.certificate.der == b.certificate.der

end IssuedCertificate

end CertAuthority
