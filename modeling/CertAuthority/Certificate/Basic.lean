import CertAuthority.Certificate.Contents
import CertAuthority.DistinguishedName
import CertAuthority.Extension.BasicConstraints
import CertAuthority.Extension.KeyIdentifier
import CertAuthority.Extension.KeyUsage
import CertAuthority.Extension.Purpose
import CertAuthority.Pem

namespace CertAuthority

/-- The extensions that are understood. -/
structure Profile where
  basicConstraints : Option BasicConstraints
  keyUsage : KeyUsage
  purposes : List Purpose
  dnsNames : List String
  subjectKeyId : Option Bytes
  authorityKeyId : Option Bytes
deriving DecidableEq, Repr

namespace Profile

/-- Reads the extensions that are understood. An identifier of the key that signed counts only
if it has octets. -/
def ofExtensions (es : List Extension) : Except Fault Profile := do
  let basicConstraints ← Extension.find BasicConstraints es
  let keyUsage ← Extension.find KeyUsage es
  let purposes ← Extension.find ExtendedKeyUsage es
  let names ← Extension.find SubjectAltName es
  let subjectKeyId ← Extension.find SubjectKeyIdentifier es
  let authorityKeyId ← Extension.find AuthorityKeyIdentifier es
  return {
    basicConstraints
    keyUsage := keyUsage.getD .none
    purposes := (purposes.map (·.purposes)).getD []
    dnsNames := (names.map (·.names)).getD []
    subjectKeyId := subjectKeyId.map (·.octets)
    authorityKeyId := (authorityKeyId.map (·.octets)).filter (!·.isEmpty) }

end Profile

/-- What the bytes of a certificate say: its fields, what they mean and the extensions among
them. -/
structure CertificateReading where
  signed : SignedCertificate
  contents : Contents
  profile : Profile
deriving DecidableEq, Repr

def CertificateReading.ofDer (der : Bytes) : Except Fault CertificateReading := do
  let signed ← orMalformed (SignedCertificate.decode? der)
  let contents ← Contents.ofTbs signed.tbs
  let profile ← Profile.ofExtensions contents.extensions
  return ⟨signed, contents, profile⟩

/-- A certificate: its bytes and what they say. -/
structure Certificate where
  der : Bytes
  reading : CertificateReading
  sound : CertificateReading.ofDer der = .ok reading
deriving DecidableEq, Repr

namespace Certificate

def ofDer (der : Bytes) : Except Fault Certificate :=
  match h : CertificateReading.ofDer der with
  | .ok reading => .ok ⟨der, reading, h⟩
  | .error e => .error e

def signed (c : Certificate) : SignedCertificate := c.reading.signed

def contents (c : Certificate) : Contents := c.reading.contents

def profile (c : Certificate) : Profile := c.reading.profile

/-- Reads a certificate from the first block of a text. -/
def ofPem (text : String) : Except Fault Certificate := do
  ofDer (← Pem.decodeLabelled text Pem.certificateLabel)

def toPem (c : Certificate) : String := Pem.armor c.der Pem.certificateLabel

def reencode (c : Certificate) : Except Fault Bytes := withinLimit c.signed.encode

def serial (c : Certificate) : SerialNumber := c.contents.serial

def publicKey (c : Certificate) : PublicKey := c.contents.publicKey

def subject (c : Certificate) : DistinguishedName := .ofName c.contents.subject

def issuer (c : Certificate) : DistinguishedName := .ofName c.contents.issuer

def isCa (c : Certificate) : Bool := c.profile.basicConstraints.any (·.isCa)

/-- How many authorities may stand below this one, if that is bounded. -/
def maxPathLength (c : Certificate) : Option UInt8 :=
  c.profile.basicConstraints.bind (·.maxPathLength)

/-- Whether the key that signed is the subject's. Where an identifier of either key is missing,
the names of issuer and subject decide. -/
def isSelfSigned (c : Certificate) : Bool :=
  match c.profile.authorityKeyId, c.profile.subjectKeyId with
  | some authority, some subject => authority == subject
  | _, _ => c.contents.issuer == c.contents.subject

end Certificate

end CertAuthority
