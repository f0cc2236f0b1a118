import CertAuthority.Certificate.Issued
import CertAuthority.Json.Parser
import CertAuthority.Json.Printer
import CertAuthority.Organization
import CertAuthority.PrivateKey

namespace CertAuthority.Store

structure OrganizationRecord where
  id : String
  name : String
  allNames : List String
deriving DecidableEq, Repr

namespace OrganizationRecord

def fieldNames : List String := ["id", "name", "allNames"]

def render (r : OrganizationRecord) : String :=
  (Json.object ((fieldNames.map Json.pieces).zip
    [.ofText r.id, .ofText r.name, .array (r.allNames.map .ofText)])).render

def texts? : Json → Option (List String)
  | .array items => items.mapM (·.text?)
  | _ => none

def parse? (text : String) : Option OrganizationRecord := do
  match ← (← Json.parse? text).fields? fieldNames with
  | [some id, some name, some allNames] =>
    some ⟨← id.text?, ← name.text?, ← texts? allNames⟩
  | _ => none

def ofOrganization (o : Organization) : OrganizationRecord := ⟨o.id, o.name, o.names⟩

def toOrganization (r : OrganizationRecord) : Except Fault Organization :=
  Organization.make r.id r.allNames

end OrganizationRecord

/-- The fields of a certificate's record: numbers in decimal, the certificate as a PEM block. -/
structure CertificateRecord where
  organization : String
  signedBy : String
  serialNumber : String
  certificate : String
deriving DecidableEq, Repr

namespace CertificateRecord

def fieldNames : List String := ["organization", "signedBy", "serialNumber", "certificate"]

def render (r : CertificateRecord) : String :=
  (Json.object ((fieldNames.map Json.pieces).zip
    [.ofText r.organization, .ofText r.signedBy, .ofText r.serialNumber,
      .ofText r.certificate])).render

def parse? (text : String) : Option CertificateRecord := do
  match ← (← Json.parse? text).fields? fieldNames with
  | [some organization, some signedBy, some serialNumber, some certificate] =>
    some ⟨← organization.text?, ← signedBy.text?, ← serialNumber.text?, ← certificate.text?⟩
  | _ => none

def ofCertificate (c : IssuedCertificate) : CertificateRecord :=
  ⟨c.organization, Numeral.decimal c.signedBy, Numeral.decimal c.serial, c.certificate.toPem⟩

def toCertificate (r : CertificateRecord) : Except Fault IssuedCertificate := do
  let signedBy ← SerialNumber.parse r.signedBy 10
  let certificate ← Certificate.ofPem r.certificate
  return ⟨r.organization, signedBy, certificate⟩

end CertificateRecord

end CertAuthority.Store
