import CertAuthority.Backend
import CertAuthority.Organization

namespace CertAuthority.Chain

variable {m : Type → Type} [Monad m]

/-- What a subject's certificate is to be issued with, whatever its class. -/
structure Request where
  organization : Organization
  serial : SerialNumber
  publicKey : PublicKey
  /-- The certificate it is issued under, and that certificate's key. -/
  parent : IssuedCertificate
  parentKey : PrivateKey
  expiration : Duration

def newSerial (backend : Backend m) : ExceptT Fault m SerialNumber :=
  SerialNumber.generate backend.random

def subject (organization : Organization) (commonName : String) : DistinguishedName :=
  ⟨organization.names, commonName⟩

def authorityTemplate (serial : SerialNumber) (organization : Organization) (commonName : String)
    (validity : Validity) (maxPathLength : Option UInt8) : Template where
  serial
  subject := subject organization commonName
  validity
  keyUsage := { digitalSignature := true, keyCertSign := true }
  purposes := [.serverAuth, .clientAuth]
  constrained := true
  isCa := true
  maxPathLength

def leafTemplate (serial : SerialNumber) (organization : Organization) (commonName : String)
    (validity : Validity) (purpose : Purpose) (dnsNames : List String) : Template where
  serial
  subject := subject organization commonName
  validity
  keyUsage := { digitalSignature := true, keyEncipherment := true }
  purposes := [purpose]
  constrained := true
  dnsNames

def publicHalf (k : PrivateKey) : Except Fault PublicKey :=
  match k.publicKey with
  | some publicKey => .ok publicKey
  | none => .error (.input (.noKeyData k.serial))

/-- Refuses a key that is not the one of the certificate to issue under. -/
def checkKey (parent : IssuedCertificate) (k : PrivateKey) : Except Fault Unit := do
  if (← publicHalf k) = parent.certificate.publicKey then .ok ()
  else .error (.input (.keyMismatch k.serial parent.serial))

/-- What a root certificate is to say, and for which key. -/
def planRoot (now : Instant) (organization : Organization) (commonName : String) (k : PrivateKey)
    (expiration : Duration) : Except Fault (Template × PublicKey) := do
  Field.caCommonName.check commonName
  let publicKey ← publicHalf k
  let validity ← Validity.startingAt now expiration
  return (authorityTemplate k.serial organization commonName validity none, publicKey)

/-- What the certificate of an authority below another is to say. It may have leaves only. -/
def planIntermediate (now : Instant) (r : Request) (commonName : String) :
    Except Fault Template := do
  Field.caCommonName.check commonName
  let validity ← Validity.startingAt now r.expiration
  checkKey r.parent r.parentKey
  return authorityTemplate r.serial r.organization commonName validity (some 0)

/-- What the certificate of a server with DNS names is to say. The first one is its common
name. -/
def planServer (now : Instant) (r : Request) (dnsNames : List String) : Except Fault Template := do
  match dnsNames with
  | [] => .error (.input .noDnsName)
  | commonName :: _ =>
    Field.dnsName.checkAll dnsNames
    let validity ← Validity.startingAt now r.expiration
    checkKey r.parent r.parentKey
    return leafTemplate r.serial r.organization commonName validity .serverAuth dnsNames

def planClient (now : Instant) (r : Request) (commonName : String) : Except Fault Template := do
  Field.clientCommonName.check commonName
  let validity ← Validity.startingAt now r.expiration
  checkKey r.parent r.parentKey
  return leafTemplate r.serial r.organization commonName validity .clientAuth []

/-- Issues a self-signed root certificate. Serial number and subject key are those of the key. -/
def newRoot (backend : Backend m) (now : Instant) (organization : Organization)
    (commonName : String) (k : PrivateKey) (expiration : Duration) :
    ExceptT Fault m IssuedCertificate := do
  let (template, publicKey) ← ExceptT.mk (pure (planRoot now organization commonName k expiration))
  let certificate ← k.createCertificate backend template publicKey .selfSigned
  return ⟨organization.id, k.serial, certificate⟩

/-- Issues the certificate of a plan under the certificate that the request names. -/
def issue (backend : Backend m) (r : Request) (plan : Except Fault Template) :
    ExceptT Fault m IssuedCertificate := do
  let template ← ExceptT.mk (pure plan)
  let certificate ← r.parentKey.createCertificate backend template r.publicKey r.parent.asIssuer
  return ⟨r.organization.id, r.parent.serial, certificate⟩

def newIntermediate (backend : Backend m) (now : Instant) (r : Request) (commonName : String) :
    ExceptT Fault m IssuedCertificate :=
  issue backend r (planIntermediate now r commonName)

def newServer (backend : Backend m) (now : Instant) (r : Request) (dnsNames : List String) :
    ExceptT Fault m IssuedCertificate :=
  issue backend r (planServer now r dnsNames)

def newClient (backend : Backend m) (now : Instant) (r : Request) (commonName : String) :
    ExceptT Fault m IssuedCertificate :=
  issue backend r (planClient now r commonName)

end CertAuthority.Chain
