import CertAuthority.Store.Record
import CertAuthority.Store.Tree

namespace CertAuthority.Store.Files

inductive Kind
  | organization
  | certificate
  | privateKey
deriving DecidableEq, Repr

def Kind.directory : Kind → String
  | organization => "organizations"
  | certificate => "certificates"
  | privateKey => "keys"

def Kind.file : Kind → String
  | organization => "organization.json"
  | certificate => "certificate.json"
  | privateKey => "private.pem"

def directory (kind : Kind) (key : String) : Path := [kind.directory, key]

def path (kind : Kind) (key : String) : Path := directory kind key ++ [kind.file]

/-- A path below the root, as it is told. -/
def pathText (root : String) (p : Path) : String := "/".intercalate (root :: p)

def isNameChar (c : Char) : Bool := c.isAlphanum || c = '_' || c = '.' || c = '-'

def isComponent (id : String) : Bool :=
  id ≠ "." && id ≠ ".." && !id.toList.isEmpty && id.toList.all isNameChar

def checkComponent (id : String) : Except Fault Unit :=
  if isComponent id then .ok () else .error (.input (.component "organization id" id))

def prepare (root : String) (t : Tree) : Except Fault Unit × Tree :=
  [Kind.organization, .certificate, .privateKey].foldl
    (fun (done, t) kind =>
      match done with
      | .error e => (.error e, t)
      | .ok () =>
        match t.makeDirectory [kind.directory] with
        | (true, t) => (.ok (), t)
        | (false, t) => (.error (.storage (.unwritable (pathText root [kind.directory]))), t))
    (.ok (), t)

def readText (root : String) (t : Tree) (kind : Kind) (key : String) (name : RecordName) :
    Except Fault String :=
  match t.follow (path kind key) with
  | .missing => .error (.notFound name)
  | .node (.file contents) =>
    match Der.utf8Text? contents with
    | some text => .ok text
    | none => .error (.storage (.unreadable (pathText root (path kind key))))
  | _ => .error (.storage (.unreadable (pathText root (path kind key))))

def writeText (root : String) (t : Tree) (kind : Kind) (key text : String) :
    Except Fault Unit × Tree :=
  match t.write (directory kind key) kind.file (Der.utf8 text) with
  | (true, t) => (.ok (), t)
  | (false, t) => (.error (.storage (.unwritable (pathText root (path kind key)))), t)

/-- What was read from a record, or the fault that it has not the form of one. -/
def orUnreadable {α : Type} (root : String) (kind : Kind) (key : String) (r : Option α) :
    Except Fault α :=
  match r with
  | some a => .ok a
  | none => .error (.storage (.unreadable (pathText root (path kind key))))

def organization (root : String) (t : Tree) (id : String) : Except Fault Organization := do
  checkComponent id
  let text ← readText root t .organization id (.organization id)
  let record ← orUnreadable root .organization id (OrganizationRecord.parse? text)
  record.toOrganization

def putOrganization (root : String) (t : Tree) (o : Organization) : Except Fault Unit × Tree :=
  match checkComponent o.id with
  | .error e => (.error e, t)
  | .ok () =>
    writeText root t .organization o.id (OrganizationRecord.ofOrganization o).render

/-- The certificate with a serial number. The record must hold that certificate. -/
def certificate (root : String) (t : Tree) (serial : SerialNumber) :
    Except Fault IssuedCertificate := do
  let key := Numeral.decimal serial
  let text ← readText root t .certificate key (.certificate serial)
  let record ← orUnreadable root .certificate key (CertificateRecord.parse? text)
  let c ← record.toCertificate
  if c.serial = serial then .ok c
  else .error (.storage (.misplaced (pathText root (path .certificate key)) c.serial))

def putCertificate (root : String) (t : Tree) (c : IssuedCertificate) : Except Fault Unit × Tree :=
  match checkComponent c.organization with
  | .error e => (.error e, t)
  | .ok () =>
    writeText root t .certificate (Numeral.decimal c.serial)
      (CertificateRecord.ofCertificate c).render

def privateKey (root : String) (t : Tree) (serial : SerialNumber) : Except Fault PrivateKey := do
  let text ← readText root t .privateKey (Numeral.decimal serial) (.privateKey serial)
  return .ofKeyPair serial (← KeyPair.ofPem text)

/-- Keeps a private key, which must have its data. -/
def putPrivateKey (root : String) (t : Tree) (k : PrivateKey) : Except Fault Unit × Tree :=
  match k.dataToStore >>= (·.toPem) with
  | .error e => (.error e, t)
  | .ok text => writeText root t .privateKey (Numeral.decimal k.serial) text

end CertAuthority.Store.Files
