import CertAuthority.Certificate.Issued
import CertAuthority.Organization
import CertAuthority.PrivateKey

namespace CertAuthority.Store

/-- Organizations by id, certificates and private keys by serial number. -/
structure Memory where
  organizations : List (String × Organization) := []
  certificates : List (SerialNumber × IssuedCertificate) := []
  privateKeys : List (SerialNumber × PrivateKey) := []
deriving Inhabited

namespace Memory

/-- The records with a value under an identifier, whatever was there before. -/
def insert {κ α : Type} [DecidableEq κ] (key : κ) (value : α) (records : List (κ × α)) :
    List (κ × α) :=
  (key, value) :: records.filter (·.1 ≠ key)

def lookup {κ α : Type} [DecidableEq κ] (key : κ) (name : RecordName) (records : List (κ × α)) :
    Except Fault α :=
  match records.find? (·.1 = key) with
  | some (_, value) => .ok value
  | none => .error (.notFound name)

def organization (r : Memory) (id : String) : Except Fault Organization :=
  lookup id (.organization id) r.organizations

def putOrganization (r : Memory) (o : Organization) : Except Fault Unit × Memory :=
  (.ok (), { r with organizations := insert o.id o r.organizations })

def certificate (r : Memory) (serial : SerialNumber) : Except Fault IssuedCertificate :=
  lookup serial (.certificate serial) r.certificates

def putCertificate (r : Memory) (c : IssuedCertificate) : Except Fault Unit × Memory :=
  (.ok (), { r with certificates := insert c.serial c r.certificates })

def privateKey (r : Memory) (serial : SerialNumber) : Except Fault PrivateKey :=
  lookup serial (.privateKey serial) r.privateKeys

/-- Keeps a private key, which must have its data. -/
def putPrivateKey (r : Memory) (k : PrivateKey) : Except Fault Unit × Memory :=
  match k.dataToStore with
  | .error e => (.error e, r)
  | .ok _ => (.ok (), { r with privateKeys := insert k.serial k r.privateKeys })

end Memory

end CertAuthority.Store
