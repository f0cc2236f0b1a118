import CertAuthority.Config
import CertAuthority.Store.Files
import CertAuthority.Store.Memory

namespace CertAuthority

open Store

/-- Opened stores. Those in files keep their records below a root directory. -/
inductive Stores
  | memory (records : Memory)
  | files (root : String) (tree : Tree)
deriving Inhabited

namespace Stores

def empty : Stores := memory {}

/-- Opens stores in files below a root, where earlier records may lie. -/
def openFiles (root : String) (tree : Tree) : Except Fault Unit × Stores :=
  let (done, tree) := Files.prepare root tree
  (done, files root tree)

/-- Opens the stores of a configuration. The tree is what lies below its directory. -/
def ofConfig (c : StorageConfig) (tree : Tree) : Except Fault Unit × Stores :=
  match c with
  | .memory => (.ok (), empty)
  | .file path => openFiles path tree

def organization (s : Stores) (id : String) : Except Fault Organization :=
  match s with
  | memory records => records.organization id
  | files root tree => Files.organization root tree id

def certificate (s : Stores) (serial : SerialNumber) : Except Fault IssuedCertificate :=
  match s with
  | memory records => records.certificate serial
  | files root tree => Files.certificate root tree serial

def privateKey (s : Stores) (serial : SerialNumber) : Except Fault PrivateKey :=
  match s with
  | memory records => records.privateKey serial
  | files root tree => Files.privateKey root tree serial

def change (s : Stores) (inMemory : Memory → Except Fault Unit × Memory)
    (inFiles : String → Tree → Except Fault Unit × Tree) : Except Fault Unit × Stores :=
  match s with
  | memory records =>
    let (done, records) := inMemory records
    (done, memory records)
  | files root tree =>
    let (done, tree) := inFiles root tree
    (done, files root tree)

def putOrganization (s : Stores) (o : Organization) : Except Fault Unit × Stores :=
  s.change (·.putOrganization o) (Files.putOrganization · · o)

def putCertificate (s : Stores) (c : IssuedCertificate) : Except Fault Unit × Stores :=
  s.change (·.putCertificate c) (Files.putCertificate · · c)

def putPrivateKey (s : Stores) (k : PrivateKey) : Except Fault Unit × Stores :=
  s.change (·.putPrivateKey k) (Files.putPrivateKey · · k)

/-- The stores opened anew: those in memory are empty, those in files hold what they held. -/
def reopen (s : Stores) : Except Fault Unit × Stores :=
  match s with
  | memory _ => (.ok (), empty)
  | files root tree => openFiles root tree

end Stores

end CertAuthority
