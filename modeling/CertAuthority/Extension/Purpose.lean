import CertAuthority.Extension.Basic

namespace CertAuthority

inductive Purpose
  | serverAuth
  | clientAuth
  | codeSigning
  | emailProtection
  | timeStamping
  | ocspSigning
deriving DecidableEq, Repr

namespace Purpose

def all : List Purpose :=
  [serverAuth, clientAuth, codeSigning, emailProtection, timeStamping, ocspSigning]

def name : Purpose → String
  | serverAuth => "ServerAuth"
  | clientAuth => "ClientAuth"
  | codeSigning => "CodeSigning"
  | emailProtection => "EmailProtection"
  | timeStamping => "TimeStamping"
  | ocspSigning => "OcspSigning"

def oid : Purpose → Oid
  | serverAuth => .ofArcs [1, 3, 6, 1, 5, 5, 7, 3, 1]
  | clientAuth => .ofArcs [1, 3, 6, 1, 5, 5, 7, 3, 2]
  | codeSigning => .ofArcs [1, 3, 6, 1, 5, 5, 7, 3, 3]
  | emailProtection => .ofArcs [1, 3, 6, 1, 5, 5, 7, 3, 4]
  | timeStamping => .ofArcs [1, 3, 6, 1, 5, 5, 7, 3, 8]
  | ocspSigning => .ofArcs [1, 3, 6, 1, 5, 5, 7, 3, 9]

def ofOid? (o : Oid) : Option Purpose := all.find? (·.oid = o)

end Purpose

structure ExtendedKeyUsage where
  purposes : List Purpose
deriving DecidableEq, Repr

namespace ExtendedKeyUsage

def element (u : ExtendedKeyUsage) : Der.Element := .sequence (u.purposes.map (·.oid.element))

/-- Reads purposes, all of which must have an identifier. -/
def ofElement? (e : Der.Element) : Option ExtendedKeyUsage := do
  let oids ← (← e.sequence?).mapM Oid.ofElement?
  some ⟨oids.filterMap Purpose.ofOid?⟩

instance : ExtensionValue ExtendedKeyUsage where
  oid := .ofArcs [2, 5, 29, 37]
  element u := .ok u.element
  ofElement?

end ExtendedKeyUsage

end CertAuthority
