import CertAuthority.Name

namespace CertAuthority

/-- The organizations and the common name of a subject or an issuer. -/
structure DistinguishedName where
  organization : List String := []
  commonName : String := ""
deriving DecidableEq, Repr

namespace DistinguishedName

def organizationOid : Oid := .ofArcs [2, 5, 4, 10]

def commonNameOid : Oid := .ofArcs [2, 5, 4, 3]

def single (oid : Oid) (text : String) : RelativeName :=
  ⟨[⟨oid, ⟨Der.Tag.utf8String, Der.utf8 text⟩⟩]⟩

/-- The name of the organizations and, unless it is empty, of the common name. -/
def toName (d : DistinguishedName) : Name :=
  ⟨d.organization.map (single organizationOid)
    ++ if d.commonName.isEmpty then [] else [single commonNameOid d.commonName]⟩

def text? (a : Attribute) : Option String :=
  if a.value.tag = Der.Tag.utf8String then Der.utf8Text? a.value.content
  else if a.value.tag = Der.Tag.printableString ∧ a.value.content.all Der.isPrintable then
    Der.utf8Text? a.value.content
  else none

/-- The texts of the attributes of a type, from the root down. -/
def texts (n : Name) (oid : Oid) : List String :=
  (n.attributes.filter (·.oid = oid)).filterMap text?

/-- The organizations of a name and the last of its common names. -/
def ofName (n : Name) : DistinguishedName :=
  ⟨texts n organizationOid, (texts n commonNameOid).getLast?.getD ""⟩

end DistinguishedName

end CertAuthority
