import CertAuthority.Extension.Basic

namespace CertAuthority

/-- Whether the subject is an authority, and how many may stand between it and a leaf. -/
structure BasicConstraints where
  isCa : Bool
  maxPathLength : Option UInt8
deriving DecidableEq, Repr

namespace BasicConstraints

/-- The constraints as a SEQUENCE, without the parts that have their default. -/
def element (c : BasicConstraints) : Der.Element :=
  .sequence ((if c.isCa then [.boolean true] else [])
    ++ c.maxPathLength.toList.map (.integer ·.toNat))

/-- Reads a length of a path, which fits one octet. -/
def length? (e : Der.Element) : Option UInt8 := (e.natural?.filter (· < 256)).map UInt8.ofNat

def ofElement? (e : Der.Element) : Option BasicConstraints := do
  match ← e.sequence? with
  | [] => some ⟨false, none⟩
  | [part] =>
    if part.tag = Der.Tag.boolean then some ⟨← part.boolean?, none⟩
    else some ⟨false, some (← length? part)⟩
  | [isCa, length] => some ⟨← isCa.boolean?, some (← length? length)⟩
  | _ => none

instance : ExtensionValue BasicConstraints where
  oid := .ofArcs [2, 5, 29, 19]
  element c := .ok c.element
  ofElement?

end BasicConstraints

end CertAuthority
