import CertAuthority.Der.Oid
import CertAuthority.Der.Primitive

namespace CertAuthority

structure Attribute where
  oid : Oid
  value : Der.Element
deriving DecidableEq, Repr

namespace Attribute

def element (a : Attribute) : Der.Element := .sequence [a.oid.element, a.value]

def ofElement? (e : Der.Element) : Option Attribute := do
  match ← e.sequence? with
  | [oid, value] => some ⟨← Oid.ofElement? oid, value⟩
  | _ => none

def precedes (a b : Attribute) : Bool := decide (a.element.encode < b.element.encode)

end Attribute

/-- A relative name: the attributes of a set, in order. -/
structure RelativeName where
  attributes : List Attribute
deriving DecidableEq, Repr

namespace RelativeName

/-- Puts an attribute into its place, unless it is there already. -/
def insert? (a : Attribute) : List Attribute → Option (List Attribute)
  | [] => some [a]
  | b :: rest =>
    if a.precedes b then some (a :: b :: rest)
    else if b.precedes a then (insert? a rest).map (b :: ·)
    else none

/-- Puts attributes in order; no two may be alike. -/
def sort? : List Attribute → Option (List Attribute)
  | [] => some []
  | a :: rest => (sort? rest).bind (insert? a)

def element (r : RelativeName) : Der.Element :=
  ⟨Der.Tag.set, Der.Element.encodeAll (r.attributes.map (·.element))⟩

def ofElement? (e : Der.Element) : Option RelativeName := do
  let attributes ← (← e.children? Der.Tag.set).mapM Attribute.ofElement?
  (sort? attributes).map (⟨·⟩)

end RelativeName

/-- A name: relative names from the root of the directory down. -/
structure Name where
  path : List RelativeName
deriving DecidableEq, Repr

namespace Name

def element (n : Name) : Der.Element := .sequence (n.path.map (·.element))

def ofElement? (e : Der.Element) : Option Name := do
  some ⟨← (← e.sequence?).mapM RelativeName.ofElement?⟩

def encode (n : Name) : Bytes := n.element.encode

def decode? (b : Bytes) : Option Name := (Der.Element.ofBytes? b).bind ofElement?

def attributes (n : Name) : List Attribute := n.path.flatMap (·.attributes)

end Name

end CertAuthority
