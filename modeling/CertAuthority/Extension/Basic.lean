import CertAuthority.Der.Oid
import CertAuthority.Der.Primitive
import CertAuthority.Fault

namespace CertAuthority

structure Extension where
  oid : Oid
  critical : Bool
  value : Bytes
deriving DecidableEq, Repr

/-- Values of one kind of extension, and the element that such a value is written as. -/
class ExtensionValue (α : Type) where
  oid : Oid
  element : α → Except Fault Der.Element
  ofElement? : Der.Element → Option α

namespace ExtensionValue

def encode {α : Type} [ExtensionValue α] (value : α) : Except Fault Bytes := do
  withinLimit (← element value).encode

def decode (α : Type) [ExtensionValue α] (b : Bytes) : Except Fault α :=
  orMalformed ((Der.Element.ofBytes? b).bind ofElement?)

end ExtensionValue

namespace Extension

def ofValue {α : Type} [ExtensionValue α] (value : α) (critical : Bool) : Except Fault Extension :=
  (ExtensionValue.encode value).map fun b => ⟨ExtensionValue.oid α, critical, b⟩

/-- The value of an extension, whatever its identifier. -/
def decode (α : Type) [ExtensionValue α] (e : Extension) : Except Fault α :=
  ExtensionValue.decode α e.value

/-- The value of the first extension of a kind. -/
def find (α : Type) [ExtensionValue α] (es : List Extension) : Except Fault (Option α) :=
  match es.find? (·.oid = ExtensionValue.oid α) with
  | none => .ok none
  | some e => (e.decode α).map some

/-- The extension as a SEQUENCE. The mark of a critical one is left out of the others. -/
def element (e : Extension) : Der.Element :=
  .sequence (e.oid.element :: (if e.critical then [.boolean true] else []) ++ [.octets e.value])

def ofElement? (e : Der.Element) : Option Extension := do
  match ← e.sequence? with
  | [oid, value] => some ⟨← Oid.ofElement? oid, false, ← value.octets?⟩
  | [oid, critical, value] => some ⟨← Oid.ofElement? oid, ← critical.boolean?, ← value.octets?⟩
  | _ => none

def elements (es : List Extension) : Der.Element := .sequence (es.map (·.element))

def ofElements? (e : Der.Element) : Option (List Extension) := do (← e.sequence?).mapM ofElement?

end Extension

end CertAuthority
