import CertAuthority.Certificate.Basic

namespace CertAuthority

/-- What a certificate is to say. -/
structure Template where
  serial : SerialNumber
  subject : DistinguishedName
  validity : Validity
  /-- Left out of the certificate when it is empty. -/
  keyUsage : KeyUsage := .none
  /-- Left out of the certificate when there is none. -/
  purposes : List Purpose := []
  /-- Whether the certificate has basic constraints. -/
  constrained : Bool := false
  isCa : Bool := false
  maxPathLength : Option UInt8 := none
  /-- Left out of the certificate when there is none. -/
  dnsNames : List String := []
  /-- Further extensions, as they are. -/
  extensions : List Extension := []
deriving DecidableEq, Repr

namespace Template

/-- The basic constraints, if the certificate has any. -/
def basicConstraints (t : Template) : Option BasicConstraints :=
  if t.constrained then some ⟨t.isCa, t.maxPathLength⟩ else none

/-- The extension of a value, or none where there is no value. -/
def optional {α : Type} [ExtensionValue α] (value : Option α) (critical : Bool) :
    Except Fault (List Extension) :=
  match value with
  | none => .ok []
  | some a => (Extension.ofValue a critical).map ([·])

/-- A value, if it is wanted. -/
def when {α : Type} (wanted : Bool) (value : α) : Option α := if wanted then some value else none

/-- The extensions of a certificate for a subject's key, signed by a key with an identifier or
without. -/
def toExtensions (t : Template) (subjectKeyId : Bytes) (authorityKeyId : Option Bytes) :
    Except Fault (List Extension) := do
  let constraints ← optional t.basicConstraints true
  let usage ← optional (when (!t.keyUsage.isEmpty) t.keyUsage) true
  let purposes ← optional (when (!t.purposes.isEmpty) (ExtendedKeyUsage.mk t.purposes)) false
  let names ← optional (when (!t.dnsNames.isEmpty) (SubjectAltName.mk t.dnsNames)) false
  let subject ← optional (some (SubjectKeyIdentifier.mk subjectKeyId)) false
  let authority ← optional (authorityKeyId.map AuthorityKeyIdentifier.mk) false
  return constraints ++ usage ++ purposes ++ names ++ subject ++ authority ++ t.extensions

end Template

end CertAuthority
