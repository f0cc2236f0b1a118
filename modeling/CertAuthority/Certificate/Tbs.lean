import CertAuthority.Calendar.Time
import CertAuthority.Extension.Basic
import CertAuthority.Key.Spki
import CertAuthority.Name
import CertAuthority.SerialNumber

namespace CertAuthority

/-- The version of a certificate. -/
inductive Version
  | v1
  | v2
  | v3
deriving DecidableEq, Repr

namespace Version

def number : Version → Nat
  | v1 => 0
  | v2 => 1
  | v3 => 2

def ofNumber? : Nat → Option Version
  | 0 => some v1
  | 1 => some v2
  | 2 => some v3
  | _ => none

/-- The field of a version; the first one is the default. -/
def field (v : Version) : List Der.Element :=
  if v = v1 then [] else [.explicit 0 (.integer v.number)]

def ofField? : Option Der.Element → Option Version
  | none => some v1
  | some e => do ofNumber? (← (← e.only?).natural?)

end Version

structure TbsCertificate where
  version : Version
  /-- The content octets of the serial number. -/
  serial : Bytes
  algorithm : AlgorithmIdentifier
  issuer : Name
  notBefore : Time
  notAfter : Time
  subject : Name
  publicKeyInfo : SubjectPublicKeyInfo
  issuerUniqueId : Option Der.BitString
  subjectUniqueId : Option Der.BitString
  extensions : Option (List Extension)
deriving DecidableEq, Repr

namespace TbsCertificate

/-- A unique identifier under a context-specific tag of its own. -/
def uniqueField (number : UInt8) (id : Der.BitString) : Der.Element :=
  ⟨Der.Tag.context number, id.content⟩

def uniqueId? (number : UInt8) (e : Der.Element) : Option Der.BitString :=
  (e.content? (Der.Tag.context number)).bind Der.BitString.ofContent?

/-- The span in which the certificate is good. -/
def validityElement (t : TbsCertificate) : Der.Element :=
  .sequence [t.notBefore.element, t.notAfter.element]

/-- Reads the span in which a certificate is good. -/
def validity? (e : Der.Element) : Option (Time × Time) := do
  match ← e.sequence? with
  | [first, last] => some (← Time.ofElement? first, ← Time.ofElement? last)
  | _ => none

def element (t : TbsCertificate) : Der.Element :=
  .sequence (t.version.field
    ++ [⟨Der.Tag.integer, t.serial⟩, t.algorithm.element, t.issuer.element, t.validityElement,
      t.subject.element, t.publicKeyInfo.element]
    ++ t.issuerUniqueId.toList.map (uniqueField 1) ++ t.subjectUniqueId.toList.map (uniqueField 2)
    ++ t.extensions.toList.map fun es => .explicit 3 (Extension.elements es))

def ofElement? (e : Der.Element) : Option TbsCertificate := do
  let (version, fields) := Der.takeContext 0 (← e.sequence?)
  match fields with
  | serial :: algorithm :: issuer :: validity :: subject :: key :: rest =>
    let (issuerId, rest) := Der.takeContext 1 rest
    let (subjectId, rest) := Der.takeContext 2 rest
    let (extensions, rest) := Der.takeContext 3 rest
    let (notBefore, notAfter) ← validity? validity
    let t : TbsCertificate := {
      version := ← Version.ofField? version
      serial := ← SerialNumber.content? serial
      algorithm := ← AlgorithmIdentifier.ofElement? algorithm
      issuer := ← Name.ofElement? issuer
      notBefore
      notAfter
      subject := ← Name.ofElement? subject
      publicKeyInfo := ← SubjectPublicKeyInfo.ofElement? key
      issuerUniqueId := ← issuerId.mapM (uniqueId? 1)
      subjectUniqueId := ← subjectId.mapM (uniqueId? 2)
      extensions := ← extensions.mapM fun e => do Extension.ofElements? (← e.only?) }
    if rest = [] then some t else none
  | _ => none

def encode (t : TbsCertificate) : Bytes := t.element.encode

end TbsCertificate

/-- A certificate as it is encoded: the signed fields, an algorithm and a signature. -/
structure SignedCertificate where
  tbs : TbsCertificate
  algorithm : AlgorithmIdentifier
  signature : Der.BitString
deriving DecidableEq, Repr

namespace SignedCertificate

def element (c : SignedCertificate) : Der.Element :=
  .sequence [c.tbs.element, c.algorithm.element, c.signature.element]

def ofElement? (e : Der.Element) : Option SignedCertificate := do
  match ← e.sequence? with
  | [tbs, algorithm, signature] =>
    some ⟨← TbsCertificate.ofElement? tbs, ← AlgorithmIdentifier.ofElement? algorithm,
      ← Der.BitString.ofElement? signature⟩
  | _ => none

def encode (c : SignedCertificate) : Bytes := c.element.encode

def decode? (b : Bytes) : Option SignedCertificate := (Der.Element.ofBytes? b).bind ofElement?

end SignedCertificate

end CertAuthority
