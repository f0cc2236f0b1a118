import CertAuthority.Extension.Basic

namespace CertAuthority

structure KeyUsage where
  digitalSignature : Bool := false
  nonRepudiation : Bool := false
  keyEncipherment : Bool := false
  dataEncipherment : Bool := false
  keyAgreement : Bool := false
  keyCertSign : Bool := false
  crlSign : Bool := false
  encipherOnly : Bool := false
  decipherOnly : Bool := false
deriving DecidableEq, Repr

namespace KeyUsage

def none : KeyUsage := {}

def bits (u : KeyUsage) : List Bool :=
  [u.digitalSignature, u.nonRepudiation, u.keyEncipherment, u.dataEncipherment, u.keyAgreement,
    u.keyCertSign, u.crlSign, u.encipherOnly, u.decipherOnly]

/-- The uses that bits stand for; missing bits are clear. -/
def ofBits (bits : List Bool) : KeyUsage :=
  let bit (i : Nat) : Bool := bits[i]?.getD false
  ⟨bit 0, bit 1, bit 2, bit 3, bit 4, bit 5, bit 6, bit 7, bit 8⟩

def useNames : List String :=
  ["DigitalSignature", "NonRepudiation", "KeyEncipherment", "DataEncipherment", "KeyAgreement",
    "KeyCertSign", "CRLSign", "EncipherOnly", "DecipherOnly"]

def names (u : KeyUsage) : List String := ((useNames.zip u.bits).filter (·.2)).map (·.1)

def isEmpty (u : KeyUsage) : Bool := u.bits.all (!·)

def maxBits : Nat := 16

/-- An octet of up to eight bits, the first one on top. -/
def packOctet (bits : List Bool) : UInt8 :=
  let values := (List.range 8).map fun i => if bits[i]?.getD false then 1 <<< (7 - i) else 0
  UInt8.ofNat (values.foldr (· + ·) 0)

/-- The bit string of bits, with clear bits behind the last one. -/
def pack (bits : List Bool) : Der.BitString :=
  ⟨UInt8.ofNat ((8 - bits.length % 8) % 8),
    (List.range ((bits.length + 7) / 8)).map fun i => packOctet (bits.drop (8 * i))⟩

/-- The bits up to the last one that is set. -/
def trimmed (u : KeyUsage) : List Bool := (u.bits.reverse.dropWhile (!·)).reverse

def toBitString (u : KeyUsage) : Der.BitString := pack u.trimmed

def ofBitString? (s : Der.BitString) : Option KeyUsage :=
  if s.bits.length ≤ maxBits then some (ofBits s.bits) else Option.none

instance : ExtensionValue KeyUsage where
  oid := .ofArcs [2, 5, 29, 15]
  element u := .ok u.toBitString.element
  ofElement? e := (Der.BitString.ofElement? e).bind ofBitString?

end KeyUsage

end CertAuthority
