import CertAuthority.Der.Element

namespace CertAuthority.Der

/-- The content octets of a number: shortest two's complement, so a zero octet stands in front
of a set top bit. -/
def integerContent (n : Nat) : Bytes :=
  match natBytes n with
  | [] => [0]
  | x :: rest => if x < 0x80 then x :: rest else 0 :: x :: rest

def ofIntegerContent? (b : Bytes) : Option Nat :=
  if integerContent (beNat b) = b then some (beNat b) else none

/-- Whether octets are the shortest two's complement form of some integer of either sign. -/
def isIntegerContent : Bytes → Bool
  | [] => false
  | [_] => true
  | x :: y :: _ => !(x = 0 && y < 0x80) && !(x = 0xff && 0x80 ≤ y)

namespace Element

def integer (n : Nat) : Element := ⟨Tag.integer, integerContent n⟩

/-- Reads an INTEGER that is not negative. -/
def natural? (e : Element) : Option Nat := (e.content? Tag.integer).bind ofIntegerContent?

def boolean (b : Bool) : Element := ⟨Tag.boolean, [if b then 0xff else 0]⟩

/-- Reads a BOOLEAN: one octet, all bits clear or all bits set. -/
def boolean? (e : Element) : Option Bool :=
  match e.content? Tag.boolean with
  | some [0x00] => some false
  | some [0xff] => some true
  | _ => none

def null : Element := ⟨Tag.null, []⟩

def octets (b : Bytes) : Element := ⟨Tag.octetString, b⟩

def octets? (e : Element) : Option Bytes := e.content? Tag.octetString

end Element

/-- A bit string: octets and how many bits of the last one are not part of it. -/
structure BitString where
  unused : UInt8
  octets : Bytes
deriving DecidableEq, Repr

namespace BitString

def ofOctets (b : Bytes) : BitString := ⟨0, b⟩

/-- The octets of a bit string that has only whole ones. -/
def octets? (s : BitString) : Option Bytes := if s.unused = 0 then some s.octets else none

def content (s : BitString) : Bytes := s.unused :: s.octets

/-- Reads content octets: at most seven unused bits, and none where there is no octet. -/
def ofContent? : Bytes → Option BitString
  | [] => none
  | u :: b => if u ≤ 7 ∧ (u = 0 ∨ b ≠ []) then some ⟨u, b⟩ else none

def element (s : BitString) : Element := ⟨Tag.bitString, s.content⟩

def ofElement? (e : Element) : Option BitString := (e.content? Tag.bitString).bind ofContent?

/-- The bits from the first octet's top bit on. -/
def bits (s : BitString) : List Bool :=
  (s.octets.flatMap fun x => (List.range 8).map fun i => x.toNat.testBit (7 - i)).take
    (s.octets.length * 8 - s.unused.toNat)

end BitString

def utf8Text? (b : Bytes) : Option String := String.fromUTF8? ⟨b.toArray⟩

def utf8 (s : String) : Bytes := s.toUTF8.data.toList

def isPrintable (x : UInt8) : Bool :=
  let c := Char.ofNat x.toNat
  c.isAlphanum || " '()+,-./:=?".contains c

/-- Whether all octets are ASCII, as an IA5String needs. -/
def isAscii (b : Bytes) : Bool := b.all (· < 0x80)

end CertAuthority.Der
