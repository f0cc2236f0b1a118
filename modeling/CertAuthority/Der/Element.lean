import CertAuthority.Bytes

namespace CertAuthority.Der

def lengthLimit : Nat := 0x0fffffff

/-- The shortest form of a length: one octet below 128, else a count of octets and the octets. -/
def encodeLength (n : Nat) : Bytes :=
  if n < 0x80 then [UInt8.ofNat n]
  else UInt8.ofNat (0x80 + (natBytes n).length) :: natBytes n

/-- Reads a length in its shortest form. -/
def readLength : Bytes → Option (Nat × Bytes)
  | [] => none
  | x :: rest =>
    if x < 0x80 then some (x.toNat, rest)
    else
      let octets := rest.take (x.toNat - 0x80)
      let n := beNat octets
      if n ≤ lengthLimit ∧ encodeLength n = x :: octets then
        some (n, rest.drop (x.toNat - 0x80))
      else none

namespace Tag

def boolean : UInt8 := 0x01
def integer : UInt8 := 0x02
def bitString : UInt8 := 0x03
def octetString : UInt8 := 0x04
def null : UInt8 := 0x05
def oid : UInt8 := 0x06
def utf8String : UInt8 := 0x0c
def printableString : UInt8 := 0x13
def teletexString : UInt8 := 0x14
def utcTime : UInt8 := 0x17
def generalizedTime : UInt8 := 0x18
def sequence : UInt8 := 0x30
def set : UInt8 := 0x31

def context (number : UInt8) : UInt8 := 0x80 + number

def contextConstructed (number : UInt8) : UInt8 := 0xa0 + number

def universal : List UInt8 :=
  [0x01, 0x02, 0x03, 0x04, 0x05, 0x06, 0x09, 0x0a, 0x0c, 0x12, 0x13, 0x14, 0x15, 0x16, 0x17, 0x18,
    0x1a, 0x1e, 0x30, 0x31]

/-- Whether a tag is understood: a universal one of the list, or one of the other three
classes with its number in the same octet. -/
def isKnown (tag : UInt8) : Bool :=
  if tag < 0x40 then universal.contains tag else tag &&& 0x1f != 0x1f

def isContext (tag : UInt8) : Bool := 0x80 ≤ tag && tag < 0xc0

def number (tag : UInt8) : UInt8 := tag &&& 0x1f

def isConstructed (tag : UInt8) : Bool := tag &&& 0x20 != 0

end Tag

/-- A tag and the content octets under it. -/
structure Element where
  tag : UInt8
  content : Bytes
deriving DecidableEq, Repr

namespace Element

def encode (e : Element) : Bytes := e.tag :: (encodeLength e.content.length ++ e.content)

def encodeAll (es : List Element) : Bytes := es.flatMap encode

def read : Bytes → Option (Element × Bytes)
  | [] => none
  | tag :: b =>
    if Tag.isKnown tag then
      match readLength b with
      | none => none
      | some (n, rest) =>
        if n ≤ rest.length then some (⟨tag, rest.take n⟩, rest.drop n) else none
    else none

theorem readLength_length {b rest : Bytes} {n : Nat} (h : readLength b = some (n, rest)) :
    rest.length < b.length := by
  cases b with
  | nil => simp [readLength] at h
  | cons x r =>
    simp only [readLength] at h
    split at h
    · cases h; simp
    · split at h
      · simp only [Option.some.injEq, Prod.mk.injEq] at h
        obtain ⟨-, rfl⟩ := h
        simp only [List.length_drop, List.length_cons]
        omega
      · cases h

theorem read_length {b rest : Bytes} {e : Element} (h : read b = some (e, rest)) :
    rest.length < b.length := by
  cases b with
  | nil => simp [read] at h
  | cons tag r =>
    simp only [read] at h
    split at h
    · split at h
      · cases h
      · rename_i n rest' hl
        have := readLength_length hl
        split at h
        · cases h; simp; omega
        · cases h
    · cases h

def readAll (b : Bytes) : Option (List Element) :=
  if b.isEmpty then some []
  else
    match h : read b with
    | none => none
    | some (e, rest) =>
      have := read_length h
      (readAll rest).map (e :: ·)
termination_by b.length

/-- The element that a byte string is, with nothing after it. -/
def ofBytes? (b : Bytes) : Option Element :=
  match read b with
  | some (e, []) => some e
  | _ => none

def children? (tag : UInt8) (e : Element) : Option (List Element) :=
  if e.tag = tag then readAll e.content else none

def content? (tag : UInt8) (e : Element) : Option Bytes :=
  if e.tag = tag then some e.content else none

def sequence (es : List Element) : Element := ⟨Tag.sequence, encodeAll es⟩

def sequence? (e : Element) : Option (List Element) := e.children? Tag.sequence

def explicit (number : UInt8) (e : Element) : Element :=
  ⟨Tag.contextConstructed number, e.encode⟩

def only? (e : Element) : Option Element :=
  if Tag.isConstructed e.tag then ofBytes? e.content else none

def explicit? (number : UInt8) (e : Element) : Option Element :=
  (e.content? (Tag.contextConstructed number)).bind ofBytes?

end Element

/-- Takes the optional field with a context-specific number off the front of the fields of a
SEQUENCE. Fields with a smaller number that were not asked for are passed over. -/
def takeContext (number : UInt8) : List Element → Option Element × List Element
  | [] => (none, [])
  | e :: es =>
    if Tag.isContext e.tag then
      if Tag.number e.tag = number then (some e, es)
      else if Tag.number e.tag < number then takeContext number es
      else (none, e :: es)
    else (none, e :: es)

/-- Whether an encoding stays within the limit on lengths. -/
def fits (b : Bytes) : Bool := b.length ≤ lengthLimit

end CertAuthority.Der
