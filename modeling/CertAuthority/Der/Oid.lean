import CertAuthority.Der.Element
import CertAuthority.Text.Numeral

namespace CertAuthority

namespace Oid

def maxSize : Nat := 39

/-- Whether octets hold three arcs or more, the last one whole. -/
def isSound (b : Bytes) : Bool :=
  2 ≤ b.length && b.length ≤ maxSize && b.head?.any (· < 120) && b.getLast?.any (· < 0x80)

end Oid

/-- An object identifier, by the content octets of its encoding. -/
structure Oid where
  content : Bytes
  sound : Oid.isSound content = true
deriving DecidableEq, Repr

namespace Oid

def ofSound? (b : Bytes) : Option Oid := if h : isSound b = true then some ⟨b, h⟩ else none

/-- Whether arcs are whole and short enough to be read, given how many octets of the current arc
stand before them. An arc has at most five octets, and a fifth one brings at most four bits. -/
def arcsFit : Nat → Bytes → Bool
  | k, [] => k == 0
  | k, x :: rest =>
    if 4 ≤ k ∧ x &&& 0xf0 ≠ 0 then false
    else if x < 0x80 then arcsFit 0 rest
    else arcsFit (k + 1) rest

def minReadSize : Nat := 3

def ofContent? (b : Bytes) : Option Oid :=
  if minReadSize ≤ b.length ∧ arcsFit 0 (b.drop 1) then ofSound? b else none

/-- The arcs behind the first two, given the value of the octets of the current arc that stand
before them. The high bits of an arc beyond 32 are lost. -/
def arcsFrom : Nat → Bytes → List Nat
  | _, [] => []
  | value, x :: rest =>
    let value := value * 128 + x.toNat % 128
    if x < 0x80 then value % UInt32.size :: arcsFrom 0 rest else arcsFrom value rest

def arcs (o : Oid) : List Nat :=
  match o.content with
  | [] => []
  | x :: rest => x.toNat / 40 :: x.toNat % 40 :: arcsFrom 0 rest

/-- Whether the arcs of an identifier are short enough to be told. Those of one that was read are,
those of one that was made from arcs may not be. -/
def isLegible (o : Oid) : Bool := arcsFit 0 (o.content.drop 1)

def dotted (o : Oid) : String := ".".intercalate (o.arcs.map Numeral.decimal)

/-- How many octets are kept for an arc in front of its last one. Four octets are kept for arcs
of 29 bits, though they have room for 28. -/
def highSize (arc : Nat) : Nat :=
  if arc < 0x80 then 0
  else if arc < 0x4000 then 1
  else if arc < 0x200000 then 2
  else if arc < 0x20000000 then 3
  else 4

/-- Puts a number into the octets kept for it, the last one first, given how many stand in front
of that one and the mark that it bears. What is no more than 128 goes into the first octet, and
the octets passed over are zero. A number that is not used up has no place. -/
def fill? : Nat → Nat → UInt8 → Option Bytes
  | room, n, mark =>
    if n ≤ 0x80 then some ((UInt8.ofNat n ||| mark) :: List.replicate room 0)
    else
      match room with
      | 0 => none
      | room + 1 => (fill? room (n / 128) 0x80).map (· ++ [UInt8.ofNat (n % 128) ||| mark])

def encodeArc? (arc : Nat) : Option Bytes := fill? (highSize arc) arc 0

/-- The content octets of arcs. The most octets that can be read are too many to be written. -/
def encodeArcs? : List Nat → Option Bytes
  | a :: b :: rest =>
    if a ≤ 2 ∧ b ≤ 39 then do
      let content := UInt8.ofNat (a * 40 + b) :: (← rest.mapM encodeArc?).flatten
      if content.length < maxSize then some content else none
    else none
  | _ => none

def ofArcs? (arcs : List Nat) : Option Oid := (encodeArcs? arcs).bind ofSound?

def ofArcs (arcs : List Nat) (known : (ofArcs? arcs).isSome = true := by decide) : Oid :=
  (ofArcs? arcs).get known

def element (o : Oid) : Der.Element := ⟨Der.Tag.oid, o.content⟩

def ofElement? (e : Der.Element) : Option Oid := (e.content? Der.Tag.oid).bind ofContent?

end Oid

end CertAuthority
