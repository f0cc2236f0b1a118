import CertAuthority.Der.Primitive
import CertAuthority.Random

namespace CertAuthority

abbrev SerialNumber := Nat

namespace SerialNumber

def randomBits : Nat := 128

def maxDraws : Nat := 8

/-- The number that digits of a base spell, with underscores anywhere behind the first digit. -/
def ofDigits? (base : Nat) (cs : List Char) : Option Nat :=
  match cs with
  | [] => none
  | '_' :: _ => none
  | cs => Numeral.ofDigits? base (cs.filter (· ≠ '_'))

/-- Reads a serial number in a base from 2 to 36; a plus sign may stand in front. -/
def parse (text : String) (base : Nat) : Except Fault SerialNumber :=
  if text.toList.isEmpty then .error (.input .emptySerial)
  else if base < 2 ∨ 36 < base then .error (.input (.radix base))
  else
    let digits := match text.toList with
      | '+' :: rest => rest
      | cs => cs
    match ofDigits? base digits with
    | some n => .ok n
    | none => .error (.input (.serial text))

def maxSize : Nat := 20

def maxReadSize : Nat := 21

/-- The content octets of the INTEGER for a serial number, at most 20 of them. -/
def toContent (n : SerialNumber) : Except Fault Bytes :=
  if (Der.integerContent n).length ≤ maxSize then .ok (Der.integerContent n)
  else .error (.encoding (.serial n))

def content? (e : Der.Element) : Option Bytes :=
  match e.content? Der.Tag.integer with
  | some b => if Der.isIntegerContent b ∧ b.length ≤ maxReadSize then some b else none
  | none => none

def ofContent (b : Bytes) : SerialNumber := beNat b

/-- The magnitude in bytes; zero is one zero byte. -/
def toBytes (n : SerialNumber) : Bytes := if n = 0 then [0] else natBytes n

/-- Draws until a number is not zero, at most `k` times. -/
def generateWithin {m : Type → Type} [Monad m] (source : RandomSource m) :
    Nat → ExceptT Fault m SerialNumber
  | 0 => throw (.entropy (.zeros maxDraws))
  | k + 1 => do
    let n ← source.draw (1 <<< randomBits)
    if n = 0 then generateWithin source k else pure n

/-- A fresh serial number of at most 128 bits that is not zero. -/
def generate {m : Type → Type} [Monad m] (source : RandomSource m) : ExceptT Fault m SerialNumber :=
  generateWithin source maxDraws

end SerialNumber

end CertAuthority
