import CertAuthority.Bytes
import CertAuthority.Text.Numeral

namespace CertAuthority.Json

/-- A number by its digits. The fraction is empty where there is no point. -/
structure Number where
  negative : Bool
  whole : List Char
  fraction : List Char
  /-- Whether the exponent is negative, and its digits. -/
  exponent : Option (Bool × List Char)
deriving DecidableEq, Repr

def digitsValue (ds : List Char) : Nat := (Numeral.ofDigits? 10 ds).getD 0

namespace Number

def power (n : Number) : Int :=
  match n.exponent with
  | none => 0
  | some (negative, ds) => if negative then -digitsValue ds else digitsValue ds

/-- Appends decimal digits to a significand as long as there is room in 64 bits. Gives the
significand and the digits left over. -/
def append : Nat → List Char → Nat × List Char
  | s, [] => (s, [])
  | s, d :: ds =>
    let longer := s * 10 + digitsValue [d]
    if longer < UInt64.size then append longer ds else (s, d :: ds)

/-- The significand of a number and the power of ten that it is multiplied with. Each digit of
the whole part that is left over counts for a factor of ten. -/
def scaled (n : Number) : Nat × Int :=
  let (s, dropped) := append 0 n.whole
  let (s, left) := append s n.fraction
  (s, n.power + dropped.length - (n.fraction.length - left.length : Nat))

/-- How many significant bits a double has. -/
def precision : Nat := 53

/-- The nearest number with no more significant bits than a double has. Of two that are equally
near it is the one whose last bit is zero. -/
def round (n : Nat) : Nat :=
  let unit := 1 <<< (bitLength n - precision)
  let low := n / unit
  let rest := 2 * (n % unit)
  (if unit < rest ∨ rest = unit ∧ low % 2 = 1 then low + 1 else low) * unit

def maxPower : Nat := 308

def inRange (n : Number) : Bool :=
  let (s, power) := n.scaled
  if s = 0 ∨ power ≤ 0 then true
  else if maxPower < power then false
  else round (round s * round (Nat.pow 10 power.toNat)) < 1 <<< 1024

end Number

end CertAuthority.Json
