import CertAuthority.Fault
import CertAuthority.Text.Blank

namespace CertAuthority

namespace Text

def hasDouble (c : Char) : List Char → Bool
  | x :: y :: rest => (x = c && y = c) || hasDouble c (y :: rest)
  | _ => false

/-- Whether the first or the last character satisfies a test. -/
def hasOuter (p : Char → Bool) (cs : List Char) : Bool := cs.head?.any p || cs.getLast?.any p

def isNameChar (c : Char) : Bool :=
  c.isAlphanum || c = '_' || c = '-' || c = '.' || c = ' '

def isClientNameChar (c : Char) : Bool := isNameChar c || c = '@'

def isSlugChar (c : Char) : Bool := c.isLower || c.isDigit || c = '-' || c = '.'

/-- Whether decimal digits, with a sign or without, spell a signed 64-bit number. -/
def isMachineInteger (cs : List Char) : Bool :=
  match cs with
  | '-' :: ds => (magnitude? ds).any (· ≤ 1 <<< 63)
  | '+' :: ds => (magnitude? ds).any (· < 1 <<< 63)
  | ds => (magnitude? ds).any (· < 1 <<< 63)
where
  /-- The number that decimal digits spell. -/
  magnitude? (ds : List Char) : Option Nat := Numeral.ofDigits? 10 ds

/-- The number of bytes that characters take in UTF-8. -/
def byteSize (cs : List Char) : Nat := (cs.map Char.utf8Size).foldr (· + ·) 0

/-- What stands behind the last dot. -/
def lastLabel (cs : List Char) : List Char := (cs.reverse.takeWhile (· ≠ '.')).reverse

/-- A DNS name without a wildcard label in front. -/
def withoutWildcard : List Char → List Char
  | '*' :: '.' :: rest => rest
  | cs => cs

end Text

open Text

namespace Field

/-- What names of people and machines must not do with spaces. -/
def spacing (cs : List Char) : List (Bool × Rule) :=
  [(cs.isEmpty, .empty), (hasOuter (· = ' ') cs, .outerSpace), (hasDouble ' ' cs, .doubleSpace)]

/-- For each rule of a field, in order, whether a text breaks it. -/
def checks : Field → List Char → List (Bool × Rule)
  | caCommonName, cs =>
    spacing cs ++ [(cs.all Char.isDigit, .number), (!cs.all isNameChar, .characters)]
  | clientCommonName, cs => spacing cs ++ [(!cs.all isClientNameChar, .characters)]
  | dnsName, cs =>
    let name := withoutWildcard cs
    [(name.isEmpty, .empty), (hasOuter (fun c => c = '-' || c = '.') name, .outerDashOrDot),
      (hasDouble '.' name, .doubleDot), (!name.all isSlugChar, .characters),
      ((lastLabel name).length < 2, .shortLastLabel)]
  | organizationId, cs =>
    [(byteSize cs < 2, .short), (isMachineInteger cs, .number), (cs.any Char.isUpper, .uppercase),
      (!cs.all isSlugChar || hasOuter (fun c => c = ' ' || c = '-' || c = '.') cs, .slug)]
  | organizationName, cs =>
    (decide (byteSize (trimWhile isBlank cs) < 2), .short) :: spacing cs
      ++ [(isMachineInteger cs, .number), (!cs.all isNameChar, .characters)]

/-- The first rule that a text breaks. -/
def brokenRule? (f : Field) (s : String) : Option Rule :=
  ((f.checks s.toList).find? (·.1)).map (·.2)

/-- Refuses a text that breaks a rule of the field. -/
def check (f : Field) (s : String) : Except Fault Unit :=
  match f.brokenRule? s with
  | none => .ok ()
  | some r => .error (.input (.rule f s r))

/-- Refuses texts of which one breaks a rule of the field, for the first such text. -/
def checkAll (f : Field) : List String → Except Fault Unit
  | [] => .ok ()
  | s :: rest =>
    match f.check s with
    | .ok () => checkAll f rest
    | .error e => .error e

end Field

end CertAuthority
