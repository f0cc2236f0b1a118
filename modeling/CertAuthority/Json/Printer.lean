import CertAuthority.Json.Basic

namespace CertAuthority.Json

/-- A UTF-16 unit in four hexadecimal digits behind a backslash. -/
def escapeUnit (n : Nat) : List Char :=
  let ds := Numeral.digits 16 n
  '\\' :: 'u' :: (List.replicate (4 - ds.length) '0' ++ ds)

/-- A character inside a string. Quotes, backslashes and control characters are escaped. -/
def escape (c : Char) : List Char :=
  if c = '"' then ['\\', '"']
  else if c = '\\' then ['\\', '\\']
  else if c = '\x08' then ['\\', 'b']
  else if c = '\x0c' then ['\\', 'f']
  else if c = '\n' then ['\\', 'n']
  else if c = '\r' then ['\\', 'r']
  else if c = '\t' then ['\\', 't']
  else if c < ' ' then escapeUnit c.toNat
  else [c]

def renderPiece : Piece → List Char
  | .char c => escape c
  | .unit n => escapeUnit n

def renderString (pieces : List Piece) : List Char := '"' :: (pieces.flatMap renderPiece ++ ['"'])

def renderSign (negative : Bool) : List Char := if negative then ['-'] else []

def renderNumber (n : Number) : List Char :=
  renderSign n.negative ++ n.whole ++ (if n.fraction.isEmpty then [] else '.' :: n.fraction)
    ++ match n.exponent with
      | none => []
      | some (negative, ds) => 'e' :: (renderSign negative ++ ds)

def newLine (level : Nat) : List Char := '\n' :: List.replicate (2 * level) ' '

mutual

def renderAt : Nat → Json → List Char
  | _, null => ['n', 'u', 'l', 'l']
  | _, bool true => ['t', 'r', 'u', 'e']
  | _, bool false => ['f', 'a', 'l', 's', 'e']
  | _, number n => renderNumber n
  | _, string pieces => renderString pieces
  | _, array [] => ['[', ']']
  | level, array (j :: rest) =>
    '[' :: (newLine (level + 1) ++ renderAt (level + 1) j ++ renderItems (level + 1) rest
      ++ newLine level ++ [']'])
  | _, object [] => ['\x7b', '\x7d']
  | level, object ((key, j) :: rest) =>
    '\x7b' :: (newLine (level + 1) ++ renderString key ++ [':', ' '] ++ renderAt (level + 1) j
      ++ renderMembers (level + 1) rest ++ newLine level ++ ['\x7d'])

/-- Items of an array behind the first one. -/
def renderItems : Nat → List Json → List Char
  | _, [] => []
  | level, j :: rest => ',' :: (newLine level ++ renderAt level j ++ renderItems level rest)

/-- Members of an object behind the first one. -/
def renderMembers : Nat → List (List Piece × Json) → List Char
  | _, [] => []
  | level, (key, j) :: rest =>
    ',' :: (newLine level ++ renderString key ++ [':', ' '] ++ renderAt level j
      ++ renderMembers level rest)

end

def render (j : Json) : String := String.ofList (renderAt 0 j)

end CertAuthority.Json
