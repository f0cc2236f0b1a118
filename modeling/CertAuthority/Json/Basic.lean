import CertAuthority.Json.Number

namespace CertAuthority.Json

/-- A part of a string: a character, or an escaped UTF-16 unit. -/
inductive Piece
  | char (c : Char)
  | unit (n : Nat)
deriving DecidableEq, Repr

end Json

open Json in
inductive Json
  | null
  | bool (b : Bool)
  | number (n : Number)
  | string (pieces : List Piece)
  | array (items : List Json)
  | object (members : List (List Piece × Json))
deriving Repr

namespace Json

/-- Whether a UTF-16 unit is the first half of a pair. -/
def isHigh (n : Nat) : Bool := 0xd800 ≤ n && n < 0xdc00

/-- Whether a UTF-16 unit is the second half of a pair. -/
def isLow (n : Nat) : Bool := 0xdc00 ≤ n && n < 0xe000

/-- The characters that the parts of a string stand for, if no half of a pair stands alone. -/
def decode? : List Piece → Option (List Char)
  | [] => some []
  | .char c :: rest => (decode? rest).map (c :: ·)
  | .unit n :: rest =>
    if isHigh n then
      match rest with
      | .unit k :: rest =>
        if isLow k then
          (decode? rest).map (Char.ofNat (0x10000 + (n - 0xd800) * 0x400 + (k - 0xdc00)) :: ·)
        else none
      | _ => none
    else if isLow n then none
    else (decode? rest).map (Char.ofNat n :: ·)

def textOf? (pieces : List Piece) : Option String := (decode? pieces).map String.ofList

def text? : Json → Option String
  | string pieces => textOf? pieces
  | _ => none

def pieces (s : String) : List Piece := s.toList.map .char

def ofText (s : String) : Json := string (pieces s)

def ofInt (i : Int) : Json := number ⟨decide (i < 0), Numeral.digits 10 i.natAbs, [], none⟩

/-- The integer that a number without fraction and exponent stands for. A zero with a minus sign
is none. -/
def int? : Json → Option Int
  | number ⟨negative, whole, [], none⟩ =>
    let n := digitsValue whole
    if negative then if n = 0 then none else some (-n) else some n
  | _ => none

mutual

/-- Whether all strings in a value stand for texts, all numbers are in range and no more than a
number of arrays and objects lie inside each other. -/
def isProper : Nat → Json → Bool
  | _, null => true
  | _, bool _ => true
  | _, number n => n.inRange
  | _, string pieces => (decode? pieces).isSome
  | 0, array _ => false
  | 0, object _ => false
  | depth + 1, array items => areProper depth items
  | depth + 1, object members => areProperMembers depth members

def areProper : Nat → List Json → Bool
  | _, [] => true
  | depth, j :: rest => isProper depth j && areProper depth rest

def areProperMembers : Nat → List (List Piece × Json) → Bool
  | _, [] => true
  | depth, (key, j) :: rest =>
    (decode? key).isSome && isProper depth j && areProperMembers depth rest

end

/-- The values of named fields: those of an object by their names, which may be there once, or
those of an array by their places. Other members of an object are passed over. -/
def fields? (names : List String) : Json → Option (List (Option Json))
  | object members => do
    let members ← members.mapM fun (key, j) => (textOf? key).map (·, j)
    names.mapM fun name =>
      match members.filter (·.1 = name) with
      | [] => some none
      | [(_, j)] => some (some j)
      | _ => none
  | array items =>
    if items.length ≤ names.length then some ((List.range names.length).map (items[·]?)) else none
  | _ => none

end Json

end CertAuthority
