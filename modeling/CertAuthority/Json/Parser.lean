import CertAuthority.Json.Token

namespace CertAuthority.Json

mutual

/-- Takes a value off the front of tokens, with a limit on the steps. -/
def readValue : Nat → List Token → Option (Json × List Token)
  | fuel + 1, t :: rest =>
    match t with
    | .null => some (.null, rest)
    | .bool b => some (.bool b, rest)
    | .number n => some (.number n, rest)
    | .string pieces => some (.string pieces, rest)
    | .openBracket =>
      match rest with
      | .closeBracket :: rest => some (.array [], rest)
      | rest => (readItems fuel rest).map fun (items, rest) => (.array items, rest)
    | .openBrace =>
      match rest with
      | .closeBrace :: rest => some (.object [], rest)
      | rest => (readMembers fuel rest).map fun (members, rest) => (.object members, rest)
    | _ => none
  | _, _ => none

def readItems : Nat → List Token → Option (List Json × List Token)
  | fuel + 1, ts =>
    match readValue fuel ts with
    | some (j, .comma :: rest) => (readItems fuel rest).map fun (items, rest) => (j :: items, rest)
    | some (j, .closeBracket :: rest) => some ([j], rest)
    | _ => none
  | 0, _ => none

def readMembers : Nat → List Token → Option (List (List Piece × Json) × List Token)
  | fuel + 1, .string key :: .colon :: ts =>
    match readValue fuel ts with
    | some (j, .comma :: rest) =>
      (readMembers fuel rest).map fun (members, rest) => ((key, j) :: members, rest)
    | some (j, .closeBrace :: rest) => some ([(key, j)], rest)
    | _ => none
  | _, _ => none

end

/-- The value that tokens make. A value takes at most two steps for each of its tokens. -/
def ofTokens? (ts : List Token) : Option Json :=
  match readValue (2 * ts.length + 1) ts with
  | some (j, []) => some j
  | _ => none

def parse? (s : String) : Option Json := (Token.readAll s.toList).bind ofTokens?

end CertAuthority.Json
