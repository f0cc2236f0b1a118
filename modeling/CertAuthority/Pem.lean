import CertAuthority.Base64
import CertAuthority.Fault
import CertAuthority.Text.Blank

namespace CertAuthority.Pem

structure Block where
  label : String
  contents : Bytes
deriving DecidableEq, Repr

def certificateLabel : String := "CERTIFICATE"

def privateKeyLabel : String := "PRIVATE KEY"

def lineWidth : Nat := 64

def wrap : List Char → List Char
  | [] => []
  | c :: rest => c :: rest.take (lineWidth - 1) ++ '\n' :: wrap (rest.drop (lineWidth - 1))
termination_by cs => cs.length
decreasing_by
  simp only [List.length_drop, List.length_cons]
  omega

def armor (contents : Bytes) (label : String) : String :=
  "-----BEGIN " ++ label ++ "-----\n" ++ String.ofList (wrap (Base64.encode contents))
    ++ "-----END " ++ label ++ "-----\n"

/-- Reads up to and including a marker, given what of it is still to come. A character that
does not continue the marker makes it start over behind that character. -/
def scan (marker : List Char) : List Char → List Char → Option (List Char × List Char)
  | [], rest => some ([], rest)
  | _ :: _, [] => none
  | p :: ps, c :: cs =>
    (scan marker (if c = p then ps else marker) cs).map fun (seen, rest) => (c :: seen, rest)

/-- What stands before and behind a marker. -/
def splitAt? (marker : String) (cs : List Char) : Option (List Char × List Char) :=
  (scan marker.toList marker.toList cs).map fun (seen, rest) =>
    (seen.take (seen.length - marker.toList.length), rest)

def isGap (c : Char) : Bool := c = ' ' || c = '\t' || c = '\n' || c = '\r'

def splitBody (body : List Char) : List Char × List Char :=
  match splitAt? "\n\n" body with
  | some parts => parts
  | none => (splitAt? "\r\n\r\n" body).getD ([], body)

def lines : List Char → List (List Char)
  | [] => []
  | cs@(_ :: rest) =>
    cs.takeWhile (· ≠ '\n') :: lines (rest.drop ((cs.takeWhile (· ≠ '\n')).length))
termination_by cs => cs.length
decreasing_by
  simp only [List.length_drop, List.length_cons]
  omega

/-- Reads the first block of a text. -/
def parse? (text : String) : Option Block := do
  let (_, rest) ← splitAt? "-----BEGIN " text.toList
  let (label, rest) ← splitAt? "-----" rest
  let (body, rest) ← splitAt? "-----END " (rest.dropWhile isGap)
  let (endLabel, _) ← splitAt? "-----" rest
  let (headers, data) := splitBody body
  let contents ← Base64.decode? (data.filter (!Text.isBlank ·))
  if label ≠ [] ∧ endLabel = label ∧ (lines headers).all (·.contains ':') then
    some ⟨String.ofList label, contents⟩
  else none

/-- The bytes of the first block of a text. -/
def decode (text : String) : Except Fault Bytes := (orMalformed (parse? text)).map (·.contents)

/-- The bytes of the first block of a text, which must have the given label. -/
def decodeLabelled (text label : String) : Except Fault Bytes :=
  match parse? text with
  | none => .error .malformed
  | some block =>
    if block.label = label then .ok block.contents
    else .error (.decoding (.label label block.label))

end CertAuthority.Pem
