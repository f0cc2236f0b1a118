import CertAuthority.Json.Parser
import CertAuthority.Json.Printer
import CertAuthority.Der.Primitive
import CertAuthority.KeyType
import CertAuthority.Validity

namespace CertAuthority

/-- Where organizations, certificates and keys are kept. -/
inductive StorageConfig
  | memory
  | file (path : String)
deriving DecidableEq, Repr

structure Config where
  storage : StorageConfig := .memory
  keyType : KeyType := .ecdsaP384
  rsaBits : UInt64 := 2048
  rootDays : Int64 := 3650
  intermediateDays : Int64 := 1825
  leafDays : Int64 := 365
deriving DecidableEq, Repr

namespace Config

def kindField : String := "type"

def pathField : String := "path"

def splitKind? : Json → Option (String × Json)
  | .object members =>
    match members.filter (Json.textOf? ·.1 = some kindField) with
    | [(_, kind)] =>
      kind.text?.map fun s =>
        (s, .object (members.filter (Json.textOf? ·.1 ≠ some kindField)))
    | _ => none
  | .array (kind :: items) => kind.text?.map fun s => (s, .array items)
  | _ => none

/-- How many arrays and objects may lie inside each other where storage is configured. -/
def maxDepth : Nat := 126

/-- Reads where things are kept. Fields that do not belong there are passed over, but must be
proper values. -/
def storageOfJson? (j : Json) : Option StorageConfig :=
  if j.isProper maxDepth then
    match splitKind? j with
    | some ("memory", .object _) => some .memory
    | some ("memory", .array []) => some .memory
    | some ("file", rest) =>
      match rest.fields? [pathField] with
      | some [some path] => path.text?.map .file
      | _ => none
    | _ => none
  else none

def storageToJson : StorageConfig → Json
  | .memory => .object [(Json.pieces kindField, .ofText "memory")]
  | .file path =>
    .object [(Json.pieces kindField, .ofText "file"), (Json.pieces pathField, .ofText path)]

def keyTypeOfJson? (j : Json) : Option KeyType := do (KeyType.ofName (← j.text?)).toOption

def countOfJson? (j : Json) : Option UInt64 := do
  let i ← j.int?
  if 0 ≤ i ∧ i < UInt64.size then some (UInt64.ofNat i.toNat) else none

def daysOfJson? (j : Json) : Option Int64 := do
  let i ← j.int?
  if Int64.minValue.toInt ≤ i ∧ i ≤ Int64.maxValue.toInt then some (Int64.ofInt i) else none

/-- The value of a field, or its default where the field is left out. -/
def orDefault {α : Type} (read : Json → Option α) (default : α) : Option Json → Option α
  | none => some default
  | some j => read j

def fieldNames : List String :=
  ["storage", "key_type", "rsa_bits", "root_expiration_days", "intermediate_expiration_days",
    "leaf_expiration_days"]

def default : Config := {}

def ofJson? (j : Json) : Option Config := do
  match ← j.fields? fieldNames with
  | [storage, keyType, rsaBits, root, intermediate, leaf] =>
    return {
      storage := ← orDefault storageOfJson? default.storage storage
      keyType := ← orDefault keyTypeOfJson? default.keyType keyType
      rsaBits := ← orDefault countOfJson? default.rsaBits rsaBits
      rootDays := ← orDefault daysOfJson? default.rootDays root
      intermediateDays := ← orDefault daysOfJson? default.intermediateDays intermediate
      leafDays := ← orDefault daysOfJson? default.leafDays leaf }
  | _ => none

def toJson (c : Config) : Json :=
  .object ((fieldNames.map Json.pieces).zip
    [storageToJson c.storage, .ofText c.keyType.name, .ofInt c.rsaBits.toNat,
      .ofInt c.rootDays.toInt, .ofInt c.intermediateDays.toInt, .ofInt c.leafDays.toInt])

def render (c : Config) : String := c.toJson.render

def orFault (c : Option Config) : Except Fault Config :=
  match c with
  | some c => .ok c
  | none => .error .config

def parse (text : String) : Except Fault Config := orFault ((Json.parse? text).bind ofJson?)

/-- Reads the contents of a file with settings, if there is such a file. -/
def ofFile (contents : Option Bytes) : Except Fault Config := do
  match contents.bind Der.utf8Text? with
  | some text => parse text
  | none => .error .config

def rootExpiration (c : Config) : Except Fault Duration := Validity.daysLong c.rootDays.toInt

def intermediateExpiration (c : Config) : Except Fault Duration :=
  Validity.daysLong c.intermediateDays.toInt

def leafExpiration (c : Config) : Except Fault Duration := Validity.daysLong c.leafDays.toInt

end Config

end CertAuthority
