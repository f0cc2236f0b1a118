import CertAuthority.Der.Oid
import CertAuthority.Duration
import CertAuthority.Text.Quoted

namespace CertAuthority

/-- The fields whose text is held to a rule. -/
inductive Field
  | caCommonName
  | clientCommonName
  | dnsName
  | organizationId
  | organizationName
deriving DecidableEq, Repr

def Field.label : Field → String
  | .caCommonName => "CA common name"
  | .clientCommonName => "client common name"
  | .dnsName => "DNS name"
  | .organizationId => "organization id"
  | .organizationName => "organization name"

/-- The rules that a text can break. -/
inductive Rule
  | empty
  | outerSpace
  | doubleSpace
  | number
  | characters
  | outerDashOrDot
  | doubleDot
  | shortLastLabel
  | short
  | uppercase
  | slug
deriving DecidableEq, Repr

def Rule.text : Rule → String
  | .empty => "cannot be empty"
  | .outerSpace => "cannot start or end with a space"
  | .doubleSpace => "should not have repeating spaces"
  | .number => "should not be full numbers"
  | .characters => "contains invalid characters"
  | .outerDashOrDot => "cannot start or end with '-' or '.'"
  | .doubleDot => "cannot have repeating '.'"
  | .shortLastLabel => "last label must be at least two characters"
  | .short => "must be at least two characters long"
  | .uppercase => "contains uppercase characters"
  | .slug => "contains invalid characters, or starts or ends with '-' or '.'"

/-- Input that is refused for its own sake. -/
inductive InputFault
  | rule (field : Field) (value : String) (rule : Rule)
  | unnamed (id : String)
  /-- A bound on random numbers leaves no number to draw. -/
  | zeroBound
  | emptySerial
  | radix (base : Nat)
  | serial (text : String)
  | dnsName (name : String)
  | noDnsName
  | expiration (length : Duration)
  | noKeyData (serial : Nat)
  | noKeyToSign (serial : Nat)
  | noKeyToStore (serial : Nat)
  | keyMismatch (key certificate : Nat)
  | component (kind value : String)
deriving DecidableEq, Repr

def InputFault.text : InputFault → String
  | .rule field value broken => field.label ++ " " ++ Text.quoted value ++ ": " ++ broken.text
  | .unnamed id => "organization " ++ id ++ " needs at least one name"
  | .zeroBound => "random upper bound must be greater than zero"
  | .emptySerial => "no serial number value provided"
  | .radix base => "invalid radix: " ++ Numeral.decimal base
  | .serial text => "failed to parse serial number: " ++ text
  | .dnsName name => "DNS name " ++ name ++ ": malformed ASN.1 DER value for IA5String"
  | .noDnsName => "server certificate needs at least one DNS name"
  | .expiration length => "expiration " ++ length.text ++ " is out of range"
  | .noKeyData n => "private key " ++ Numeral.decimal n ++ " has no key data"
  | .noKeyToSign n => "private key " ++ Numeral.decimal n ++ " has no key data to sign with"
  | .noKeyToStore n => "private key " ++ Numeral.decimal n ++ " has no key data to store"
  | .keyMismatch key certificate =>
    "private key " ++ Numeral.decimal key ++ " does not match the public key of certificate "
      ++ Numeral.decimal certificate
  | .component kind value =>
    kind ++ " " ++ Text.quoted value ++ " must contain only alphanumerics, '-', '_' and '.'"

inductive RecordName
  | organization (id : String)
  | certificate (serial : Nat)
  | privateKey (serial : Nat)
deriving DecidableEq, Repr

def RecordName.text : RecordName → String
  | .organization id => "organization " ++ id
  | .certificate serial => "certificate " ++ Numeral.decimal serial
  | .privateKey serial => "private key " ++ Numeral.decimal serial

/-- Keys of a kind that is not handled. -/
inductive UnsupportedKey
  | name (text : String)
  | tag (tag : Int)
  | algorithm (oid : Oid)
  | curve (oid : Oid)
  /-- The key type of this name is not on a curve of its own choice. -/
  | notEcdsa (name : String)
deriving DecidableEq, Repr

def UnsupportedKey.text : UnsupportedKey → String
  | .name text => text
  | .tag n => "KeyType(" ++ Numeral.signed n ++ ")"
  | .algorithm oid => oid.dotted
  | .curve oid => "ECDSA curve " ++ oid.dotted
  | .notEcdsa keyType => keyType ++ " is not an ECDSA key type"

/-- Failures of the random source. -/
inductive EntropyFault
  /-- As many zero draws in a row as are tolerated. -/
  | zeros (count : Nat)
  | exhausted
  /-- A source's own words. -/
  | reported (text : String)
deriving DecidableEq, Repr

def EntropyFault.text : EntropyFault → String
  | .zeros count => "random source returned zero " ++ Numeral.decimal count ++ " times in a row"
  | .exhausted => "no random bytes left"
  | .reported text => text

/-- Values that cannot be written. -/
inductive EncodingFault
  /-- The serial number does not fit the field of a certificate. -/
  | serial (serial : Nat)
  /-- A public or private key cannot be written, or its algorithm identifier is malformed. -/
  | key
  /-- The key is too small to sign with, or its parts do not fit together. -/
  | signing
  /-- A backend's own words. -/
  | reported (text : String)
deriving DecidableEq, Repr

def EncodingFault.text : EncodingFault → String
  | .serial n => "serial number " ++ Numeral.decimal n ++ ": ASN.1 DER message is too long"
  | .key => "malformed key"
  | .signing => "signing failed"
  | .reported text => text

inductive DecodingFault
  | malformed
  | signatureAlgorithm (oid : Oid)
  | label (expected found : String)
  | noCurve
  /-- A backend's own words. -/
  | reported (text : String)
deriving DecidableEq, Repr

def DecodingFault.text : DecodingFault → String
  | .malformed => "malformed value"
  | .signatureAlgorithm oid => "Unsupported signature algorithm " ++ oid.dotted
  | .label expected found => "expected a " ++ expected ++ " PEM block, found " ++ found
  | .noCurve => "EC public key without curve"
  | .reported text => text

inductive StorageFault
  /-- The record at a path is that of another certificate. -/
  | misplaced (path : String) (serial : Nat)
  /-- The record at a path cannot be read or does not have the form of a record. -/
  | unreadable (path : String)
  | unwritable (path : String)
deriving DecidableEq, Repr

def StorageFault.text : StorageFault → String
  | .misplaced path serial => "record " ++ path ++ " holds certificate " ++ Numeral.decimal serial
  | .unreadable path => "failed to read " ++ path
  | .unwritable path => "failed to write " ++ path

/-- Why an operation was refused. -/
inductive Fault
  | notFound (record : RecordName)
  | unsupportedKeyType (key : UnsupportedKey)
  /-- A backend did not sign. -/
  | creation (cause : Fault)
  /-- A backend could not read what it had signed. -/
  | parseAfterCreation (cause : Fault)
  | entropy (cause : EntropyFault)
  | encoding (cause : EncodingFault)
  | decoding (cause : DecodingFault)
  | input (cause : InputFault)
  | keyGeneration
  | storage (cause : StorageFault)
  | config
  /-- A number of days is beyond all durations. -/
  | durationOverflow
  /-- An arc of an identifier is beyond what can be told. -/
  | arcOverflow
deriving DecidableEq, Repr

namespace Fault

def message : Fault → String
  | notFound record => "Not found: " ++ record.text
  | unsupportedKeyType key => "keyType is unsupported: " ++ key.text
  | creation cause => "failed to create certificate: " ++ cause.message
  | parseAfterCreation cause => "failed to parse certificate after creating it: " ++ cause.message
  | entropy cause => "Entropy source failed: " ++ cause.text
  | encoding cause => "Failed to encode data: " ++ cause.text
  | decoding cause => "Failed to decode data: " ++ cause.text
  | input cause => "Invalid input: " ++ cause.text
  | keyGeneration => "Key generation error: no such key"
  | storage cause => "Storage error: " ++ cause.text
  | config => "Configuration error: malformed configuration"
  | durationOverflow => "duration overflow"
  | arcOverflow => "arc overflow"

/-- Bytes or text that do not have the form of the value. -/
def malformed : Fault := decoding .malformed

end Fault

def orMalformed {α : Type} : Option α → Except Fault α
  | some a => .ok a
  | none => .error .malformed

/-- An encoding that stays within the limit on lengths, or the fault that it does not. -/
def withinLimit (b : Bytes) : Except Fault Bytes :=
  if Der.fits b then .ok b else .error .malformed

end CertAuthority
