import CertAuthority.Extension.Basic
import CertAuthority.Name

namespace CertAuthority

inductive GeneralName
  /-- A form that an identifier defines. -/
  | other (form : Oid) (value : Der.Element)
  | email (octets : Bytes)
  | dns (octets : Bytes)
  | directory (name : Name)
  /-- A trading partner, with who named it. -/
  | partner (assigner : Option Der.Element) (party : Der.Element)
  | uri (octets : Bytes)
  | address (octets : Bytes)
  | registered (oid : Oid)
deriving DecidableEq, Repr

namespace GeneralName

/-- Reads a text of a directory: printable, seven-bit or UTF-8. -/
def directoryText? (e : Der.Element) : Option Der.Element :=
  if e.tag = Der.Tag.printableString ∧ e.content.all Der.isPrintable
      ∨ e.tag = Der.Tag.teletexString ∧ Der.isAscii e.content
      ∨ e.tag = Der.Tag.utf8String ∧ (Der.utf8Text? e.content).isSome then
    some e
  else none

def other? (content : Bytes) : Option GeneralName := do
  match ← Der.Element.readAll content with
  | [form, value] => some (.other (← Oid.ofElement? form) (← value.explicit? 0))
  | _ => none

/-- Reads the fields of a trading partner. Nothing stands between who named it and itself. -/
def partner? (content : Bytes) : Option GeneralName := do
  match Der.takeContext 0 (← Der.Element.readAll content) with
  | (assigner, [party]) =>
    let assigner ← assigner.mapM fun e => do directoryText? (← e.only?)
    some (.partner assigner (← directoryText? (← party.explicit? 1)))
  | _ => none

def dnsTag : UInt8 := Der.Tag.context 2

/-- Reads octets that must be ASCII. -/
def ascii? (make : Bytes → GeneralName) (b : Bytes) : Option GeneralName :=
  if Der.isAscii b then some (make b) else none

def ofElement? (e : Der.Element) : Option GeneralName :=
  if e.tag = Der.Tag.contextConstructed 0 then other? e.content
  else if e.tag = Der.Tag.context 1 then ascii? email e.content
  else if e.tag = dnsTag then ascii? dns e.content
  else if e.tag = Der.Tag.contextConstructed 4 then directory <$> Name.decode? e.content
  else if e.tag = Der.Tag.contextConstructed 5 then partner? e.content
  else if e.tag = Der.Tag.context 6 then ascii? uri e.content
  else if e.tag = Der.Tag.context 7 then some (address e.content)
  else if e.tag = Der.Tag.context 8 then registered <$> Oid.ofContent? e.content
  else none

def readAll (content : Bytes) : Option (List GeneralName) := do
  (← Der.Element.readAll content).mapM ofElement?

def dnsText? : GeneralName → Option String
  | dns octets => Der.utf8Text? octets
  | _ => none

end GeneralName

structure SubjectAltName where
  names : List String
deriving DecidableEq, Repr

namespace SubjectAltName

/-- A DNS name as an element; it must be ASCII. -/
def nameElement (name : String) : Except Fault Der.Element :=
  if Der.isAscii (Der.utf8 name) then .ok ⟨GeneralName.dnsTag, Der.utf8 name⟩
  else .error (.input (.dnsName name))

def element (s : SubjectAltName) : Except Fault Der.Element :=
  (s.names.mapM nameElement).map .sequence

def ofElement? (e : Der.Element) : Option SubjectAltName := do
  let names ← GeneralName.readAll (← e.content? Der.Tag.sequence)
  some ⟨names.filterMap (·.dnsText?)⟩

instance : ExtensionValue SubjectAltName where
  oid := .ofArcs [2, 5, 29, 17]
  element
  ofElement?

end SubjectAltName

end CertAuthority
