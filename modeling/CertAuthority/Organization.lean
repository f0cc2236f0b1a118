import CertAuthority.Text.Rules

namespace CertAuthority

namespace Organization

/-- Why an id and names do not make an organization, if they do not. -/
def fault? (id : String) (names : List String) : Option Fault :=
  match Field.organizationId.check id with
  | .error e => some e
  | .ok () =>
    if names.isEmpty then some (.input (.unnamed id))
    else
      match Field.organizationName.checkAll names with
      | .error e => some e
      | .ok () => none

end Organization

/-- An organization: an id and one or more names that satisfy the rules. -/
structure Organization where
  id : String
  names : List String
  sound : Organization.fault? id names = none
deriving DecidableEq, Repr

namespace Organization

theorem names_ne_nil (o : Organization) : o.names ≠ [] := by
  intro h
  have hs := o.sound
  simp only [fault?, h, List.isEmpty_nil, if_true] at hs
  split at hs <;> cases hs

def make (id : String) (names : List String) : Except Fault Organization :=
  match h : fault? id names with
  | none => .ok ⟨id, names, h⟩
  | some e => .error e

def name (o : Organization) : String := o.names.head o.names_ne_nil

def rename (o : Organization) (names : List String) : Except Fault Organization := make o.id names

end Organization

end CertAuthority
