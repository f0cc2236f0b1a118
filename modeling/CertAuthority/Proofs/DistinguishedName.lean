import CertAuthority.Proofs.Fault
import CertAuthority.Proofs.Name

namespace CertAuthority

/-- A relative name of one attribute, which has a type and a text. -/
def RelativeName.IsSingle (r : RelativeName) (entry : Oid × String) : Prop :=
  ∃ a, r.attributes = [a] ∧ a.oid = entry.1 ∧ DistinguishedName.text? a = some entry.2

namespace DistinguishedName

/-- The types and texts that make up a distinguished name, from the root down. -/
def entries (d : DistinguishedName) : List (Oid × String) :=
  d.organization.map (organizationOid, ·)
    ++ if d.commonName = "" then [] else [(commonNameOid, d.commonName)]

/-- What a distinguished name has to do with its form in the directory and the bytes of that. -/
structure Faithful (d : DistinguishedName) : Prop where
  path : List.Forall₂ RelativeName.IsSingle d.toName.path d.entries
  ofName : ofName d.toName = d
  decode : ∀ der, withinLimit d.toName.encode = .ok der → Name.decode? der = some d.toName
  distinct : ∀ d' der, withinLimit d.toName.encode = .ok der →
    withinLimit d'.toName.encode = .ok der → d = d'

theorem single_isSingle (oid : Oid) (text : String) : (single oid text).IsSingle (oid, text) :=
  ⟨_, rfl, rfl, text?_utf8 oid text⟩

theorem toName_path (d : DistinguishedName) :
    d.toName.path = d.entries.map fun entry => single entry.1 entry.2 := by
  rw [toName, entries, List.map_append, List.map_map]
  congr 1
  by_cases empty : d.commonName = ""
  · simp [empty]
  · simp [empty]

/-- A form that has an encoding is read back from it. -/
theorem decode?_toName {d : DistinguishedName} {der : Bytes}
    (written : withinLimit d.toName.encode = .ok der) : Name.decode? der = some d.toName := by
  have known : Der.Tag.isKnown d.toName.element.tag = true := rfl
  obtain ⟨rfl, readable⟩ := readable_of_withinLimit known written
  rw [Name.decode?, Der.Element.ofBytes?_encode readable, Option.bind_some]
  exact Name.ofElement?_element d.toName_readable readable.fits

/-- Organizations and common name survive the way through the form and through its bytes. -/
theorem toName_faithful (d : DistinguishedName) : d.Faithful where
  path := by
    rw [toName_path, List.forall₂_map_left_iff]
    exact List.forall₂_same.mpr fun entry _ => single_isSingle entry.1 entry.2
  ofName := ofName_toName d
  decode _ written := decode?_toName written
  distinct d' der written written' := by
    have same : d.toName = d'.toName := by
      have read := decode?_toName written
      rw [decode?_toName written'] at read
      exact (Option.some.inj read).symm
    rw [← ofName_toName d, same, ofName_toName]

/-- An organization that is named twice, an empty one and no common name. -/
theorem toName_faithful_sample : ∃ der,
    withinLimit (toName ⟨["Acme", "", "Acme"], ""⟩).encode = .ok der
      ∧ Name.decode? der = some (toName ⟨["Acme", "", "Acme"], ""⟩)
      ∧ ofName (toName ⟨["Acme", "", "Acme"], ""⟩) = ⟨["Acme", "", "Acme"], ""⟩
      ∧ withinLimit (toName ⟨["Acme", "Acme"], ""⟩).encode ≠ .ok der := by
  have works : (withinLimit (toName ⟨["Acme", "", "Acme"], ""⟩).encode).isOk = true := by
    decide +kernel
  obtain ⟨der, written⟩ := exists_of_isOk works
  have faithful := toName_faithful ⟨["Acme", "", "Acme"], ""⟩
  refine ⟨der, written, faithful.decode der written, faithful.ofName, ?_⟩
  intro other
  exact absurd (faithful.distinct _ der written other) (by decide)

end DistinguishedName

end CertAuthority
