import CertAuthority.Organization
import CertAuthority.Proofs.Text.Rules

namespace CertAuthority.Organization

/-- An id that is taken, and one name or more that are. -/
structure WellFormed (id : String) (names : List String) : Prop where
  id : Field.organizationId.check id = .ok ()
  filled : names ≠ []
  names : ∀ name ∈ names, Field.organizationName.check name = .ok ()

theorem fault?_eq_none_iff {id : String} {names : List String} :
    fault? id names = none ↔ WellFormed id names := by
  unfold fault?
  constructor
  · intro sound
    split at sound
    next => cases sound
    next taken =>
      split at sound
      next => cases sound
      next filled =>
        split at sound
        next => cases sound
        next all => exact ⟨taken, by simpa using filled, Field.checkAll_eq_ok_iff.mp all⟩
  · rintro ⟨taken, filled, all⟩
    rw [taken, Field.checkAll_eq_ok_iff.mpr all]
    simp [filled]

theorem make_self (o : Organization) : make o.id o.names = .ok o := by
  unfold make
  split
  next => rfl
  next e h => rw [o.sound] at h; cases h

theorem make_eq_ok {id : String} {names : List String} {o : Organization} :
    make id names = .ok o ↔ WellFormed id names ∧ o.id = id ∧ o.names = names := by
  rw [← fault?_eq_none_iff]
  constructor
  · intro made
    unfold make at made
    split at made
    next sound =>
      cases Except.ok.inj made
      exact ⟨sound, rfl, rfl⟩
    next => cases made
  · rintro ⟨-, rfl, rfl⟩
    exact o.make_self

theorem rename_eq_ok {o o' : Organization} {names : List String} :
    o.rename names = .ok o' ↔ WellFormed o.id names ∧ o'.id = o.id ∧ o'.names = names :=
  make_eq_ok

theorem rules (o : Organization) : Field.organizationId.brokenRule? o.id = none
    ∧ ∀ name ∈ o.names, Field.organizationName.brokenRule? name = none := by
  have sound := fault?_eq_none_iff.mp o.sound
  exact ⟨Field.check_eq_ok_iff.mp sound.id,
    fun name hn => Field.check_eq_ok_iff.mp (sound.names name hn)⟩

/-- There is a first name, and it is the name that is told. -/
theorem getElem?_zero_names (o : Organization) : o.names[0]? = some o.name := by
  rw [← List.head?_eq_getElem?, List.head?_eq_some_head o.names_ne_nil, name]

end CertAuthority.Organization
