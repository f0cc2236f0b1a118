import CertAuthority.Proofs.Store.Lookup

namespace CertAuthority

open Store

namespace Organization

/-- The organizations that come about. What the files hold is not restricted. -/
inductive Obtained : Organization → Prop
  | made {id : String} {names : List String} {o : Organization} (h : make id names = .ok o) :
      Obtained o
  | renamed {o o' : Organization} {names : List String} (earlier : Obtained o)
      (h : o.rename names = .ok o') : Obtained o'
  | found {root id : String} {t : Tree} {o : Organization}
      (h : Files.organization root t id = .ok o) : Obtained o

theorem Obtained.wellFormed {o : Organization} (h : Obtained o) : WellFormed o.id o.names := by
  have kept {id : String} {names : List String} {o : Organization} (h : make id names = .ok o) :
      WellFormed o.id o.names := by
    obtain ⟨wellFormed, rfl, rfl⟩ := make_eq_ok.mp h
    exact wellFormed
  cases h with
  | made h => exact kept h
  | renamed _ h => exact kept h
  | found h =>
    obtain ⟨-, r, -, read⟩ := Files.organization_eq_ok.mp h
    exact kept read

end Organization

namespace Store.Files

theorem pathText_organization (root id : String) : pathText root (path .organization id)
    = root ++ "/organizations/" ++ id ++ "/organization.json" := by
  show root ++ "/" ++ "organizations" ++ "/" ++ id ++ "/" ++ "organization.json" = _
  rw [← String.toList_inj]
  simp

theorem pathText_organization_inj {root id id' : String} :
    pathText root (path .organization id) = pathText root (path .organization id') ↔ id = id' := by
  rw [pathText_organization, pathText_organization, ← String.toList_inj, ← String.toList_inj]
  simp

theorem slash_notMem {id : String} (h : isComponent id = true) : '/' ∉ id.toList := by
  simp only [isComponent, Bool.and_eq_true, List.all_eq_true] at h
  intro slash
  exact absurd (h.2 '/' slash) (by decide)

/-- What comes of putting an organization: its record is in its file, or that could not be written.
Either way nothing changes but what is on the way to the file. -/
theorem putOrganization_cases (root : String) (t : Tree) (o : Organization) :
    ∃ done t', putOrganization root t o = (done, t')
      ∧ (done = .ok () ∧ t'.node? (path .organization o.id)
            = some (.file (Der.utf8 (OrganizationRecord.ofOrganization o).render))
        ∨ done = .error (.storage (.unwritable (pathText root (path .organization o.id)))))
      ∧ ∀ q, ¬ q <+: path .organization o.id → t'.node? q = t.node? q := by
  have elsewhere (q : Path) (other : ¬ q <+: path .organization o.id) :=
    Tree.node?_write t other (Der.utf8 (OrganizationRecord.ofOrganization o).render)
  unfold putOrganization writeText
  rw [checkComponent_ok (isComponent_id o)]
  dsimp only
  cases written : t.write (directory .organization o.id) Kind.organization.file
      (Der.utf8 (OrganizationRecord.ofOrganization o).render) with
  | mk done t' =>
    rw [written] at elsewhere
    cases done with
    | true => exact ⟨_, t', rfl, Or.inl ⟨rfl, Tree.node?_of_write written⟩, elsewhere⟩
    | false => exact ⟨_, t', rfl, Or.inr rfl, elsewhere⟩

end Store.Files

namespace Organization

/-- An organization that satisfies the rules and can be told, renamed and stored: its id is a single
step below a directory, its record has a file that is that of no other id, and storing it fails
only if that file cannot be written. -/
structure IsSafe (o : Organization) : Prop where
  wellFormed : WellFormed o.id o.names
  first : o.names[0]? = some o.name
  renamed : ∀ names o', o.rename names = .ok o' → o'.id = o.id ∧ o'.names = names
  taken : Files.checkComponent o.id = .ok ()
  step : o.id ≠ "" ∧ o.id ≠ "." ∧ o.id ≠ ".." ∧ '/' ∉ o.id.toList
  place : ∀ root, Files.pathText root (Files.path .organization o.id)
    = root ++ "/organizations/" ++ o.id ++ "/organization.json"
  own : ∀ root id, Files.pathText root (Files.path .organization o.id)
    = Files.pathText root (Files.path .organization id) ↔ o.id = id
  stored : ∀ root t, ∃ done t', Files.putOrganization root t o = (done, t')
    ∧ (done = .ok () ∧ t'.node? (Files.path .organization o.id)
          = some (.file (Der.utf8 (OrganizationRecord.ofOrganization o).render))
      ∨ done = .error (.storage (.unwritable
          (Files.pathText root (Files.path .organization o.id)))))
    ∧ ∀ q, ¬ q <+: Files.path .organization o.id → t'.node? q = t.node? q

theorem isSafe_of_obtained {o : Organization} (h : Obtained o) : o.IsSafe where
  wellFormed := h.wellFormed
  first := o.getElem?_zero_names
  renamed _ _ done := (rename_eq_ok.mp done).2
  taken := Files.checkComponent_ok (Files.isComponent_id o)
  step := by
    have component := Files.isComponent_id o
    have slash := Files.slash_notMem component
    simp only [Files.isComponent, Bool.and_eq_true, decide_eq_true_eq] at component
    obtain ⟨⟨⟨dot, dots⟩, filled⟩, -⟩ := component
    refine ⟨?_, dot, dots, slash⟩
    intro empty
    simp [empty] at filled
  place root := Files.pathText_organization root o.id
  own _ _ := Files.pathText_organization_inj
  stored root t := Files.putOrganization_cases root t o

def sampleRenamed : Organization := ⟨"acme-01.example", ["Acme Holdings", "R2"], by decide⟩

/-- An organization is made and gets other names. Its record still has the file of its id. -/
theorem isSafe_of_obtained_sample : Obtained sampleRenamed ∧ sampleRenamed.IsSafe
    ∧ Files.pathText "/ca" (Files.path .organization sampleRenamed.id)
      = "/ca/organizations/acme-01.example/organization.json" := by
  have obtained : Obtained sampleRenamed := by
    have made : Obtained ⟨"acme-01.example", ["Acme Inc"], by decide⟩ :=
      .made (make_self ⟨"acme-01.example", ["Acme Inc"], by decide⟩)
    exact .renamed made (make_self sampleRenamed)
  have safe := isSafe_of_obtained obtained
  exact ⟨obtained, safe, safe.place "/ca"⟩

end Organization

end CertAuthority
