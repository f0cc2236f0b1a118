import CertAuthority.Proofs.Store.Files

namespace CertAuthority.Store

theorem OrganizationRecord.toOrganization_eq_ok {r : OrganizationRecord} {o : Organization} :
    r.toOrganization = .ok o ↔ o.id = r.id ∧ o.names = r.allNames := by
  constructor
  · intro made
    exact (Organization.make_eq_ok.mp made).2
  · rintro ⟨id, names⟩
    rw [toOrganization, ← id, ← names]
    exact o.make_self

namespace Files

/-- The text in the file of a record, if there is one. -/
def text? (t : Tree) (kind : Kind) (key : String) : Option String :=
  match t.follow (path kind key) with
  | .node (.file contents) => Der.utf8Text? contents
  | _ => none

def organizationRecord? (t : Tree) (id : String) : Option OrganizationRecord :=
  (text? t .organization id).bind OrganizationRecord.parse?

def certificateRecord? (t : Tree) (serial : SerialNumber) : Option CertificateRecord :=
  (text? t .certificate (Numeral.decimal serial)).bind CertificateRecord.parse?

/-- Whether the file of an organization holds the record of another one. -/
def IsMisfiled (t : Tree) (id : String) : Prop :=
  isComponent id = true
    ∧ ∃ r o, organizationRecord? t id = some r ∧ r.toOrganization = .ok o ∧ r.id ≠ id

variable {root : String} {t : Tree}

theorem readText_eq_ok {kind : Kind} {key text : String} {name : RecordName} :
    readText root t kind key name = .ok text ↔ text? t kind key = some text := by
  unfold readText text?
  cases t.follow (path kind key) with
  | missing => simp
  | blocked => simp
  | node n =>
    cases n with
    | directory => simp
    | file contents =>
      dsimp only
      cases Der.utf8Text? contents <;> simp

theorem orUnreadable_eq_ok {α : Type} {kind : Kind} {key : String} {x : Option α} {a : α} :
    orUnreadable root kind key x = .ok a ↔ x = some a := by
  cases x with
  | none => simp [orUnreadable]
  | some b => simp [orUnreadable]

theorem checkComponent_eq_ok {id : String} :
    checkComponent id = .ok () ↔ isComponent id = true := by
  refine ⟨fun h => ?_, checkComponent_ok⟩
  by_contra other
  rw [checkComponent, if_neg other] at h
  cases h

/-- What was read from the text of a record, and what follows. -/
theorem read_eq_ok {α β : Type} {kind : Kind} {key : String} {name : RecordName}
    {parse : String → Option α} {f : α → Except Fault β} {b : β} :
    (do
      let text ← readText root t kind key name
      let record ← orUnreadable root kind key (parse text)
      f record) = .ok b
      ↔ ∃ r, (text? t kind key).bind parse = some r ∧ f r = .ok b := by
  simp only [bind_eq_ok, readText_eq_ok, orUnreadable_eq_ok, Option.bind_eq_some_iff]
  constructor
  · rintro ⟨text, reads, r, parsed, done⟩
    exact ⟨r, ⟨text, reads, parsed⟩, done⟩
  · rintro ⟨r, ⟨text, reads, parsed⟩, done⟩
    exact ⟨text, reads, r, parsed, done⟩

theorem organization_eq_ok {id : String} {o : Organization} :
    organization root t id = .ok o
      ↔ isComponent id = true ∧ ∃ r, organizationRecord? t id = some r
        ∧ r.toOrganization = .ok o := by
  rw [organization, bind_eq_ok, ← checkComponent_eq_ok]
  simp only [read_eq_ok, organizationRecord?]
  constructor
  · rintro ⟨_, named, done⟩
    exact ⟨named, done⟩
  · rintro ⟨named, done⟩
    exact ⟨(), named, done⟩

theorem certificate_eq_ok {serial : SerialNumber} {c : IssuedCertificate} :
    certificate root t serial = .ok c
      ↔ c.serial = serial
        ∧ ∃ r, certificateRecord? t serial = some r ∧ r.toCertificate = .ok c := by
  unfold certificate
  simp only [read_eq_ok, certificateRecord?]
  simp only [bind_eq_ok]
  constructor
  · rintro ⟨r, record, c', reads, done⟩
    split at done
    next own =>
      cases Except.ok.inj done
      exact ⟨own, r, record, reads⟩
    next => cases done
  · rintro ⟨own, r, record, reads⟩
    exact ⟨r, record, c, reads, if_pos own⟩

theorem privateKey_eq_ok {serial : SerialNumber} {k : PrivateKey} :
    privateKey root t serial = .ok k
      ↔ k.serial = serial ∧ ∃ text pair, text? t .privateKey (Numeral.decimal serial) = some text
        ∧ KeyPair.ofPem text = .ok pair ∧ k.material = .pair pair := by
  unfold privateKey
  simp only [bind_eq_ok, readText_eq_ok]
  constructor
  · rintro ⟨text, reads, pair, parsed, done⟩
    cases Except.ok.inj done
    exact ⟨rfl, text, pair, reads, parsed, rfl⟩
  · rintro ⟨own, text, pair, reads, parsed, material⟩
    refine ⟨text, reads, pair, parsed, ?_⟩
    obtain ⟨serial', material'⟩ := k
    cases own
    cases material
    rfl

/-- What the stores themselves write is never the record of another organization. -/
theorem Keeps.not_isMisfiled {kept : RecordName → Option Record} (h : Keeps t kept)
    (id : String) : ¬ IsMisfiled t id := by
  rintro ⟨named, r, o, record, made, other⟩
  have answered : (Stores.files "" t).get (.organization id) = .ok (.organization o) := by
    show (Files.organization "" t id).map _ = _
    rw [organization_eq_ok.mpr ⟨named, r, record, made⟩]
    rfl
  have expected : (Stores.files "" t).get (.organization id)
      = RecordName.answer kept (.organization id) := h.get "" named
  rw [expected, RecordName.answer] at answered
  cases found : kept (.organization id) with
  | none =>
    rw [found] at answered
    cases answered
  | some r' =>
    rw [found] at answered
    cases Except.ok.inj answered
    have name : RecordName.organization o.id = .organization id := (h.present _ _ found).1
    rw [← (OrganizationRecord.toOrganization_eq_ok.mp made).1] at other
    exact other (RecordName.organization.inj name)

/-- What look-ups in files answer with. -/
structure Answers (root : String) (t : Tree) : Prop where
  organization : ∀ id o, organization root t id = .ok o
    ↔ isComponent id = true
      ∧ ∃ r, organizationRecord? t id = some r ∧ o.id = r.id ∧ o.names = r.allNames
  organization_own : (∀ id o, Files.organization root t id = .ok o → o.id = id)
    ↔ ∀ id, ¬ IsMisfiled t id
  organization_kept : ∀ kept, Keeps t kept →
    ∀ id o, Files.organization root t id = .ok o → o.id = id
  certificate : ∀ serial c, certificate root t serial = .ok c
    ↔ c.serial = serial ∧ ∃ r, certificateRecord? t serial = some r ∧ r.toCertificate = .ok c
  privateKey : ∀ serial k, privateKey root t serial = .ok k
    ↔ k.serial = serial ∧ ∃ text pair, text? t .privateKey (Numeral.decimal serial) = some text
      ∧ KeyPair.ofPem text = .ok pair ∧ k.material = .pair pair

/-- Whatever the files hold, a certificate and a private key that are answered have the serial
number that was asked for. An organization has the id that its record gives, and so all of them
are those that were asked for just if no file holds the record of another organization, as where
only the stores themselves have written. -/
theorem answers_of_files (root : String) (t : Tree) : Answers root t := by
  have organization (id : String) (o : Organization) : Files.organization root t id = .ok o
      ↔ isComponent id = true
        ∧ ∃ r, organizationRecord? t id = some r ∧ o.id = r.id ∧ o.names = r.allNames := by
    rw [organization_eq_ok]
    simp only [OrganizationRecord.toOrganization_eq_ok]
  have own : (∀ id o, Files.organization root t id = .ok o → o.id = id)
      ↔ ∀ id, ¬ IsMisfiled t id := by
    constructor
    · rintro own id ⟨named, r, o, record, made, other⟩
      have same : o.id = id := own id o (organization_eq_ok.mpr ⟨named, r, record, made⟩)
      rw [(OrganizationRecord.toOrganization_eq_ok.mp made).1] at same
      exact other same
    · intro filed id o answered
      obtain ⟨named, r, record, made⟩ := organization_eq_ok.mp answered
      by_contra other
      rw [(OrganizationRecord.toOrganization_eq_ok.mp made).1] at other
      exact filed id ⟨named, r, o, record, made, other⟩
  exact ⟨organization, own, fun kept keeps => own.mpr keeps.not_isMisfiled,
    fun _ _ => certificate_eq_ok, fun _ _ => privateKey_eq_ok⟩

def sampleOther : Organization := ⟨"evil", ["Evil Corp"], by decide⟩

/-- The record of another organization in the place of that of `acme`. -/
def sampleMoved : Tree :=
  ⟨none, [(path .organization "acme",
      .file (Der.utf8 (OrganizationRecord.ofOrganization sampleOther).render)),
    (directory .organization "acme", .directory), ([Kind.organization.directory], .directory)]⟩

/-- Asked for `acme`, the files answer with an organization that has another id. -/
theorem organization_other_sample :
    organization "/ca" sampleMoved "acme" = .ok sampleOther ∧ sampleOther.id ≠ "acme" := by
  have found : sampleMoved.follow (path .organization "acme")
      = .node (.file (Der.utf8 (OrganizationRecord.ofOrganization sampleOther).render)) :=
    Tree.follow_node rfl rfl rfl rfl
  have record : organizationRecord? sampleMoved "acme"
      = some (OrganizationRecord.ofOrganization sampleOther) := by
    rw [organizationRecord?, text?, found]
    simp only [Der.utf8Text?_utf8, Option.bind_some]
    exact OrganizationRecord.parse?_render _
  have made := OrganizationRecord.toOrganization_ofOrganization sampleOther
  exact ⟨organization_eq_ok.mpr ⟨by decide, _, record, made⟩, by decide⟩

end Files

end CertAuthority.Store
