import CertAuthority.Proofs.Backend

namespace CertAuthority

namespace SignedCertificate

/-- A certificate within the limit has signed fields and values of extensions within it. -/
theorem fits_of_encode {c : SignedCertificate} (h : Der.fits c.encode = true) :
    Der.fits c.tbs.encode = true
      ∧ ∀ x ∈ c.tbs.extensions.getD [], Der.fits x.value = true := by
  have whole := Der.Element.fits_of_encode h
  have signed : Der.fits c.tbs.element.encode = true :=
    decide_eq_true (Nat.le_trans (Der.Element.length_le_encodeAll (by simp)) whole)
  refine ⟨signed, ?_⟩
  intro x hx
  cases extensions : c.tbs.extensions with
  | none =>
    rw [extensions] at hx
    cases hx
  | some es =>
    rw [extensions] at hx
    have fields := Der.Element.fits_of_encode signed
    rw [TbsCertificate.element_eq] at fields
    have field := Der.Element.fits_of_mem_sequence fields
      (TbsCertificate.extensionsField_mem extensions)
    have inner : x.element.Fits := Der.Element.fits_of_mem_sequence
      (Der.Element.fits_of_explicit field) (List.mem_map_of_mem hx)
    have value : (Der.Element.octets x.value).Fits :=
      Der.Element.fits_of_mem_sequence inner (List.mem_append_right _ (by simp))
    exact decide_eq_true value

end SignedCertificate

namespace Contents

/-- The signed fields of contents, whether they are in the range of a certificate or not. -/
def draft (c : Contents) : TbsCertificate where
  version := .v3
  serial := Der.integerContent c.serial
  algorithm := c.algorithm.identifier
  issuer := c.issuer
  notBefore := .draft c.validity.notBefore
  notAfter := .draft c.validity.notAfter
  subject := c.subject
  publicKeyInfo := ⟨c.publicKey.algorithm, .ofOctets c.publicKey.octets⟩
  issuerUniqueId := none
  subjectUniqueId := none
  extensions := if c.extensions.isEmpty then none else some c.extensions

def signedDraft (c : Contents) (signature : Bytes) : SignedCertificate :=
  ⟨c.draft, c.algorithm.identifier, .ofOctets signature⟩

theorem fits_signedDraft {c : Contents} {signature : Bytes}
    (room : c.draft.encode.length + c.algorithm.identifier.encode.length + signature.length + 13
      ≤ Der.lengthLimit) : Der.fits (c.signedDraft signature).encode = true := by
  have content : (Der.BitString.ofOctets signature).element.content.length
      ≤ signature.length + 1 := Nat.le_refl _
  have bits := Der.Element.encode_length_le_of_content content (by omega)
  have whole : (c.signedDraft signature).element.content.length
      ≤ c.draft.encode.length + c.algorithm.identifier.encode.length + signature.length + 7 := by
    rw [SignedCertificate.element, Der.Element.sequence, Der.Element.encodeAll_cons,
      Der.Element.encodeAll_cons, Der.Element.encodeAll_singleton, List.length_append,
      List.length_append]
    show c.draft.encode.length + (c.algorithm.identifier.encode.length
      + (Der.BitString.ofOctets signature).element.encode.length) ≤ _
    omega
  have := Der.Element.encode_length_le_of_content whole (by omega)
  exact decide_eq_true (Nat.le_trans this room)

/-- Dates and a key with a form leave it to the serial number whether contents have fields. -/
theorem toTbs_of_dates {c : Contents}
    (first : Time.ofInstant c.validity.notBefore = .ok (.draft c.validity.notBefore))
    (last : Time.ofInstant c.validity.notAfter = .ok (.draft c.validity.notAfter))
    (form : ∃ s, c.publicKey.toSpki = .ok s) :
    c.toTbs
      = if c.serial < 2 ^ 159 then .ok c.draft else .error (.encoding (.serial c.serial)) := by
  obtain ⟨s, form⟩ := form
  obtain ⟨same, -⟩ := PublicKey.toSpki_eq_ok form
  rw [toTbs, first, ok_bind, last, ok_bind, SerialNumber.toContent_eq]
  by_cases small : c.serial < 2 ^ 159
  · rw [if_pos small, if_pos small, ok_bind, form, ok_bind, same]
    rfl
  · rw [if_neg small, if_neg small]
    rfl

end Contents

namespace Template

section

variable {α : Type} [ExtensionValue α]

/-- The extension of a value that can be written, however long. -/
def optionalDraft (value : Option α) (critical : Bool) : List Extension :=
  (value.bind fun a => (ExtensionValue.element a).toOption).toList.map
    fun e => ⟨ExtensionValue.oid α, critical, e.encode⟩

theorem optional_of_draft {value : Option α} {critical : Bool}
    (written : ∀ a ∈ value, ∃ e, ExtensionValue.element a = .ok e)
    (fits : ∀ x ∈ optionalDraft value critical, Der.fits x.value = true) :
    optional value critical = .ok (optionalDraft value critical) := by
  cases value with
  | none => rfl
  | some a =>
    obtain ⟨e, element⟩ := written a rfl
    have draft : optionalDraft (some a) critical
        = [⟨ExtensionValue.oid α, critical, e.encode⟩] := by
      simp [optionalDraft, element, Except.toOption]
    rw [draft] at fits ⊢
    have small := fits ⟨ExtensionValue.oid α, critical, e.encode⟩ (by simp)
    rw [optional, Extension.ofValue, ExtensionValue.encode, element, ok_bind,
      withinLimit_eq_ok.mpr ⟨rfl, small⟩]
    rfl

end

def draftExtensions (t : Template) (subjectKeyId : Bytes) (authorityKeyId : Option Bytes) :
    List Extension :=
  optionalDraft t.basicConstraints true
    ++ optionalDraft (when (!t.keyUsage.isEmpty) t.keyUsage) true
    ++ optionalDraft (when (!t.purposes.isEmpty) (ExtendedKeyUsage.mk t.purposes)) false
    ++ optionalDraft (when (!t.dnsNames.isEmpty) (SubjectAltName.mk t.dnsNames)) false
    ++ optionalDraft (some (SubjectKeyIdentifier.mk subjectKeyId)) false
    ++ optionalDraft (authorityKeyId.map AuthorityKeyIdentifier.mk) false ++ t.extensions

theorem toExtensions_of_draft {t : Template} {subjectKeyId : Bytes} {authorityKeyId : Option Bytes}
    (ascii : ∀ name ∈ t.dnsNames, Der.isAscii (Der.utf8 name) = true)
    (fits : ∀ x ∈ t.draftExtensions subjectKeyId authorityKeyId, Der.fits x.value = true) :
    t.toExtensions subjectKeyId authorityKeyId
      = .ok (t.draftExtensions subjectKeyId authorityKeyId) := by
  simp only [draftExtensions, List.forall_mem_append] at fits
  obtain ⟨⟨⟨⟨⟨⟨constraints, usage⟩, purposes⟩, names⟩, subject⟩, authority⟩, -⟩ := fits
  have listed : ∀ a ∈ when (!t.dnsNames.isEmpty) (SubjectAltName.mk t.dnsNames),
      ∃ e, ExtensionValue.element a = .ok e := by
    intro a ha
    rw [when] at ha
    split at ha
    next =>
      cases Option.some.inj ha
      exact ⟨_, SubjectAltName.element_of_ascii ascii⟩
    next => cases ha
  rw [toExtensions, optional_of_draft (fun _ _ => ⟨_, rfl⟩) constraints, ok_bind,
    optional_of_draft (fun _ _ => ⟨_, rfl⟩) usage, ok_bind,
    optional_of_draft (fun _ _ => ⟨_, rfl⟩) purposes, ok_bind, optional_of_draft listed names,
    ok_bind,
    optional_of_draft (fun _ _ => ⟨_, rfl⟩) subject, ok_bind,
    optional_of_draft (fun _ _ => ⟨_, rfl⟩) authority, ok_bind]
  rfl

def draft (t : Template) (issuer : Issuer) (publicKey : PublicKey) (keyType : KeyType) : Contents :=
  ⟨t.serial, .ofKeyType keyType, issuer.nameFor t.subject.toName, t.validity, t.subject.toName,
    publicKey, t.draftExtensions (Sha1.hash publicKey.octets) issuer.authorityKeyId⟩

variable {t : Template} {issuer : Issuer} {publicKey : PublicKey} {key : KeyPair} {nonce : Nat}

theorem contents_of_draft {keyType : KeyType}
    (ascii : ∀ name ∈ t.dnsNames, Der.isAscii (Der.utf8 name) = true)
    (form : ∃ s, publicKey.toSpki = .ok s)
    (fits : ∀ x ∈ (t.draft issuer publicKey keyType).extensions, Der.fits x.value = true) :
    t.contents issuer publicKey keyType = .ok (t.draft issuer publicKey keyType) := by
  obtain ⟨s, form⟩ := form
  obtain ⟨rfl, -⟩ := PublicKey.toSpki_eq_ok form
  have identifier : publicKey.identifier = .ok (Sha1.hash publicKey.octets) := by
    rw [PublicKey.identifier, form]
    rfl
  rw [contents, identifier, ok_bind, toExtensions_of_draft ascii fits]
  rfl

theorem create_of_fields {c : Contents} {tbs : TbsCertificate} {signature : Bytes}
    (said : t.contents issuer publicKey key.keyType = .ok c) (fields : c.toTbs = .ok tbs)
    (small : Der.fits tbs.encode = true) (signs : key.sign nonce tbs.encode = .ok signature)
    (fits : Der.fits (SignedCertificate.encode
      ⟨tbs, c.algorithm.identifier, .ofOctets signature⟩) = true) :
    ∃ der, t.create issuer publicKey key nonce = .ok der := by
  have message : withinLimit tbs.encode = .ok tbs.encode := withinLimit_eq_ok.mpr ⟨rfl, small⟩
  have signed : t.signWith issuer publicKey key nonce
      = .ok ⟨tbs, c.algorithm.identifier, .ofOctets signature⟩ := by
    rw [signWith, said, ok_bind, fields, ok_bind, message, ok_bind, signs]
    rfl
  rw [create, signed, ok_bind]
  exact ⟨_, withinLimit_eq_ok.mpr ⟨rfl, fits⟩⟩

theorem create_of_refused {c : Contents} {e : Fault}
    (said : t.contents issuer publicKey key.keyType = .ok c) (refused : c.toTbs = .error e) :
    t.create issuer publicKey key nonce = .error e := by
  rw [create, signWith, said, ok_bind, refused]
  rfl

theorem range_of_create {der : Bytes} (created : t.create issuer publicKey key nonce = .ok der) :
    Time.ofInstant t.validity.notAfter = .ok (.draft t.validity.notAfter)
      ∧ t.serial < 2 ^ 159 := by
  obtain ⟨contents, tbs, signature, said, signed, -⟩ := create_eq_ok created
  obtain ⟨es, -, rfl⟩ := contents_eq_ok said
  obtain ⟨first, last, serial, info, -, date, number, -⟩ := Contents.toTbs_eq_ok signed
  cases Time.eq_draft_of_ofInstant date
  refine ⟨date, ?_⟩
  rw [SerialNumber.toContent_eq] at number
  split at number
  next small => exact small
  next => cases number

/-- Whether a certificate whose parts are in order is created depends on its serial number alone. -/
theorem create_of_draft {c : Contents} {signature : Bytes}
    (drafted : t.draft issuer publicKey key.keyType = c)
    (ascii : ∀ name ∈ t.dnsNames, Der.isAscii (Der.utf8 name) = true)
    (form : ∃ s, c.publicKey.toSpki = .ok s)
    (first : Time.ofInstant c.validity.notBefore = .ok (.draft c.validity.notBefore))
    (last : Time.ofInstant c.validity.notAfter = .ok (.draft c.validity.notAfter))
    (signs : key.sign nonce c.draft.encode = .ok signature)
    (fits : Der.fits (c.signedDraft signature).encode = true) :
    if c.serial < 2 ^ 159 then ∃ der, t.create issuer publicKey key nonce = .ok der
    else t.create issuer publicKey key nonce = .error (.encoding (.serial c.serial)) := by
  obtain ⟨small, values⟩ := SignedCertificate.fits_of_encode fits
  have listed : ∀ x ∈ c.extensions, Der.fits x.value = true := by
    rw [← Contents.getD_of_isEmpty c.extensions]
    exact values
  have fields := Contents.toTbs_of_dates first last form
  subst drafted
  have said := contents_of_draft ascii form listed
  split
  next short =>
    rw [if_pos short] at fields
    exact create_of_fields said fields small signs fits
  next long =>
    rw [if_neg long] at fields
    exact create_of_refused said fields

end Template

end CertAuthority
