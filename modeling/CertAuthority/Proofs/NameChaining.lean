import CertAuthority.Proofs.Backend

namespace CertAuthority

namespace Template

variable {t : Template} {issuer : Issuer} {publicKey : PublicKey} {key : KeyPair} {nonce : Nat}
  {der : Bytes}

theorem issuerField?_of_create (h : t.create issuer publicKey key nonce = .ok der) :
    SignedCertificate.issuerField? der = some (issuer.nameFor t.subject.toName).element := by
  obtain ⟨contents, tbs, signature, said, signed, -, rfl, fits⟩ := create_eq_ok h
  obtain ⟨es, -, rfl⟩ := contents_eq_ok said
  obtain ⟨notBefore, notAfter, serial, spki, -, -, -, -, rfl⟩ := Contents.toTbs_eq_ok signed
  exact SignedCertificate.issuerField?_encode fits

/-- A created certificate has the subject of its issuer, as it was read, for the name of the issuer.
Both fields are the same bytes exactly if each set in the subject field is in order. -/
theorem issuer_bytes_of_create (issuer : Certificate) (t : Template) (publicKey : PublicKey)
    (key : KeyPair) (nonce : Nat) (der : Bytes)
    (created : t.create issuer.asIssuer publicKey key nonce = .ok der) :
    ∃ own taken, SignedCertificate.subjectField? issuer.der = some own
      ∧ own.encode <:+: issuer.der
      ∧ SignedCertificate.issuerField? der = some taken
      ∧ taken.encode <:+: der
      ∧ taken.encode = issuer.contents.subject.encode
      ∧ (taken.encode = own.encode ↔ Name.InOrder own) := by
  obtain ⟨own, found, read⟩ := issuer.subjectField
  have placed := issuerField?_of_create created
  obtain ⟨readable, inside⟩ := SignedCertificate.readable_of_field? found
  obtain ⟨readable', inside'⟩ := SignedCertificate.readable_of_field? placed
  refine ⟨own, _, found, inside, placed, inside', rfl, ?_⟩
  rw [← Name.element_eq_iff read]
  constructor
  · exact Der.Element.eq_of_encode readable' readable
  · exact congrArg Der.Element.encode

/-- What an authority says that is named by a set of attributes. -/
def authority (attributes : List Attribute) : Contents where
  serial := 1
  algorithm := .ed25519
  issuer := ⟨[⟨attributes⟩]⟩
  validity := ⟨⟨0, 0⟩, ⟨3600000000000, 0⟩⟩
  subject := ⟨[⟨attributes⟩]⟩
  publicKey := sampleKey.publicKey
  extensions := []

/-- A certificate of the authority, with zeros for a signature. -/
def authorityDer (attributes : List Attribute) : Except Fault Bytes := do
  let tbs ← (authority attributes).toTbs
  withinLimit (SignedCertificate.encode
    ⟨tbs, SignatureAlgorithm.ed25519.identifier, .ofOctets (List.replicate 64 0)⟩)

def ordered : List Attribute :=
  [⟨DistinguishedName.commonNameOid, ⟨Der.Tag.utf8String, Der.utf8 "Root"⟩⟩,
    ⟨DistinguishedName.organizationOid, ⟨Der.Tag.utf8String, Der.utf8 "Acme"⟩⟩]

def disordered : List Attribute := ordered.reverse

theorem exists_authority {attributes : List Attribute}
    (works : (authorityDer attributes >>= CertificateReading.ofDer >>= fun reading =>
      (sample (.ofArcs [1, 2, 3, 4])).create ⟨some reading.contents.subject,
        reading.profile.subjectKeyId⟩ sampleKey.publicKey sampleKey 1).isOk = true) :
    ∃ (issuer : Certificate) (der : Bytes), authorityDer attributes = .ok issuer.der
      ∧ SignedCertificate.subjectField? issuer.der = some (authority attributes).subject.element
      ∧ (sample (.ofArcs [1, 2, 3, 4])).create issuer.asIssuer sampleKey.publicKey sampleKey 1
        = .ok der := by
  obtain ⟨der, made⟩ := exists_of_isOk works
  obtain ⟨reading, read, created⟩ := bind_eq_ok.mp made
  obtain ⟨b, encoded, read⟩ := bind_eq_ok.mp read
  obtain ⟨tbs, fields, limited⟩ := bind_eq_ok.mp encoded
  obtain ⟨rfl, fits⟩ := withinLimit_eq_ok.mp limited
  obtain ⟨notBefore, notAfter, serial, spki, -, -, -, -, rfl⟩ := Contents.toTbs_eq_ok fields
  exact ⟨⟨_, reading, read⟩, der, encoded, SignedCertificate.subjectField?_encode fits, created⟩

set_option maxRecDepth 100000 in
theorem issuer_bytes_of_create_sample :
    ∃ (issuer : Certificate) (der : Bytes) (own taken : Der.Element),
      authorityDer ordered = .ok issuer.der
      ∧ (sample (.ofArcs [1, 2, 3, 4])).create issuer.asIssuer sampleKey.publicKey sampleKey 1
        = .ok der
      ∧ SignedCertificate.subjectField? issuer.der = some own
      ∧ SignedCertificate.issuerField? der = some taken
      ∧ taken.encode = own.encode := by
  obtain ⟨issuer, der, encoded, subject, created⟩ := @exists_authority ordered (by decide +kernel)
  have order : Name.InOrder (authority ordered).subject.element := by decide +kernel
  obtain ⟨own, taken, found, -, placed, -, -, same⟩ :=
    issuer_bytes_of_create issuer _ _ _ _ der created
  cases Option.some.inj (subject.symm.trans found)
  exact ⟨issuer, der, _, taken, encoded, created, found, placed, same.mpr order⟩

set_option maxRecDepth 100000 in
/-- A set with the organization in front is read, but it is not written as it was read. -/
theorem not_issuer_bytes_of_create_sample :
    ∃ (issuer : Certificate) (der : Bytes) (own taken : Der.Element),
      authorityDer disordered = .ok issuer.der
      ∧ (sample (.ofArcs [1, 2, 3, 4])).create issuer.asIssuer sampleKey.publicKey sampleKey 1
        = .ok der
      ∧ SignedCertificate.subjectField? issuer.der = some own
      ∧ SignedCertificate.issuerField? der = some taken
      ∧ taken.encode ≠ own.encode := by
  obtain ⟨issuer, der, encoded, subject, created⟩ :=
    @exists_authority disordered (by decide +kernel)
  have disorder : ¬ Name.InOrder (authority disordered).subject.element := by decide +kernel
  obtain ⟨own, found, read⟩ := issuer.subjectField
  cases Option.some.inj (subject.symm.trans found)
  have placed := issuerField?_of_create created
  refine ⟨issuer, der, _, _, encoded, created, subject, placed, ?_⟩
  intro same
  have same' := Der.Element.eq_of_encode (SignedCertificate.readable_of_field? placed).1
    (SignedCertificate.readable_of_field? subject).1 same
  exact disorder ((Name.element_eq_iff read).mp same')

end Template

end CertAuthority
