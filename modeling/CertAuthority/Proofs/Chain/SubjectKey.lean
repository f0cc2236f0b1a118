import CertAuthority.Proofs.Chain.Profile
import CertAuthority.Proofs.KeyPair

namespace CertAuthority

namespace Chain.Operation

/-- An operation ends without the certificate that was signed exactly if all checks pass and what
was signed cannot be read. -/
theorem unread_iff {σ : Type} (random : RandomSource (StateM σ)) (nonces : StateM σ Nat)
    (now : Instant) (o : Operation) (s : σ) (cause : Fault) :
    ((o.perform (.standard random nonces) now).run.run s).1 = .error (.parseAfterCreation cause)
      ↔ o.Passes now ∧ ∃ validity publicKey key der,
        Validity.startingAt now o.expiration = .ok validity ∧ o.subjectKey = some publicKey
          ∧ o.signer.data = some key
          ∧ (o.template validity).create o.issuer publicKey key (nonces.run s).1 = .ok der
          ∧ Certificate.ofDer der = .error cause := by
  by_cases passes : o.Passes now
  · obtain ⟨validity, publicKey, key, span, subject, data, run⟩ :=
      run_of_passes random nonces passes
    rw [run]
    constructor
    · intro unread
      cases made : (o.template validity).create o.issuer publicKey key (nonces.run s).1 with
      | error e =>
        rw [made] at unread
        cases unread
      | ok der =>
        rw [made] at unread
        obtain ⟨cause', read, same⟩ := conclude_eq_error.mp unread
        cases same
        exact ⟨passes, validity, publicKey, key, der, span, subject, data, made, read⟩
    · rintro ⟨-, validity', publicKey', key', der, span', subject', data', made, read⟩
      cases Except.ok.inj (span.symm.trans span')
      cases Option.some.inj (subject.symm.trans subject')
      cases Option.some.inj (data.symm.trans data')
      rw [made]
      exact conclude_eq_error.mpr ⟨cause, read, rfl⟩
  · obtain ⟨e, refused⟩ := run_of_not_passes random nonces passes s
    rw [refused]
    constructor
    · intro unread
      cases unread
    · intro h
      exact absurd h.1 passes

end Chain.Operation

namespace KeyPair

structure Certification (k : KeyPair) : Prop where
  form : ∃ s, k.publicKey.toSpki = .ok s
    ∧ PublicKey.ofSpki s = if k.isOversized then .error (.encoding .key) else .ok k.publicKey
  keyType : k.publicKey.keyType = k.keyType
  signed : ∀ (o : Chain.Operation) (validity : Validity) (signatory : Signatory) (signer : KeyPair)
    (nonce : Nat) (der : Bytes),
    (o.template validity).create signatory.asIssuer k.publicKey signer nonce = .ok der →
    if k.isOversized then Certificate.ofDer der = .error (.encoding .key)
    else ∃ c, Certificate.ofDer der = .ok c ∧ c.publicKey = k.publicKey
  root : ∀ {σ : Type} (random : RandomSource (StateM σ)) (nonces : StateM σ Nat) (now : Instant)
    (organization : Organization) (commonName : String) (serial : SerialNumber)
    (expiration : Duration) (s : σ) (cause : Fault),
    ((Chain.newRoot (.standard random nonces) now organization commonName (.ofKeyPair serial k)
        expiration).run.run s).1 = .error (.parseAfterCreation cause)
      ↔ k.isOversized = true ∧ cause = .encoding .key
        ∧ Field.caCommonName.brokenRule? commonName = none
        ∧ ∃ validity der, Validity.startingAt now expiration = .ok validity
          ∧ (Chain.authorityTemplate serial organization commonName validity none).create
            .selfSigned k.publicKey k (nonces.run s).1 = .ok der

theorem keyType_publicKey (k : KeyPair) : k.publicKey.keyType = k.keyType := by
  cases k <;> rfl

section

variable {k : KeyPair} {b : Bytes} (h : ofPkcs8 b = .ok k)

include h

theorem exists_form : ∃ s, k.publicKey.toSpki = .ok s
    ∧ PublicKey.ofSpki s = if k.isOversized then .error (.encoding .key) else .ok k.publicKey := by
  have form : k.publicKey.toSpki = .ok k.publicKey.form := by
    rw [PublicKey.toSpki, if_pos (fits_form h)]
  refine ⟨_, form, ?_⟩
  rw [PublicKey.ofSpki_toSpki form, isAccepted_publicKey]
  cases k.isOversized <;> rfl

theorem readBack : k.publicKey.toSpki >>= PublicKey.ofSpki
    = if k.isOversized then .error (.encoding .key) else .ok k.publicKey := by
  obtain ⟨s, form, read⟩ := exists_form h
  rw [form, ok_bind, read]

theorem ofDer_of_signed {t : Template} {issuer : Issuer} {signer : KeyPair} {nonce : Nat}
    {der : Bytes} (created : t.create issuer k.publicKey signer nonce = .ok der)
    (named : ∀ n ∈ issuer.name, n.Readable)
    (further : ∀ e ∈ t.extensions, e.Readable)
    (undisturbed : t.Undisturbed issuer.authorityKeyId) :
    if k.isOversized then Certificate.ofDer der = .error (.encoding .key)
    else ∃ c, Certificate.ofDer der = .ok c ∧ c.publicKey = k.publicKey := by
  have key := readBack h
  split
  next oversized =>
    rw [if_pos oversized] at key
    exact Template.ofDer_of_create_refused created named further key
  next room =>
    rw [if_neg room] at key
    obtain ⟨c, read, -, reflected⟩ := Template.reflected_of_create created named further undisturbed
      key
    exact ⟨c, read, reflected.publicKey⟩

end

/-- Every key that is read can be certified, and the certificate is read back, with the one
exception of RSA keys of too many bits. -/
theorem certification_of_ofPkcs8 (k : KeyPair) (b : Bytes) (h : ofPkcs8 b = .ok k) :
    k.Certification where
  form := exists_form h
  keyType := k.keyType_publicKey
  signed o validity signatory _ _ _ created := ofDer_of_signed h created signatory.name_readable
    (o.further_readable validity) (o.undisturbed validity _)
  root random nonces now organization commonName serial expiration s cause := by
    let o : Chain.Operation := .root organization commonName (.ofKeyPair serial k) expiration
    apply (Chain.Operation.unread_iff random nonces now o s cause).trans
    have outcome {validity : Validity} {der : Bytes}
        (created : (o.template validity).create .selfSigned k.publicKey k (nonces.run s).1
          = .ok der) :=
      ofDer_of_signed h created o.issuer_name_readable (o.further_readable validity)
        (o.undisturbed validity _)
    constructor
    · rintro ⟨passes, validity, publicKey, key, der, span, subject, data, created, unread⟩
      cases Option.some.inj subject
      cases Option.some.inj data
      have read := outcome created
      rw [unread] at read
      split at read
      next oversized =>
        cases Except.error.inj read
        exact ⟨oversized, rfl, passes.names, validity, der, span, created⟩
      next =>
        obtain ⟨c, read, -⟩ := read
        cases read
    · rintro ⟨oversized, rfl, names, validity, der, span, created⟩
      have unread := outcome created
      rw [if_pos oversized] at unread
      have time : (now.add? expiration).isSome = true :=
        (Validity.startingAt_decides now expiration).of_ok span
      have parent : ∀ p ∈ o.parent, o.signer.publicKey = some p.certificate.publicKey := by
        intro p hp
        cases hp
      exact ⟨⟨names, time, rfl, parent⟩, validity, k.publicKey, k, der, span, rfl, rfl, created,
        unread⟩

theorem certification_of_ofPkcs8_sample :
    ∃ b, ofPkcs8 b = .ok sample ∧ sample.isOversized = false ∧ sample.Certification := by
  have works : sample.toPkcs8.isOk = true := by decide +kernel
  obtain ⟨b, written⟩ := exists_of_isOk works
  have read := ofPkcs8_toPkcs8 written
  exact ⟨b, read, by decide, certification_of_ofPkcs8 sample b read⟩

def oversizedKey : Rsa.PrivateKey :=
  ⟨⟨(2 ^ 2052 + 1) * (2 ^ 2050 + 1), 3⟩, (2 ^ 2053 + 1) / 3, 2 ^ 2052 + 1, 2 ^ 2050 + 1,
    by decide +kernel⟩

def oversizedSample : KeyPair := .rsa oversizedKey

/-- A key of more than 4096 bits is read from its envelope, but not from its form in a
certificate. -/
theorem not_readBack_oversizedSample :
    ∃ b s, ofPkcs8 b = .ok oversizedSample ∧ oversizedSample.publicKey.toSpki = .ok s
      ∧ PublicKey.ofSpki s = .error (.encoding .key) := by
  have oversized : oversizedSample.isOversized = true := by decide +kernel
  have envelope : ∃ b, oversizedSample.toPkcs8 = .ok b :=
    @exists_toPkcs8 oversizedKey 600 (by decide +kernel) (by decide)
  obtain ⟨b, written⟩ := envelope
  have read := ofPkcs8_toPkcs8 written
  obtain ⟨s, form, refused⟩ := exists_form read
  simp only [oversized, if_true] at refused
  exact ⟨b, s, read, form, refused⟩

end KeyPair

end CertAuthority
