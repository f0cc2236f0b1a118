import CertAuthority.Proofs.Chain.Profile
import CertAuthority.Proofs.Draft
import CertAuthority.Proofs.KeyPair

namespace CertAuthority.Chain

theorem Subordinate.ascii_of_namesPass {s : Subordinate} (pass : s.NamesPass) (r : Request)
    (validity : Validity) :
    ∀ name ∈ (s.template r validity).dnsNames, Der.isAscii (Der.utf8 name) = true := by
  cases s with
  | intermediate commonName => simp [template, authorityTemplate]
  | server dnsNames =>
    intro name hn
    exact Der.isAscii_utf8 (Field.ascii_of_dnsName (pass.2 name hn))
  | client commonName => simp [template, leafTemplate]

namespace Operation

theorem ascii_of_namesPass {o : Operation} (pass : o.NamesPass) (validity : Validity) :
    ∀ name ∈ (o.template validity).dnsNames, Der.isAscii (Der.utf8 name) = true := by
  cases o with
  | root organization commonName key expiration => simp [template, authorityTemplate]
  | under r s => exact s.ascii_of_namesPass pass r validity

/-- A valid operation, apart from its serial number: names, key and time are in order. -/
structure Valid (o : Operation) (now : Instant) : Prop where
  names : o.NamesPass
  data : o.signer.data.isSome = true
  parent : ∀ p ∈ o.parent, o.signer.publicKey = some p.certificate.publicKey
  time : ∃ last, now.add? o.expiration = some last ∧ 0 ≤ last.nanos
    ∧ last.nanos ≤ Instant.lastSecond * Duration.perSecond

/-- What the checks of an operation do not look at: the subject's key is read back, and the key that
signs does so with a nonce, within the limit on lengths. -/
structure Feasible (o : Operation) (now : Instant) (nonce : Nat) : Prop where
  survives : ∀ publicKey ∈ o.subjectKey,
    publicKey.toSpki >>= PublicKey.ofSpki = .ok publicKey
  signs : ∀ validity publicKey key, Validity.startingAt now o.expiration = .ok validity →
    o.subjectKey = some publicKey → o.signer.data = some key →
    ∃ signature,
      key.sign nonce ((o.template validity).draft o.issuer publicKey key.keyType).draft.encode
        = .ok signature
      ∧ Der.fits (((o.template validity).draft o.issuer publicKey key.keyType).signedDraft
        signature).encode = true

theorem Valid.passes {o : Operation} {now : Instant} (h : o.Valid now) : o.Passes now := by
  obtain ⟨last, sum, -⟩ := h.time
  exact ⟨h.names, by rw [sum]; rfl, h.data, h.parent⟩

variable {o : Operation} {now : Instant} {validity : Validity} {publicKey : PublicKey}
  {key : KeyPair} {nonce : Nat}

/-- The certificate of a valid operation is created unless its serial number is too large. -/
theorem Valid.create (valid : o.Valid now) (utc : now.offset = 0)
    (present : 0 ≤ now.nanos ∧ now.nanos ≤ Instant.lastSecond * Duration.perSecond)
    (feasible : o.Feasible now nonce)
    (span : Validity.startingAt now o.expiration = .ok validity)
    (subject : o.subjectKey = some publicKey) (data : o.signer.data = some key) :
    if o.serial < 2 ^ 159 then
      ∃ der, (o.template validity).create o.issuer publicKey key nonce = .ok der
    else (o.template validity).create o.issuer publicKey key nonce
      = .error (.encoding (.serial o.serial)) := by
  obtain ⟨last, sum, range⟩ := valid.time
  obtain ⟨last', sum', rfl⟩ := Validity.startingAt_eq_ok.mp span
  cases Option.some.inj (sum.symm.trans sum')
  obtain ⟨signature, signs, fits⟩ := feasible.signs _ publicKey key span subject data
  obtain ⟨s, form, -⟩ := bind_eq_ok.mp (feasible.survives publicKey subject)
  have first : Time.ofInstant now = .ok (.draft now) :=
    (Time.ofInstant_eq_draft_iff utc).mpr present
  have final : Time.ofInstant last = .ok (.draft last) :=
    (Time.ofInstant_eq_draft_iff ((Instant.add?_offset sum).trans utc)).mpr range
  have created := Template.create_of_draft rfl (ascii_of_namesPass valid.names _) ⟨s, form⟩
    (by rw [Template.draft, template_validity]; exact first)
    (by rw [Template.draft, template_validity]; exact final) signs fits
  have serial : ((o.template ⟨now, last⟩).draft o.issuer publicKey key.keyType).serial = o.serial :=
    o.template_serial ⟨now, last⟩
  rw [serial] at created
  exact created

theorem conclude_of_create {der : Bytes}
    (survives : publicKey.toSpki >>= PublicKey.ofSpki = .ok publicKey)
    (created : (o.template validity).create o.issuer publicKey key nonce = .ok der) :
    ∃ c, o.conclude (Certificate.ofDer der) = .ok c := by
  obtain ⟨certificate, read, -⟩ := Template.reflected_of_create created o.issuer_name_readable
    (o.further_readable validity) (o.undisturbed validity _) survives
  exact ⟨_, conclude_eq_ok.mpr ⟨certificate, read, rfl⟩⟩

/-- An operation that is feasible at a time with a date in UTC succeeds exactly if it is valid and
its serial number has at most 159 bits. A valid one with a larger number is refused for that
number. -/
theorem perform_ok_iff {σ : Type} (random : RandomSource (StateM σ)) (nonces : StateM σ Nat)
    (now : Instant) (o : Operation) (s : σ) (utc : now.offset = 0)
    (present : 0 ≤ now.nanos ∧ now.nanos ≤ Instant.lastSecond * Duration.perSecond)
    (feasible : o.Feasible now (nonces.run s).1) :
    ((∃ c, ((o.perform (.standard random nonces) now).run.run s).1 = .ok c)
        ↔ o.Valid now ∧ o.serial < 2 ^ 159)
      ∧ (o.Valid now → 2 ^ 159 ≤ o.serial →
        ((o.perform (.standard random nonces) now).run.run s).1
          = .error (.creation (.encoding (.serial o.serial)))) := by
  refine ⟨⟨?_, ?_⟩, ?_⟩
  · rintro ⟨c, ended⟩
    by_cases passes : o.Passes now
    · obtain ⟨validity, publicKey, key, span, subject, data, run⟩ :=
        run_of_passes random nonces passes
      rw [run] at ended
      obtain ⟨der, made, -⟩ := bind_eq_ok.mp ended
      obtain ⟨date, small⟩ := Template.range_of_create (mapError_eq_ok.mp made)
      obtain ⟨last, sum, rfl⟩ := Validity.startingAt_eq_ok.mp span
      rw [template_validity] at date
      rw [template_serial] at small
      have range := (Time.ofInstant_eq_draft_iff ((Instant.add?_offset sum).trans utc)).mp date
      exact ⟨⟨passes.names, passes.data, passes.parent, last, sum, range⟩, small⟩
    · obtain ⟨f, refused⟩ := run_of_not_passes random nonces passes s
      rw [refused] at ended
      cases ended
  · rintro ⟨valid, small⟩
    obtain ⟨validity, publicKey, key, span, subject, data, run⟩ :=
      run_of_passes random nonces valid.passes
    have created := valid.create utc present feasible span subject data
    rw [if_pos small] at created
    obtain ⟨der, created⟩ := created
    rw [run, created]
    exact conclude_of_create (feasible.survives publicKey subject) created
  · intro valid large
    obtain ⟨validity, publicKey, key, span, subject, data, run⟩ :=
      run_of_passes random nonces valid.passes
    have refused := valid.create utc present feasible span subject data
    rw [if_neg (Nat.not_lt.mpr large)] at refused
    rw [run, refused]
    rfl

theorem feasible_of_short {organization : Organization} {commonName : String}
    {serial : SerialNumber} {key : Ed25519.PrivateKey} {expiration : Duration} {now : Instant}
    {nonce : Nat}
    (survives : (KeyPair.ed25519 key).publicKey.toSpki >>= PublicKey.ofSpki
      = .ok (KeyPair.ed25519 key).publicKey)
    (short : ∀ last, now.add? expiration = some last →
      ((template ⟨now, last⟩ (.root organization commonName (.ofKeyPair serial (.ed25519 key))
        expiration)).draft .selfSigned (KeyPair.ed25519 key).publicKey .ed25519).draft.encode.length
        ≤ 1000) :
    (root organization commonName (.ofKeyPair serial (.ed25519 key)) expiration).Feasible now
      nonce where
  survives publicKey subject := by
    cases Option.some.inj subject
    exact survives
  signs validity publicKey key' span subject data := by
    cases Option.some.inj subject
    cases Option.some.inj data
    obtain ⟨last, sum, rfl⟩ := Validity.startingAt_eq_ok.mp span
    refine ⟨_, rfl, Contents.fits_signedDraft ?_⟩
    have fields := short last sum
    have identifier : (SignatureAlgorithm.ofKeyType .ed25519).identifier.encode.length = 7 := by
      decide +kernel
    have front := Nat.add_le_add fields (Nat.le_of_eq identifier)
    refine Nat.le_trans (Nat.add_le_add_right
      (Nat.add_le_add front (Ed25519.sign_length_le key _)) 13) ?_
    decide

/-- The last second of the year 9999 is only half over. -/
def lateInstant : Instant := ⟨Instant.lastSecond * Duration.perSecond + 500000000, 0⟩

/-- A root that was good until the day before it is issued. -/
def expiredRoot : Operation :=
  .root sampleRoot.organization "Root" (.ofKeyPair 1 Template.sampleKey)
    ⟨-86400 * Duration.perSecond⟩

set_option maxRecDepth 100000 in
theorem sampleRoot_feasible : sampleRoot.Feasible ⟨1500000000, 0⟩ 1 := by
  apply feasible_of_short Template.sampleKey_survives
  intro last sum
  cases Option.some.inj (sum.symm.trans rfl)
  decide +kernel

theorem perform_ok_iff_sample :
    sampleRoot.Feasible ⟨1500000000, 0⟩ 1 ∧ sampleRoot.Valid ⟨1500000000, 0⟩
      ∧ sampleRoot.serial < 2 ^ 159
      ∧ ∃ c, ((sampleRoot.perform sampleBackend ⟨1500000000, 0⟩).run.run ()).1
        = .ok c := by
  have valid : sampleRoot.Valid ⟨1500000000, 0⟩ := {
    names := show Field.caCommonName.brokenRule? "Root" = none by decide
    data := rfl
    parent := by simp [parent, sampleRoot]
    time := ⟨_, rfl, by decide, by decide⟩ }
  have small : sampleRoot.serial < 2 ^ 159 := by decide
  have ends := perform_ok_iff sampleSource (pure 1) ⟨1500000000, 0⟩ sampleRoot () rfl (by decide)
    sampleRoot_feasible
  exact ⟨sampleRoot_feasible, valid, small, ends.1.mpr ⟨valid, small⟩⟩

set_option maxRecDepth 100000 in
/-- In the second half of the last second of 9999 nothing is issued, however valid. -/
theorem not_perform_ok_sample :
    expiredRoot.Feasible lateInstant 1 ∧ expiredRoot.Valid lateInstant
      ∧ expiredRoot.serial < 2 ^ 159
      ∧ lateInstant.offset = 0 ∧ lateInstant.seconds = Instant.lastSecond
      ∧ ((expiredRoot.perform sampleBackend lateInstant).run.run ()).1
        = .error (.creation .malformed) := by
  have feasible : expiredRoot.Feasible lateInstant 1 := by
    apply feasible_of_short Template.sampleKey_survives
    intro last sum
    cases Option.some.inj (sum.symm.trans rfl)
    decide +kernel
  have valid : expiredRoot.Valid lateInstant := {
    names := show Field.caCommonName.brokenRule? "Root" = none by decide
    data := rfl
    parent := by simp [parent, expiredRoot]
    time := ⟨_, rfl, by decide, by decide⟩ }
  have refused : ((expiredRoot.perform sampleBackend lateInstant).run.run ()).1
      = .error (.creation .malformed) := by decide +kernel
  exact ⟨feasible, valid, by decide, rfl, by decide, refused⟩

end Operation

end CertAuthority.Chain
