import CertAuthority.Proofs.Backend
import CertAuthority.Proofs.Chain.Operation

namespace CertAuthority

/-- The identifiers of the extensions in order, each with whether it must be understood. -/
def Certificate.kinds (c : Certificate) : List (Oid × Bool) :=
  c.contents.extensions.map fun e => (e.oid, e.critical)

/-- The profile of an authority with a bound on the authorities below it. -/
structure Certificate.AuthorityProfile (c : Certificate) (name : String) (bound : Option UInt8)
    (namesKey : Bool) : Prop where
  isCa : c.isCa = true
  maxPathLength : c.maxPathLength = bound
  keyUsage : c.profile.keyUsage = { digitalSignature := true, keyCertSign := true }
  purposes : c.profile.purposes = [.serverAuth, .clientAuth]
  commonName : c.subject.commonName = name
  dnsNames : c.profile.dnsNames = []
  kinds : c.kinds = [(ExtensionValue.oid BasicConstraints, true),
    (ExtensionValue.oid KeyUsage, true), (ExtensionValue.oid ExtendedKeyUsage, false),
    (ExtensionValue.oid SubjectKeyIdentifier, false)]
      ++ if namesKey then [(ExtensionValue.oid AuthorityKeyIdentifier, false)] else []

/-- The profile of a server or a client. -/
structure Certificate.LeafProfile (c : Certificate) (name : String) (purpose : Purpose)
    (names : List String) (namesKey : Bool) : Prop where
  isCa : c.isCa = false
  maxPathLength : c.maxPathLength = none
  keyUsage : c.profile.keyUsage = { digitalSignature := true, keyEncipherment := true }
  purposes : c.profile.purposes = [purpose]
  commonName : c.subject.commonName = name
  dnsNames : c.profile.dnsNames = names
  kinds : c.kinds = [(ExtensionValue.oid BasicConstraints, true),
    (ExtensionValue.oid KeyUsage, true), (ExtensionValue.oid ExtendedKeyUsage, false)]
      ++ (if names.isEmpty then [] else [(ExtensionValue.oid SubjectAltName, false)])
      ++ [(ExtensionValue.oid SubjectKeyIdentifier, false)]
      ++ if namesKey then [(ExtensionValue.oid AuthorityKeyIdentifier, false)] else []

namespace Template.ReflectedBy

variable {t : Template} {issuer : Issuer} {publicKey : PublicKey} {key : KeyPair} {nonce : Nat}
  {c : Certificate}

theorem kinds (h : t.ReflectedBy issuer publicKey key nonce c) :
    c.kinds = ((t.kinds issuer.authorityKeyId).filter (·.wanted)).map
        (fun kind => (kind.oid, kind.critical))
      ++ t.extensions.map (fun e => (e.oid, e.critical)) :=
  kinds_of_toExtensions h.extensions

variable {serial : SerialNumber} {organization : Organization} {name : String} {validity : Validity}

theorem authorityProfile {bound : Option UInt8}
    (h : (Chain.authorityTemplate serial organization name validity bound).ReflectedBy issuer
      publicKey key nonce c) : c.AuthorityProfile name bound issuer.authorityKeyId.isSome where
  isCa := h.isCa
  maxPathLength := h.maxPathLength
  keyUsage := h.keyUsage
  purposes := h.purposes
  commonName := by rw [h.subject]; rfl
  dnsNames := h.dnsNames
  kinds := by
    rw [h.kinds]
    cases issuer.authorityKeyId <;> rfl

theorem leafProfile {purpose : Purpose} {names : List String}
    (h : (Chain.leafTemplate serial organization name validity purpose names).ReflectedBy issuer
      publicKey key nonce c) : c.LeafProfile name purpose names issuer.authorityKeyId.isSome where
  isCa := h.isCa
  maxPathLength := h.maxPathLength
  keyUsage := h.keyUsage
  purposes := h.purposes
  commonName := by rw [h.subject]; rfl
  dnsNames := h.dnsNames
  kinds := by
    rw [h.kinds]
    cases names <;> cases issuer.authorityKeyId <;> rfl

end Template.ReflectedBy

namespace IssuedCertificate

variable {c : IssuedCertificate} {name : String} {bound : Option UInt8} {purpose : Purpose}
  {names : List String} {namesKey : Bool}

theorem isAuthority_of_profile (h : c.certificate.AuthorityProfile name bound namesKey)
    (constrained : c.certificate.profile.basicConstraints.isSome = true) :
    c.isAuthority = true := by
  rw [isAuthority, constrained, h.isCa]
  rfl

theorem isServer_of_profile (h : c.certificate.LeafProfile name purpose names namesKey) :
    c.isServer = decide (purpose = .serverAuth) := by
  rw [isServer, h.purposes]
  cases purpose <;> rfl

theorem isClient_of_profile (h : c.certificate.LeafProfile name purpose names namesKey) :
    c.isClient = decide (purpose = .clientAuth) := by
  rw [isClient, h.purposes]
  cases purpose <;> rfl

end IssuedCertificate

namespace Chain.Operation

/-- What a certificate that was handed out has to do with the operation. -/
structure Issued (o : Operation) (now : Instant) (c : IssuedCertificate) : Prop where
  passes : o.Passes now
  organization : c.organization = o.organization.id
  signedBy : c.signedBy = o.signedBy
  reflected : ∃ validity publicKey key nonce, Validity.startingAt now o.expiration = .ok validity
    ∧ o.subjectKey = some publicKey ∧ o.signer.data = some key
    ∧ (o.template validity).ReflectedBy o.issuer publicKey key nonce c.certificate

theorem template_extensions (o : Operation) (validity : Validity) :
    (o.template validity).extensions = [] := by
  cases o with
  | root organization commonName key expiration => rfl
  | under r s => cases s <;> rfl

theorem further_readable (o : Operation) (validity : Validity) :
    ∀ e ∈ (o.template validity).extensions, e.Readable := by
  rw [template_extensions]
  simp

theorem undisturbed (o : Operation) (validity : Validity) (authorityKeyId : Option Bytes) :
    (o.template validity).Undisturbed authorityKeyId := by
  intro e he
  rw [template_extensions] at he
  simp at he

theorem template_serial (o : Operation) (validity : Validity) :
    (o.template validity).serial = o.serial := by
  cases o with
  | root organization commonName key expiration => rfl
  | under r s => cases s <;> rfl

theorem template_validity (o : Operation) (validity : Validity) :
    (o.template validity).validity = validity := by
  cases o with
  | root organization commonName key expiration => rfl
  | under r s => cases s <;> rfl

theorem template_organization (o : Operation) (validity : Validity) :
    (o.template validity).subject.organization = o.organization.names := by
  cases o with
  | root organization commonName key expiration => rfl
  | under r s => cases s <;> rfl

theorem template_constrained (o : Operation) (validity : Validity) :
    (o.template validity).constrained = true := by
  cases o with
  | root organization commonName key expiration => rfl
  | under r s => cases s <;> rfl

theorem issuer_name_readable (o : Operation) : ∀ n ∈ o.issuer.name, n.Readable := by
  cases o with
  | root organization commonName key expiration => exact Signatory.itself.name_readable
  | under r s => exact (Signatory.issued r.parent).name_readable

/-- With the standard backend a planned operation draws a nonce, and the answer follows from it. -/
theorem answer_standard {m : Type → Type} [Monad m] [LawfulMonad m] (random : RandomSource m)
    (nonces : m Nat) (o : Operation) (t : Template) (publicKey : PublicKey) (key : KeyPair) :
    o.answer (.standard random nonces) t publicKey key = (do
      let nonce ← nonces
      return do
        let der ← (t.create o.issuer publicKey key nonce).mapError .creation
        o.conclude (Certificate.ofDer der)) := by
  show ((nonces >>= fun nonce => pure (t.create o.issuer publicKey key nonce)) >>= _) = _
  rw [bind_assoc]
  apply bind_congr
  intro nonce
  rw [pure_bind]
  cases t.create o.issuer publicKey key nonce with
  | error e => rfl
  | ok der =>
    show (pure (Certificate.ofDer der) >>= _) = _
    rw [pure_bind]
    rfl

section

variable {σ : Type} (random : RandomSource (StateM σ)) (nonces : StateM σ Nat) {now : Instant}
  {o : Operation}

/-- An operation of which all checks pass draws a nonce and comes to what signing with it and
reading come to. -/
theorem run_of_passes (passes : o.Passes now) : ∃ validity publicKey key,
    Validity.startingAt now o.expiration = .ok validity ∧ o.subjectKey = some publicKey
      ∧ o.signer.data = some key
      ∧ ∀ s : σ, (o.perform (.standard random nonces) now).run.run s = (do
        let der ← ((o.template validity).create o.issuer publicKey key (nonces.run s).1).mapError
          .creation
        o.conclude (Certificate.ofDer der), (nonces.run s).2) := by
  obtain ⟨⟨t, publicKey⟩, planned⟩ := (o.plan_decides now).exists_ok passes
  obtain ⟨key, data⟩ := Option.isSome_iff_exists.mp passes.data
  obtain ⟨validity, span, rfl, subject⟩ := plan_eq_ok planned
  refine ⟨validity, publicKey, key, span, subject, data, ?_⟩
  intro s
  rw [run_perform_of_planned planned data, answer_standard]
  rfl

theorem run_of_not_passes (fails : ¬ o.Passes now) (s : σ) :
    ∃ f, (o.perform (.standard random nonces) now).run.run s = (.error (.input f), s) := by
  obtain ⟨f, refused⟩ := (o.plan_decides now).exists_input fails
  refine ⟨f, ?_⟩
  rw [run_perform_of_refused refused]
  rfl

variable {random nonces}

/-- A certificate that was handed out says what the template of its class and the issuer ask for. -/
theorem issued_of_perform {c : IssuedCertificate} {s s' : σ}
    (h : (o.perform (.standard random nonces) now).run.run s = (.ok c, s')) : o.Issued now c := by
  by_cases passes : o.Passes now
  · obtain ⟨validity, publicKey, key, span, subject, data, run⟩ :=
      run_of_passes random nonces passes
    rw [run] at h
    obtain ⟨der, made, concluded⟩ := bind_eq_ok.mp (congrArg Prod.fst h)
    obtain ⟨certificate, read, rfl⟩ := conclude_eq_ok.mp concluded
    have created := mapError_eq_ok.mp made
    have legible := o.further_readable validity
    -- The backend has read the certificate, so the key that it is for can be read.
    have survives := Template.survives_of_ofDer created o.issuer_name_readable legible read
    obtain ⟨certificate', read', -, reflected⟩ := Template.reflected_of_create created
      o.issuer_name_readable legible (o.undisturbed validity _) survives
    rw [read] at read'
    cases Except.ok.inj read'
    exact ⟨passes, rfl, rfl, validity, publicKey, key, _, span, subject, data, reflected⟩
  · obtain ⟨f, refused⟩ := run_of_not_passes random nonces passes s
    rw [refused] at h
    cases congrArg Prod.fst h

end

/-- Whether the certificate under which an operation issues has an identifier for its key. -/
def namesKey (o : Operation) : Bool := o.issuer.authorityKeyId.isSome

def ProfileOf (c : IssuedCertificate) (o : Operation) : Prop :=
  match o with
  | root _ commonName key _ =>
    c.certificate.AuthorityProfile commonName none false
      ∧ c.certificate.profile.authorityKeyId = none
      ∧ c.signedBy = c.serial ∧ c.signedBy = key.serial
      ∧ c.isRoot = true ∧ c.isIntermediate = false
  | under r (.intermediate commonName) =>
    c.certificate.AuthorityProfile commonName (some 0) o.namesKey ∧ c.signedBy = r.parent.serial
  | under r (.server dnsNames) =>
    (∃ commonName, dnsNames.head? = some commonName
      ∧ c.certificate.LeafProfile commonName .serverAuth dnsNames o.namesKey)
      ∧ c.signedBy = r.parent.serial ∧ c.isServer = true ∧ c.isClient = false
  | under r (.client commonName) =>
    c.certificate.LeafProfile commonName .clientAuth [] o.namesKey
      ∧ c.signedBy = r.parent.serial ∧ c.isServer = false ∧ c.isClient = true

/-- A certificate as an operation asks for it. -/
structure Certified (o : Operation) (c : IssuedCertificate) : Prop where
  organization : c.organization = o.organization.id
  names : c.certificate.subject.organization = o.organization.names
  serial : c.serial = o.serial
  publicKey : o.subjectKey = some c.certificate.publicKey
  distinct : (c.certificate.contents.extensions.map (·.oid)).Nodup
  constrained : c.certificate.profile.basicConstraints.isSome = true
    ∧ (ExtensionValue.oid BasicConstraints, true) ∈ c.certificate.kinds
  profile : o.ProfileOf c

theorem Issued.profile {o : Operation} {now : Instant} {c : IssuedCertificate}
    (h : o.Issued now c) : o.ProfileOf c := by
  obtain ⟨passes, -, signedBy, validity, publicKey, key, nonce, -, -, -, reflected⟩ := h
  cases o with
  | root organization commonName key expiration =>
    have profile := reflected.authorityProfile
    have noKey : c.certificate.profile.authorityKeyId = none := reflected.authorityKeyId
    have authority := IssuedCertificate.isAuthority_of_profile profile reflected.constrained
    have itself : c.certificate.isSelfSigned = true := by
      rw [Certificate.isSelfSigned, noKey]
      show (c.certificate.contents.issuer == c.certificate.contents.subject) = true
      rw [reflected.issuerName, reflected.subjectName]
      exact beq_self_eq_true _
    refine ⟨profile, noKey, ?_, signedBy, ?_, ?_⟩
    · rw [signedBy, IssuedCertificate.serial, reflected.serial]
      rfl
    · rw [IssuedCertificate.isRoot, authority, itself]
      rfl
    · rw [IssuedCertificate.isIntermediate, authority, itself]
      rfl
  | under r s =>
    cases s with
    | intermediate commonName => exact ⟨reflected.authorityProfile, signedBy⟩
    | server dnsNames =>
      obtain ⟨commonName, rest, rfl⟩ := List.exists_cons_of_ne_nil passes.names.1
      have profile := reflected.leafProfile
      exact ⟨⟨commonName, rfl, profile⟩, signedBy, IssuedCertificate.isServer_of_profile profile,
        IssuedCertificate.isClient_of_profile profile⟩
    | client commonName =>
      have profile := reflected.leafProfile
      exact ⟨profile, signedBy, IssuedCertificate.isServer_of_profile profile,
        IssuedCertificate.isClient_of_profile profile⟩

theorem Issued.certified {o : Operation} {now : Instant} {c : IssuedCertificate}
    (h : o.Issued now c) : o.Certified c := by
  obtain ⟨validity, publicKey, key, nonce, -, subject, -, reflected⟩ := h.reflected
  have kinds := reflected.kinds
  rw [template_extensions, List.map_nil, List.append_nil] at kinds
  exact {
    organization := h.organization
    names := by rw [reflected.subject, template_organization]
    serial := by rw [IssuedCertificate.serial, reflected.serial, template_serial]
    publicKey := by rw [subject, reflected.publicKey]
    distinct := by
      have oids : c.certificate.contents.extensions.map (·.oid)
          = c.certificate.kinds.map (·.1) := by
        simp [Certificate.kinds]
      rw [oids, kinds, List.map_map]
      exact (Template.kinds_nodup _ _).sublist (List.filter_sublist.map _)
    constrained := by
      have wanted := template_constrained o validity
      refine ⟨by rw [reflected.constrained, wanted], ?_⟩
      rw [kinds]
      exact List.mem_map.mpr ⟨⟨ExtensionValue.oid BasicConstraints, true,
        (o.template validity).constrained⟩, List.mem_filter.mpr ⟨by simp [Template.kinds], wanted⟩,
        rfl⟩
    profile := h.profile }

/-- Whatever the standard backend hands out is as the operation asks for it. -/
theorem certified_of_perform {σ : Type} (random : RandomSource (StateM σ)) (nonces : StateM σ Nat)
    (now : Instant) (o : Operation) (c : IssuedCertificate) (s s' : σ)
    (h : (o.perform (.standard random nonces) now).run.run s = (.ok c, s')) : o.Certified c :=
  (issued_of_perform h).certified

def sampleSource : RandomSource (StateM Unit) := ⟨fun _ => pure 1⟩

/-- A backend that draws nothing but ones. -/
def sampleBackend : Backend (StateM Unit) := .standard sampleSource (pure 1)

def sampleRoot : Operation :=
  .root ⟨"acme", ["Acme", "Acme Ltd"], by decide⟩ "Root" (.ofKeyPair 1 Template.sampleKey)
    ⟨3600000000000⟩

set_option maxRecDepth 100000 in
theorem certified_of_perform_sample :
    ∃ c, (sampleRoot.perform sampleBackend ⟨1500000000, 0⟩).run.run () = (.ok c, ())
      ∧ sampleRoot.Certified c := by
  have works : ((sampleRoot.perform sampleBackend ⟨1500000000, 0⟩).run.run ()).1.isOk
      = true := by decide +kernel
  obtain ⟨c, hc⟩ := exists_of_isOk works
  have run : (sampleRoot.perform sampleBackend ⟨1500000000, 0⟩).run.run ()
      = (.ok c, ()) := Prod.ext hc rfl
  exact ⟨c, run, certified_of_perform sampleSource (pure 1) ⟨1500000000, 0⟩ sampleRoot c () () run⟩

end Chain.Operation

end CertAuthority
