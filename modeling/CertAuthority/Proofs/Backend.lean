import CertAuthority.Backend
import CertAuthority.Proofs.Certificate.Contents
import CertAuthority.Proofs.Template

namespace CertAuthority

/-- Who may issue a certificate: itself, a certificate that was read, or one of a chain. -/
inductive Signatory
  | itself
  | certificate (c : Certificate)
  | issued (c : IssuedCertificate)

namespace Signatory

/-- The name and the key identifier that a new certificate takes over. -/
def asIssuer : Signatory → Issuer
  | itself => .selfSigned
  | certificate c => c.asIssuer
  | issued c => c.asIssuer

theorem name_readable (s : Signatory) : ∀ n ∈ s.asIssuer.name, n.Readable := by
  intro n hn
  cases s with
  | itself => cases hn
  | certificate c =>
    cases Option.some.inj hn
    exact c.subject_readable
  | issued c =>
    cases Option.some.inj hn
    exact c.certificate.subject_readable

end Signatory

namespace Template

variable {t : Template} {issuer : Issuer} {publicKey : PublicKey} {key : KeyPair} {nonce : Nat}
  {der : Bytes}

/-- A certificate that says what a template, an issuer, the subject's key and the key that signs,
with its nonce, ask for. -/
structure ReflectedBy (t : Template) (authority : Issuer) (subjectKey : PublicKey)
    (signer : KeyPair) (nonce : Nat) (c : Certificate) : Prop where
  reencode : c.reencode = .ok c.der
  serial : c.serial = t.serial
  subjectName : c.contents.subject = t.subject.toName
  subject : c.subject = t.subject
  publicKey : c.publicKey = subjectKey
  validity : c.contents.validity = t.validity.wholeSeconds
  keyUsage : c.profile.keyUsage = t.keyUsage
  purposes : c.profile.purposes = t.purposes
  dnsNames : c.profile.dnsNames = t.dnsNames
  constrained : c.profile.basicConstraints.isSome = t.constrained
  isCa : c.isCa = (t.constrained && t.isCa)
  maxPathLength : c.maxPathLength = if t.constrained then t.maxPathLength else none
  issuerName : c.contents.issuer = authority.nameFor t.subject.toName
  issuer : c.issuer = (authority.name.map DistinguishedName.ofName).getD t.subject
  subjectKeyId : c.profile.subjectKeyId = some (Sha1.hash subjectKey.octets)
  authorityKeyId : c.profile.authorityKeyId = authority.authorityKeyId.filter (!·.isEmpty)
  extensions : t.toExtensions (Sha1.hash subjectKey.octets) authority.authorityKeyId
    = .ok c.contents.extensions
  algorithm : c.contents.algorithm = .ofKeyType signer.keyType
  signature : ∃ signature, signer.sign nonce c.signed.tbs.encode = .ok signature
    ∧ c.signed.signature = .ofOctets signature

theorem contents_eq_ok {keyType : KeyType} {c : Contents}
    (h : t.contents issuer publicKey keyType = .ok c) :
    ∃ es, t.toExtensions (Sha1.hash publicKey.octets) issuer.authorityKeyId = .ok es
      ∧ c = ⟨t.serial, .ofKeyType keyType, issuer.nameFor t.subject.toName, t.validity,
        t.subject.toName, publicKey, es⟩ := by
  obtain ⟨id, hid, h⟩ := bind_eq_ok.mp h
  obtain ⟨es, hes, h⟩ := bind_eq_ok.mp h
  rw [PublicKey.identifier_eq_ok hid] at hes
  exact ⟨es, hes, (Except.ok.inj h).symm⟩

/-- What it takes to create a certificate, and what is signed. -/
theorem create_eq_ok (h : t.create issuer publicKey key nonce = .ok der) :
    ∃ contents tbs signature, t.contents issuer publicKey key.keyType = .ok contents
      ∧ contents.toTbs = .ok tbs ∧ key.sign nonce tbs.encode = .ok signature
      ∧ der = SignedCertificate.encode ⟨tbs, contents.algorithm.identifier, .ofOctets signature⟩
      ∧ Der.fits der = true := by
  obtain ⟨signed, hs, h⟩ := bind_eq_ok.mp h
  obtain ⟨contents, hc, hs⟩ := bind_eq_ok.mp hs
  obtain ⟨tbs, ht, hs⟩ := bind_eq_ok.mp hs
  obtain ⟨message, hm, hs⟩ := bind_eq_ok.mp hs
  obtain ⟨signature, hk, hs⟩ := bind_eq_ok.mp hs
  cases Except.ok.inj hs
  obtain ⟨rfl, -⟩ := withinLimit_eq_ok.mp hm
  obtain ⟨rfl, fits⟩ := withinLimit_eq_ok.mp h
  exact ⟨contents, tbs, signature, hc, ht, hk, rfl, fits⟩

theorem toExtensions_readable {subjectKeyId : Bytes} {authorityKeyId : Option Bytes}
    {es : List Extension} (h : t.toExtensions subjectKeyId authorityKeyId = .ok es)
    (further : ∀ e ∈ t.extensions, e.Readable) : ∀ e ∈ es, e.Readable := by
  obtain ⟨s, rfl⟩ := exists_sections h
  have known : ∀ section' ∈ s.listed, section'.1.Readable := by
    simp only [Sections.listed, List.forall_mem_cons, List.not_mem_nil, false_imp_iff, implies_true,
      and_true]
    decide
  intro e he
  rcases List.mem_append.mp he with he | he
  · obtain ⟨section', mem, he⟩ := List.mem_flatMap.mp he
    rw [Extension.Readable, s.separate.tagged section' mem e he]
    exact known section' mem
  · exact further e he

theorem contents_readable {keyType : KeyType} {c : Contents}
    (h : t.contents issuer publicKey keyType = .ok c) (named : ∀ n ∈ issuer.name, n.Readable)
    (further : ∀ e ∈ t.extensions, e.Readable) : c.Readable := by
  obtain ⟨es, hes, rfl⟩ := contents_eq_ok h
  have own := t.subject.toName_readable
  refine ⟨?_, own, toExtensions_readable hes further⟩
  show (issuer.name.getD _).Readable
  cases name : issuer.name with
  | none => exact own
  | some n => exact named n name

theorem decode?_of_create {contents : Contents} {tbs : TbsCertificate} {signature : Bytes}
    (said : t.contents issuer publicKey key.keyType = .ok contents)
    (signed : contents.toTbs = .ok tbs) (named : ∀ n ∈ issuer.name, n.Readable)
    (further : ∀ e ∈ t.extensions, e.Readable)
    (fits : Der.fits (SignedCertificate.encode
      ⟨tbs, contents.algorithm.identifier, .ofOctets signature⟩) = true) :
    SignedCertificate.decode? (SignedCertificate.encode
        ⟨tbs, contents.algorithm.identifier, .ofOctets signature⟩)
      = some ⟨tbs, contents.algorithm.identifier, .ofOctets signature⟩ :=
  SignedCertificate.decode?_encode
    ⟨Contents.toTbs_readable signed (contents_readable said named further),
      contents.algorithm.identifier_readable, Der.BitString.ofOctets_readable signature⟩ fits

/-- A created certificate that can be read at all is for a key that is read back. -/
theorem survives_of_ofDer {c : Certificate}
    (created : t.create issuer publicKey key nonce = .ok der)
    (named : ∀ n ∈ issuer.name, n.Readable) (further : ∀ e ∈ t.extensions, e.Readable)
    (read : Certificate.ofDer der = .ok c) :
    publicKey.toSpki >>= PublicKey.ofSpki = .ok publicKey := by
  obtain ⟨contents, tbs, signature, said, signed, -, rfl, fits⟩ := create_eq_ok created
  have decoded := decode?_of_create said signed named further fits
  obtain ⟨whole, parts, -⟩ := c.reading_spec
  -- What was read is what was signed, and the key was read from there.
  rw [(Certificate.ofDer_eq_ok.mp read).1, decoded] at whole
  rw [← Option.some.inj whole] at parts
  obtain ⟨es, -, rfl⟩ := contents_eq_ok said
  exact Contents.ofTbs_toTbs_publicKey signed parts

/-- A created certificate for a key that is refused is refused for the same reason. -/
theorem ofDer_of_create_refused {e : Fault}
    (created : t.create issuer publicKey key nonce = .ok der)
    (named : ∀ n ∈ issuer.name, n.Readable) (further : ∀ e ∈ t.extensions, e.Readable)
    (refused : publicKey.toSpki >>= PublicKey.ofSpki = .error e) :
    Certificate.ofDer der = .error e := by
  obtain ⟨contents, tbs, signature, said, signed, -, rfl, fits⟩ := create_eq_ok created
  have decoded := decode?_of_create said signed named further fits
  obtain ⟨es, -, rfl⟩ := contents_eq_ok said
  apply Certificate.ofDer_of_refused
  rw [CertificateReading.ofDer, orMalformed_eq_ok.mpr decoded, ok_bind,
    Contents.ofTbs_toTbs_refused signed refused]
  rfl

/-- A created certificate is read back as what it was created from. -/
theorem reflected_of_create (created : t.create issuer publicKey key nonce = .ok der)
    (named : ∀ n ∈ issuer.name, n.Readable) (further : ∀ e ∈ t.extensions, e.Readable)
    (undisturbed : t.Undisturbed issuer.authorityKeyId)
    (survives : publicKey.toSpki >>= PublicKey.ofSpki = .ok publicKey) :
    ∃ c, Certificate.ofDer der = .ok c ∧ c.der = der
      ∧ t.ReflectedBy issuer publicKey key nonce c := by
  obtain ⟨contents, tbs, signature, said, signed, signs, rfl, fits⟩ := create_eq_ok created
  have readable := contents_readable said named further
  obtain ⟨es, hes, rfl⟩ := contents_eq_ok said
  have reading := CertificateReading.ofDer_encode
    (c := ⟨tbs, (SignatureAlgorithm.ofKeyType key.keyType).identifier, .ofOctets signature⟩) signed
    readable (SignatureAlgorithm.identifier_readable _) (Der.BitString.ofOctets_readable signature)
    fits survives (ofExtensions_toExtensions hes undisturbed)
  obtain ⟨c, read, bytes, parts⟩ := Certificate.exists_of_reading reading
  refine ⟨c, read, bytes, ?_⟩
  have whole : c.signed = ⟨tbs, (SignatureAlgorithm.ofKeyType key.keyType).identifier,
      .ofOctets signature⟩ := congrArg CertificateReading.signed parts
  have contents : c.contents = ⟨t.serial, .ofKeyType key.keyType,
      issuer.nameFor t.subject.toName, t.validity.wholeSeconds, t.subject.toName, publicKey, es⟩ :=
    congrArg CertificateReading.contents parts
  have profile : c.profile = t.profile (Sha1.hash publicKey.octets) issuer.authorityKeyId :=
    congrArg CertificateReading.profile parts
  have own := DistinguishedName.ofName_toName t.subject
  have constraints : c.profile.basicConstraints = t.basicConstraints := by rw [profile]; rfl
  exact {
    reencode := by
      rw [Certificate.reencode, whole, bytes]
      exact withinLimit_eq_ok.mpr ⟨rfl, fits⟩
    serial := by rw [Certificate.serial, contents]
    subjectName := by rw [contents]
    subject := by rw [Certificate.subject, contents, own]
    publicKey := by rw [Certificate.publicKey, contents]
    validity := by rw [contents]
    keyUsage := by rw [profile]; rfl
    purposes := by rw [profile]; rfl
    dnsNames := by rw [profile]; rfl
    constrained := by rw [constraints, basicConstraints_isSome]
    isCa := by
      rw [Certificate.isCa, constraints, basicConstraints]
      cases t.constrained with
      | false => rfl
      | true => rfl
    maxPathLength := by
      rw [Certificate.maxPathLength, constraints, basicConstraints]
      cases t.constrained with
      | false => rfl
      | true => rfl
    issuerName := by rw [contents]
    issuer := by
      rw [Certificate.issuer, contents]
      show DistinguishedName.ofName (issuer.name.getD _) = _
      cases issuer.name with
      | none => exact own
      | some n => rfl
    subjectKeyId := by rw [profile]; rfl
    authorityKeyId := by rw [profile]; rfl
    extensions := by rw [contents]; exact hes
    algorithm := by rw [contents]
    signature := ⟨signature, by rw [whole]; exact signs, by rw [whole]⟩ }

/-- Reading what the standard backend signed loses and invents nothing, whoever issues it. -/
theorem ofDer_of_create (t : Template) (signatory : Signatory) (publicKey : PublicKey)
    (key : KeyPair) (nonce : Nat) (der : Bytes)
    (created : t.create signatory.asIssuer publicKey key nonce = .ok der)
    (survives : publicKey.toSpki >>= PublicKey.ofSpki = .ok publicKey)
    (undisturbed : t.Undisturbed signatory.asIssuer.authorityKeyId)
    (legible : ∀ e ∈ t.extensions, e.oid.Readable) :
    ∃ c, Certificate.ofDer der = .ok c ∧ c.der = der
      ∧ t.ReflectedBy signatory.asIssuer publicKey key nonce c :=
  reflected_of_create created signatory.name_readable legible undisturbed survives

def sample (oid : Oid) : Template where
  serial := 1
  subject := ⟨["Acme", "Acme Ltd"], "Root"⟩
  validity := ⟨⟨1500000000, 0⟩, ⟨3600000000000, 0⟩⟩
  keyUsage := { digitalSignature := true, keyCertSign := true }
  purposes := [.serverAuth]
  constrained := true
  isCa := true
  extensions := [⟨oid, false, [5, 0]⟩]

set_option maxRecDepth 100000 in
def sampleKey : KeyPair := .ed25519 ⟨List.replicate 32 7, by decide +kernel⟩

set_option maxRecDepth 100000 in
theorem sampleKey_survives :
    sampleKey.publicKey.toSpki >>= PublicKey.ofSpki = .ok sampleKey.publicKey := by
  decide +kernel

set_option maxRecDepth 100000 in
theorem ofDer_of_create_sample :
    ∃ der c, (sample (.ofArcs [1, 2, 3, 4])).create Signatory.itself.asIssuer sampleKey.publicKey
        sampleKey 1 = .ok der
      ∧ Certificate.ofDer der = .ok c
      ∧ (sample (.ofArcs [1, 2, 3, 4])).ReflectedBy Signatory.itself.asIssuer sampleKey.publicKey
        sampleKey 1 c := by
  have works : ((sample (.ofArcs [1, 2, 3, 4])).create Signatory.itself.asIssuer
      sampleKey.publicKey sampleKey 1).isOk = true := by decide +kernel
  obtain ⟨der, created⟩ := exists_of_isOk works
  obtain ⟨c, read, -, reflected⟩ := ofDer_of_create _ .itself _ _ _ der created sampleKey_survives
    (by decide) (by decide)
  exact ⟨der, c, created, read, reflected⟩

set_option maxRecDepth 100000 in
/-- An identifier of three arcs in two octets can be written but not read. -/
theorem not_ofDer_of_create_sample :
    ∃ der, (sample (.ofArcs [1, 2, 3])).create Signatory.itself.asIssuer sampleKey.publicKey
        sampleKey 1 = .ok der
      ∧ sampleKey.publicKey.toSpki >>= PublicKey.ofSpki = .ok sampleKey.publicKey
      ∧ (sample (.ofArcs [1, 2, 3])).Undisturbed Signatory.itself.asIssuer.authorityKeyId
      ∧ ¬ ∃ c, Certificate.ofDer der = .ok c := by
  have works : ((sample (.ofArcs [1, 2, 3])).create Signatory.itself.asIssuer
      sampleKey.publicKey sampleKey 1).isOk = true := by decide +kernel
  have fails : ((sample (.ofArcs [1, 2, 3])).create Signatory.itself.asIssuer
      sampleKey.publicKey sampleKey 1 >>= CertificateReading.ofDer).isOk = false := by
    decide +kernel
  obtain ⟨der, created⟩ := exists_of_isOk works
  refine ⟨der, created, sampleKey_survives, by decide, ?_⟩
  rintro ⟨c, read⟩
  rw [created, ok_bind, (Certificate.ofDer_eq_ok.mp read).2] at fails
  cases fails

end Template

end CertAuthority
