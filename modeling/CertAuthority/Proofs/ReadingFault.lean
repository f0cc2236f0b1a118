import CertAuthority.Proofs.Certificate.Decode
import CertAuthority.Proofs.KeyPair

namespace CertAuthority

/-- Whether a fault is one of what was read: its form, or the kind of its key. -/
def Fault.IsParsing : Fault → Prop
  | .decoding _ => True
  | .unsupportedKeyType _ => True
  | _ => False

/-- A step that ends with the fault of keys that cannot be written exactly if a condition holds,
and otherwise with no fault but one of what was read. -/
def Reports {α : Type} (x : Except Fault α) (misfit : Prop) : Prop :=
  (misfit ∧ x = .error (.encoding .key)) ∨ (¬ misfit ∧ ∀ e, x = .error e → e.IsParsing)

namespace Reports

variable {α β : Type} {x : Except Fault α} {p q : Prop}

theorem iff (h : Reports x p) (same : p ↔ q) : Reports x q := by rwa [← propext same]

/-- A sequence of two steps ends with the fault of the first one that does not succeed. -/
theorem bind {f : α → Except Fault β} {r : α → Prop} (first : Reports x p)
    (second : ∀ a, x = .ok a → Reports (f a) (r a)) :
    Reports (x >>= f) (p ∨ ∃ a, x = .ok a ∧ r a) := by
  rcases first with ⟨hp, hx⟩ | ⟨hp, hx⟩
  · rw [hx]
    exact Or.inl ⟨Or.inl hp, rfl⟩
  · cases done : x with
    | error e =>
      refine Or.inr ⟨?_, fun e' same => ?_⟩
      · rintro (yes | ⟨a, never, -⟩)
        · exact hp yes
        · cases never
      · cases Except.error.inj same
        exact hx e done
    | ok a =>
      rcases second a done with ⟨hr, hf⟩ | ⟨hr, hf⟩
      · exact Or.inl ⟨Or.inr ⟨a, rfl, hr⟩, hf⟩
      · refine Or.inr ⟨?_, hf⟩
        rintro (yes | ⟨a', same, hr'⟩)
        · exact hp yes
        · cases Except.ok.inj same
          exact hr hr'

/-- Behind a step without the condition, that of what follows is left. -/
theorem parsing_bind {f : α → Except Fault β} (r : α → Prop) (first : Reports x False)
    (second : ∀ a, x = .ok a → Reports (f a) (r a)) :
    Reports (x >>= f) (∃ a, x = .ok a ∧ r a) :=
  (first.bind second).iff (by rw [false_or])

/-- In front of what follows without the condition, that of the first step is left. -/
theorem bind_parsing {f : α → Except Fault β} (first : Reports x p)
    (second : ∀ a, x = .ok a → Reports (f a) False) : Reports (x >>= f) p :=
  (first.bind (r := fun _ => False) second).iff (by simp)

theorem map (h : Reports x p) (f : α → β) : Reports (x.map f) p := by
  rcases h with ⟨hp, rfl⟩ | ⟨hp, hx⟩
  · exact Or.inl ⟨hp, rfl⟩
  · refine Or.inr ⟨hp, fun e failed => hx e ?_⟩
    cases x with
    | error e' => rw [Except.error.inj failed]
    | ok a => cases failed

theorem ok (a : α) : Reports (.ok a) False := Or.inr ⟨id, by simp⟩

theorem error {e : Fault} (h : e.IsParsing) (other : ¬ p) :
    Reports (.error e : Except Fault α) p := by
  refine Or.inr ⟨other, ?_⟩
  rintro _ ⟨⟩
  exact h

theorem orMalformed (o : Option α) : Reports (CertAuthority.orMalformed o) False := by
  cases o with
  | none => exact error trivial id
  | some a => exact ok a

end Reports

namespace Oid

/-- The arcs of an identifier that was read can be told. -/
theorem Readable.isLegible {o : Oid} (h : o.Readable) : o.isLegible = true := by
  unfold Readable ofContent? at h
  split at h
  next fit => exact fit.2
  next => cases h

end Oid

/-- The name of a curve, if it is what the parameters are. -/
def AlgorithmIdentifier.curveName? (a : AlgorithmIdentifier) : Option Oid :=
  a.parameters.bind Oid.ofElement?

namespace SubjectPublicKeyInfo

/-- Whether the algorithm is one whose keys are read, on a curve that is known. -/
def IsSupported (s : SubjectPublicKeyInfo) : Prop :=
  s.algorithm.oid = rsaOid ∨ s.algorithm.oid = ed25519Oid
    ∨ s.algorithm.oid = ecdsaOid ∧ (s.algorithm.curveName?.bind NistCurve.ofOid?).isSome = true

/-- Whether a form within the limit on lengths has an algorithm whose keys are read, but is that of
none of them. -/
def IsMisfit (s : SubjectPublicKeyInfo) : Prop :=
  Der.fits s.encode = true ∧ s.IsSupported ∧ ∀ k, PublicKey.ofSpki s ≠ .ok k

theorem isSupported_of_ecdsa {s : SubjectPublicKeyInfo} (h : s.algorithm.oid = ecdsaOid) :
    s.IsSupported ↔ (s.algorithm.curveName?.bind NistCurve.ofOid?).isSome = true := by
  have rsa : ecdsaOid ≠ rsaOid := by decide
  have ed25519 : ecdsaOid ≠ ed25519Oid := by decide
  simp [IsSupported, h, rsa, ed25519]

end SubjectPublicKeyInfo

namespace PublicKey

variable {s : SubjectPublicKeyInfo}

theorem orBadKey_cases (o : Option PublicKey) :
    orBadKey o = .error (.encoding .key) ∨ ∃ k, orBadKey o = .ok k := by
  cases o with
  | none => exact Or.inl rfl
  | some k => exact Or.inr ⟨k, rfl⟩

/-- A form with a supported algorithm is that of a key or told as one that cannot be written. One
with another algorithm is of a kind that is not handled, or names no curve. -/
theorem ofFitting_cases (legible : s.algorithm.oid.isLegible = true) :
    (s.IsSupported ∧ (ofFitting s = .error (.encoding .key) ∨ ∃ k, ofFitting s = .ok k))
      ∨ (¬ s.IsSupported ∧ ∃ e, ofFitting s = .error e ∧ e.IsParsing) := by
  unfold ofFitting
  by_cases rsa : s.algorithm.oid = rsaOid
  · rw [if_pos rsa]
    exact Or.inl ⟨Or.inl rsa, orBadKey_cases _⟩
  rw [if_neg rsa]
  by_cases ecdsa : s.algorithm.oid = ecdsaOid
  · rw [if_pos ecdsa, SubjectPublicKeyInfo.isSupported_of_ecdsa ecdsa,
      AlgorithmIdentifier.curveName?]
    cases s.algorithm.parameters with
    | none => exact Or.inr ⟨by simp, _, rfl, trivial⟩
    | some e =>
      simp only [Option.bind_some]
      cases Oid.ofElement? e with
      | none => exact Or.inr ⟨by simp, _, rfl, trivial⟩
      | some id =>
        simp only [Option.bind_some]
        cases NistCurve.ofOid? id with
        | none => exact Or.inr ⟨by simp, _, rfl, trivial⟩
        | some curve => exact Or.inl ⟨rfl, orBadKey_cases _⟩
  rw [if_neg ecdsa]
  by_cases ed25519 : s.algorithm.oid = ed25519Oid
  · rw [if_pos ed25519]
    exact Or.inl ⟨Or.inr (Or.inl ed25519), orBadKey_cases _⟩
  rw [if_neg ed25519, if_pos legible]
  refine Or.inr ⟨?_, _, rfl, trivial⟩
  rintro (h | h | ⟨h, -⟩)
  · exact rsa h
  · exact ed25519 h
  · exact ecdsa h

theorem ofSpki_reports (legible : s.algorithm.oid.isLegible = true) :
    Reports (ofSpki s) s.IsMisfit := by
  by_cases fits : Der.fits s.encode = true
  · have read : ofSpki s = ofFitting s := by rw [ofSpki, if_pos fits]
    rw [SubjectPublicKeyInfo.IsMisfit, read]
    rcases ofFitting_cases legible with ⟨supported, failed | ⟨k, done⟩⟩ | ⟨other, e, failed, kind⟩
    · exact Or.inl ⟨⟨fits, supported, by simp [failed]⟩, failed⟩
    · exact Or.inr ⟨fun h => h.2.2 k done, by simp [done]⟩
    · refine Or.inr ⟨fun h => other h.2.1, fun e' failed' => ?_⟩
      cases Except.error.inj (failed.symm.trans failed')
      exact kind
  · rw [ofSpki, if_neg fits]
    exact .error trivial fun misfit => fits misfit.1

/-- An algorithm that cannot be told is none of the supported ones. -/
theorem ofSpki_illegible (illegible : s.algorithm.oid.isLegible = false)
    (fits : Der.fits s.encode = true) : ofSpki s = .error .arcOverflow := by
  have different {o : Oid} (h : o.isLegible = true) : s.algorithm.oid ≠ o := by
    rintro rfl
    rw [h] at illegible
    cases illegible
  rw [ofSpki, if_pos fits, ofFitting, if_neg (different (by decide)),
    if_neg (different (by decide)), if_neg (different (by decide)), if_neg (by simp [illegible])]

end PublicKey

theorem SignatureAlgorithm.ofOid_reports {o : Oid} (legible : o.isLegible = true) :
    Reports (ofOid o) False := by
  unfold ofOid
  split
  next => exact .ok _
  next =>
    rw [if_pos legible]
    exact .error trivial id

namespace Profile

theorem find_reports (α : Type) [ExtensionValue α] (es : List Extension) :
    Reports (Extension.find α es) False := by
  unfold Extension.find
  split
  next => exact .ok _
  next => exact (Reports.orMalformed _).map some

theorem ofExtensions_reports (es : List Extension) : Reports (ofExtensions es) False :=
  (find_reports _ es).bind_parsing fun _ _ => (find_reports _ es).bind_parsing fun _ _ =>
    (find_reports _ es).bind_parsing fun _ _ => (find_reports _ es).bind_parsing fun _ _ =>
    (find_reports _ es).bind_parsing fun _ _ => (find_reports _ es).bind_parsing fun _ _ => .ok _

end Profile

namespace Certificate

/-- Whether bytes are those of a certificate for a key that does not fit its algorithm. -/
def HasMisfit (der : Bytes) : Prop :=
  ∃ c, SignedCertificate.decode? der = some c ∧ c.tbs.publicKeyInfo.IsMisfit

theorem ofTbs_reports {t : TbsCertificate} (key : t.publicKeyInfo.algorithm.oid.isLegible = true)
    (algorithm : t.algorithm.oid.isLegible = true) :
    Reports (Contents.ofTbs t) t.publicKeyInfo.IsMisfit :=
  (PublicKey.ofSpki_reports key).bind_parsing fun _ _ =>
    (SignatureAlgorithm.ofOid_reports algorithm).bind_parsing fun _ _ => .ok _

theorem legible_of_decode? {der : Bytes} {c : SignedCertificate}
    (h : SignedCertificate.decode? der = some c) :
    c.tbs.publicKeyInfo.algorithm.oid.isLegible = true
      ∧ c.tbs.algorithm.oid.isLegible = true := by
  obtain ⟨fields, -, readFrom⟩ := SignedCertificate.readFrom_of_decode? h
  obtain ⟨key, -, read⟩ := Option.bind_eq_some_iff.mp readFrom.publicKeyInfo
  obtain ⟨algorithm, -, signs⟩ := Option.bind_eq_some_iff.mp readFrom.algorithm
  exact ⟨(SubjectPublicKeyInfo.algorithm_readable_of_ofElement? read).oid.isLegible,
    (AlgorithmIdentifier.of_ofElement? signs).2.oid.isLegible⟩

theorem ofDer_reports (der : Bytes) : Reports (ofDer der) (HasMisfit der) := by
  have reading : Reports (CertificateReading.ofDer der) (HasMisfit der) := by
    simp only [HasMisfit, ← orMalformed_eq_ok]
    apply Reports.parsing_bind _ (Reports.orMalformed _)
    intro c decoded
    obtain ⟨key, algorithm⟩ := legible_of_decode? (orMalformed_eq_ok.mp decoded)
    exact (ofTbs_reports key algorithm).bind_parsing fun _ _ =>
      (Profile.ofExtensions_reports _).bind_parsing fun _ _ => .ok _
  rcases reading with ⟨misfit, failed⟩ | ⟨fits, parsing⟩
  · exact Or.inl ⟨misfit, ofDer_of_refused failed⟩
  · refine Or.inr ⟨fits, fun e failed => ?_⟩
    cases done : CertificateReading.ofDer der with
    | error e' =>
      cases Except.error.inj (failed.symm.trans (ofDer_of_refused done))
      exact parsing e done
    | ok reading =>
      obtain ⟨c, made, -⟩ := exists_of_reading done
      rw [made] at failed
      cases failed

theorem ofPem_reports (text : String) : Reports (ofPem text)
    (∃ der, Pem.decodeLabelled text Pem.certificateLabel = .ok der ∧ HasMisfit der) := by
  have block : Reports (Pem.decodeLabelled text Pem.certificateLabel) False := by
    unfold Pem.decodeLabelled
    split
    next => exact .error trivial id
    next =>
      split
      next => exact .ok _
      next => exact .error trivial id
  exact block.parsing_bind _ fun der _ => ofDer_reports der

end Certificate

namespace KeyPair

/-- Whether bytes are the envelope of a key on a curve that is not named. -/
def LacksCurve (b : Bytes) : Prop :=
  ∃ i, PrivateKeyInfo.decode? b = some i ∧ i.algorithm.oid = ecdsaOid
    ∧ i.algorithm.curveName? = none

theorem ofInfo_reports (i : PrivateKeyInfo) :
    Reports (ofInfo i) (i.algorithm.oid = ecdsaOid ∧ i.algorithm.curveName? = none) := by
  unfold ofInfo
  by_cases rsa : i.algorithm.oid = rsaOid
  · rw [if_pos rsa]
    have other : rsaOid ≠ ecdsaOid := by decide
    exact (Reports.orMalformed _).iff (by simp [rsa, other])
  rw [if_neg rsa]
  by_cases ecdsa : i.algorithm.oid = ecdsaOid
  · rw [if_pos ecdsa, AlgorithmIdentifier.curveName?]
    cases i.algorithm.parameters.bind Oid.ofElement? with
    | none => exact Or.inl ⟨⟨ecdsa, rfl⟩, rfl⟩
    | some id =>
      dsimp only
      cases NistCurve.ofOid? id with
      | none => exact .error trivial (by simp)
      | some curve => exact (Reports.orMalformed _).iff (by simp)
  rw [if_neg ecdsa]
  split
  next => exact (Reports.orMalformed _).iff (by simp [ecdsa])
  next => exact .error trivial fun lacks => ecdsa lacks.1

theorem ofPkcs8_reports (b : Bytes) : Reports (ofPkcs8 b) (LacksCurve b) := by
  simp only [LacksCurve, ← orMalformed_eq_ok]
  apply Reports.parsing_bind _ (Reports.orMalformed _)
  intro i _
  exact ofInfo_reports i

theorem ofPem_reports (text : String) :
    Reports (ofPem text) (∃ b, Pem.decode text = .ok b ∧ LacksCurve b) :=
  ((Reports.orMalformed _).map _).parsing_bind _ fun b _ => ofPkcs8_reports b

end KeyPair

/-- The faults of all ways to read a key or a certificate. -/
structure ReadingFaults (s : SubjectPublicKeyInfo) (b : Bytes) (text : String) : Prop where
  publicKey : s.algorithm.oid.isLegible = true → Reports (PublicKey.ofSpki s) s.IsMisfit
  illegible : s.algorithm.oid.isLegible = false → Der.fits s.encode = true →
    PublicKey.ofSpki s = .error .arcOverflow
  certificate : Reports (Certificate.ofDer b) (Certificate.HasMisfit b)
  certificatePem : Reports (Certificate.ofPem text)
    (∃ der, Pem.decodeLabelled text Pem.certificateLabel = .ok der ∧ Certificate.HasMisfit der)
  keyPair : Reports (KeyPair.ofPkcs8 b) (KeyPair.LacksCurve b)
  keyPairPem : Reports (KeyPair.ofPem text) (∃ b, Pem.decode text = .ok b ∧ KeyPair.LacksCurve b)

/-- Reading ends with a fault of writing exactly where a public key does not fit a supported
algorithm or a private key names no curve. All other faults are those of what was read, but for an
algorithm that was made from arcs too long to be told. -/
theorem readingFaults (s : SubjectPublicKeyInfo) (b : Bytes) (text : String) :
    ReadingFaults s b text where
  publicKey := PublicKey.ofSpki_reports
  illegible := PublicKey.ofSpki_illegible
  certificate := Certificate.ofDer_reports b
  certificatePem := Certificate.ofPem_reports text
  keyPair := KeyPair.ofPkcs8_reports b
  keyPairPem := KeyPair.ofPem_reports text

/-- The form of an RSA key of modulus 3. -/
def misfitSample : SubjectPublicKeyInfo :=
  ⟨⟨rsaOid, some .null⟩, .ofOctets [0x30, 6, 2, 1, 3, 2, 1, 1]⟩

/-- The bytes of a certificate for that key. -/
def misfitDer : Except Fault Bytes :=
  Contents.sampleDer fun t => { t with publicKeyInfo := misfitSample }

/-- That key, a certificate for it, and an envelope that says of a key just that it is on some curve
are told as faults of writing. -/
theorem not_isParsing_sample :
    PublicKey.ofSpki misfitSample = .error (.encoding .key)
      ∧ misfitDer >>= Certificate.ofDer = .error (.encoding .key)
      ∧ KeyPair.ofPkcs8 (PrivateKeyInfo.encode ⟨⟨ecdsaOid, none⟩, [], none⟩)
        = .error (.encoding .key)
      ∧ ¬ (Fault.encoding .key).IsParsing := by
  have certificate : misfitDer >>= CertificateReading.ofDer = .error (.encoding .key) := by
    decide +kernel
  have works : misfitDer.isOk = true := by decide +kernel
  obtain ⟨der, made⟩ := exists_of_isOk works
  rw [made, ok_bind] at certificate ⊢
  exact ⟨by decide +kernel, Certificate.ofDer_of_refused certificate, by decide +kernel, id⟩

end CertAuthority
