import CertAuthority.Certificate.Basic
import CertAuthority.Proofs.Certificate.Tbs

namespace CertAuthority

namespace SignatureAlgorithm

theorem ofOid_oid (a : SignatureAlgorithm) : ofOid a.oid = .ok a := by
  have found : all.find? (·.oid = a.oid) = some a := by cases a <;> decide
  rw [ofOid, found]

theorem identifier_readable (a : SignatureAlgorithm) : a.identifier.Readable := by
  have oid : a.oid.Readable := by cases a <;> decide
  refine ⟨oid, ?_⟩
  intro e he
  simp only [identifier] at he
  split at he
  next =>
    cases Option.some.inj he
    rfl
  next => cases he

end SignatureAlgorithm

namespace SerialNumber

theorem toContent_eq_ok {n : SerialNumber} {b : Bytes} (h : n.toContent = .ok b) :
    b = Der.integerContent n ∧ b.length ≤ maxSize := by
  unfold toContent at h
  split at h
  next short =>
    cases Except.ok.inj h
    exact ⟨rfl, short⟩
  next => cases h

theorem ofContent_toContent {n : SerialNumber} {b : Bytes} (h : n.toContent = .ok b) :
    ofContent b = n := by
  obtain ⟨rfl, -⟩ := toContent_eq_ok h
  exact Der.beNat_integerContent n

/-- Just the serial numbers of up to 159 bits fit the field of a certificate. -/
theorem toContent_eq (n : SerialNumber) : n.toContent
    = if n < 2 ^ 159 then .ok (Der.integerContent n) else .error (.encoding (.serial n)) := by
  have limit : (Der.integerContent n).length ≤ maxSize ↔ n < 2 ^ 159 :=
    Der.integerContent_length_le_iff n 19
  unfold toContent
  by_cases short : (Der.integerContent n).length ≤ maxSize
  · rw [if_pos short, if_pos (limit.mp short)]
  · rw [if_neg short, if_neg (mt limit.mpr short)]

end SerialNumber

namespace Validity

/-- The span from the whole second of its first instant to that of its last, in UTC. -/
def wholeSeconds (v : Validity) : Validity :=
  ⟨.ofSeconds v.notBefore.seconds, .ofSeconds v.notAfter.seconds⟩

end Validity

namespace Contents

/-- Contents whose names and extensions are read back. All else is. -/
structure Readable (c : Contents) : Prop where
  issuer : c.issuer.Readable
  subject : c.subject.Readable
  extensions : ∀ e ∈ c.extensions, e.Readable

theorem toTbs_eq_ok {c : Contents} {t : TbsCertificate} (h : c.toTbs = .ok t) :
    ∃ notBefore notAfter serial publicKeyInfo,
      Time.ofInstant c.validity.notBefore = .ok notBefore
      ∧ Time.ofInstant c.validity.notAfter = .ok notAfter
      ∧ c.serial.toContent = .ok serial
      ∧ c.publicKey.toSpki = .ok publicKeyInfo
      ∧ t = ⟨.v3, serial, c.algorithm.identifier, c.issuer, notBefore, notAfter, c.subject,
        publicKeyInfo, none, none, if c.extensions.isEmpty then none else some c.extensions⟩ := by
  obtain ⟨notBefore, hb, h⟩ := bind_eq_ok.mp h
  obtain ⟨notAfter, ha, h⟩ := bind_eq_ok.mp h
  obtain ⟨serial, hs, h⟩ := bind_eq_ok.mp h
  obtain ⟨publicKeyInfo, hk, h⟩ := bind_eq_ok.mp h
  exact ⟨notBefore, notAfter, serial, publicKeyInfo, hb, ha, hs, hk, (Except.ok.inj h).symm⟩

theorem toTbs_readable {c : Contents} {t : TbsCertificate} (h : c.toTbs = .ok t)
    (readable : c.Readable) : t.Readable := by
  obtain ⟨notBefore, notAfter, serial, publicKeyInfo, hb, ha, hs, hk, rfl⟩ := toTbs_eq_ok h
  obtain ⟨rfl, short⟩ := SerialNumber.toContent_eq_ok hs
  have room : SerialNumber.maxSize ≤ SerialNumber.maxReadSize := by decide
  exact {
    serial := ⟨Der.isIntegerContent_integerContent c.serial, Nat.le_trans short room⟩
    algorithm := c.algorithm.identifier_readable
    issuer := readable.issuer
    notBefore := (Time.ofInstant_eq_ok hb).1
    notAfter := (Time.ofInstant_eq_ok ha).1
    subject := readable.subject
    publicKeyInfo := PublicKey.toSpki_readable hk
    issuerUniqueId := by simp
    subjectUniqueId := by simp
    extensions := by
      intro es hes
      split at hes
      next => cases hes
      next =>
        cases Option.some.inj hes
        exact readable.extensions }

theorem getD_of_isEmpty (es : List Extension) :
    (if es.isEmpty then none else some es).getD [] = es := by
  cases es with
  | nil => rfl
  | cons e es => rfl

/-- Contents are read back with the whole seconds of their instants. -/
theorem ofTbs_toTbs {c : Contents} {t : TbsCertificate} (h : c.toTbs = .ok t)
    (key : c.publicKey.toSpki >>= PublicKey.ofSpki = .ok c.publicKey) :
    ofTbs t = .ok { c with validity := c.validity.wholeSeconds } := by
  obtain ⟨notBefore, notAfter, serial, publicKeyInfo, hb, ha, hs, hk, rfl⟩ := toTbs_eq_ok h
  rw [hk, ok_bind] at key
  rw [ofTbs, key, ok_bind]
  show (SignatureAlgorithm.ofOid c.algorithm.oid >>= _) = _
  rw [SignatureAlgorithm.ofOid_oid, ok_bind]
  simp only [SerialNumber.ofContent_toContent hs, Time.instant_of_ofInstant hb,
    Time.instant_of_ofInstant ha]
  rw [getD_of_isEmpty]
  rfl

theorem ofTbs_toTbs_publicKey {c c' : Contents} {t : TbsCertificate} (h : c.toTbs = .ok t)
    (h' : ofTbs t = .ok c') : c.publicKey.toSpki >>= PublicKey.ofSpki = .ok c.publicKey := by
  obtain ⟨notBefore, notAfter, serial, publicKeyInfo, -, -, -, hk, rfl⟩ := toTbs_eq_ok h
  obtain ⟨key, read, -⟩ := bind_eq_ok.mp h'
  rw [hk, ok_bind, read, PublicKey.eq_of_ofSpki_toSpki hk read]

theorem ofTbs_toTbs_refused {c : Contents} {t : TbsCertificate} {e : Fault} (h : c.toTbs = .ok t)
    (refused : c.publicKey.toSpki >>= PublicKey.ofSpki = .error e) : ofTbs t = .error e := by
  obtain ⟨notBefore, notAfter, serial, publicKeyInfo, -, -, -, hk, rfl⟩ := toTbs_eq_ok h
  rw [hk, ok_bind] at refused
  rw [ofTbs, refused]
  rfl

theorem of_ofTbs {c : Contents} {t : TbsCertificate} (h : ofTbs t = .ok c) :
    c.serial = .ofContent t.serial ∧ c.subject = t.subject := by
  obtain ⟨key, -, h⟩ := bind_eq_ok.mp h
  obtain ⟨algorithm, -, h⟩ := bind_eq_ok.mp h
  cases Except.ok.inj h
  exact ⟨rfl, rfl⟩

end Contents

namespace CertificateReading

/-- A certificate that was signed is read back, if its extensions are understood. -/
theorem ofDer_encode {contents : Contents} {c : SignedCertificate} {profile : Profile}
    (tbs : contents.toTbs = .ok c.tbs) (readable : contents.Readable)
    (algorithm : c.algorithm.Readable) (signature : c.signature.Readable)
    (fits : Der.fits c.encode = true)
    (key : contents.publicKey.toSpki >>= PublicKey.ofSpki = .ok contents.publicKey)
    (understood : Profile.ofExtensions contents.extensions = .ok profile) :
    ofDer c.encode
      = .ok ⟨c, { contents with validity := contents.validity.wholeSeconds }, profile⟩ := by
  have decoded := SignedCertificate.decode?_encode
    ⟨Contents.toTbs_readable tbs readable, algorithm, signature⟩ fits
  rw [ofDer, orMalformed_eq_ok.mpr decoded, ok_bind, Contents.ofTbs_toTbs tbs key, ok_bind]
  show (Profile.ofExtensions contents.extensions >>= _) = _
  rw [understood]
  rfl

end CertificateReading

namespace Certificate

theorem ofDer_eq_ok {der : Bytes} {c : Certificate} :
    ofDer der = .ok c ↔ c.der = der ∧ CertificateReading.ofDer der = .ok c.reading := by
  unfold ofDer
  constructor
  · intro h
    split at h
    next reading sound =>
      cases Except.ok.inj h
      exact ⟨rfl, sound⟩
    next => cases h
  · rintro ⟨rfl, sound⟩
    split
    next reading sound' =>
      rw [sound] at sound'
      cases Except.ok.inj sound'
      rfl
    next e failed =>
      rw [sound] at failed
      cases failed

theorem ofDer_of_refused {der : Bytes} {e : Fault} (h : CertificateReading.ofDer der = .error e) :
    ofDer der = .error e := by
  unfold ofDer
  split
  next reading sound =>
    rw [h] at sound
    cases sound
  next e' failed =>
    rw [h] at failed
    cases Except.error.inj failed
    rfl

theorem exists_of_reading {der : Bytes} {reading : CertificateReading}
    (h : CertificateReading.ofDer der = .ok reading) :
    ∃ c, ofDer der = .ok c ∧ c.der = der ∧ c.reading = reading :=
  ⟨⟨der, reading, h⟩, ofDer_eq_ok.mpr ⟨rfl, h⟩, rfl, rfl⟩

/-- The parts of a certificate stand in its bytes. -/
theorem reading_spec (c : Certificate) :
    SignedCertificate.decode? c.der = some c.signed ∧ Contents.ofTbs c.signed.tbs = .ok c.contents
      ∧ Profile.ofExtensions c.contents.extensions = .ok c.profile := by
  obtain ⟨signed, hd, h⟩ := bind_eq_ok.mp c.sound
  obtain ⟨contents, hc, h⟩ := bind_eq_ok.mp h
  obtain ⟨profile, hp, h⟩ := bind_eq_ok.mp h
  have parts := Except.ok.inj h
  have whole : c.signed = signed := by rw [Certificate.signed, ← parts]
  have said : c.contents = contents := by rw [Certificate.contents, ← parts]
  have understood : c.profile = profile := by rw [Certificate.profile, ← parts]
  rw [whole, said, understood]
  exact ⟨orMalformed_eq_ok.mp hd, hc, hp⟩

/-- The subject of a certificate has been read from the field in its bytes. -/
theorem subjectField (c : Certificate) :
    ∃ own, SignedCertificate.subjectField? c.der = some own
      ∧ Name.ofElement? own = some c.contents.subject := by
  obtain ⟨decoded, contents, -⟩ := c.reading_spec
  rw [(Contents.of_ofTbs contents).2]
  exact SignedCertificate.subjectField?_of_decode? decoded

theorem subject_readable (c : Certificate) : c.contents.subject.Readable := by
  obtain ⟨own, -, read⟩ := c.subjectField
  exact Name.readable_of_ofElement? read

end Certificate

end CertAuthority
