import CertAuthority.Proofs.Curve.Point
import CertAuthority.Proofs.KeyPair

namespace CertAuthority

/-- A key as such: the numbers of an RSA key, or the point of a curve. -/
inductive PublicKey.Value
  | rsa (key : Rsa.PublicKey)
  | ecdsa (curve : NistCurve) (point : Weierstrass.Point)
  | ed25519 (x y : Nat)

def PublicKey.Value.keyType : Value → KeyType
  | rsa _ => .rsa
  | ecdsa curve _ => curve.keyType
  | ed25519 _ _ => .ed25519

namespace SubjectPublicKeyInfo

/-- The forms that stand for a key. -/
inductive StandsFor : SubjectPublicKeyInfo → PublicKey.Value → Prop
  | rsa (key : Rsa.PublicKey) :
    StandsFor ⟨⟨rsaOid, some .null⟩, .ofOctets key.encode⟩ (.rsa key)
  | ecdsa {curve : NistCurve} {P : Weierstrass.Point} {b : Bytes}
    (on : curve.curve.contains P = true) (spells : curve.curve.Spells P b) :
    StandsFor ⟨⟨ecdsaOid, some curve.oid.element⟩, .ofOctets b⟩ (.ecdsa curve P)
  | ed25519 {x y : Nat} {b : Bytes} (spells : Ed25519.Spells x y b) :
    StandsFor ⟨⟨ed25519Oid, none⟩, .ofOctets b⟩ (.ed25519 x y)

end SubjectPublicKeyInfo

namespace PublicKey

/-- The forms that are read, each with what is made of it. -/
inductive Reading : SubjectPublicKeyInfo → PublicKey → Prop
  | rsa {key : Rsa.PublicKey} (accepted : (rsa key).isAccepted = true) :
    Reading (rsa key).form (.rsa key)
  | ecdsa {curve : NistCurve} {b : Bytes} {P : Weierstrass.PointOn curve.curve}
    (read : curve.curve.decode? b = some P) :
    Reading ⟨⟨ecdsaOid, some curve.oid.element⟩, .ofOctets b⟩ (.ecdsa curve P)
  | ed25519 {b : Bytes} (accepted : (ed25519 b).isAccepted = true) :
    Reading (ed25519 b).form (.ed25519 b)

section
variable {s : SubjectPublicKeyInfo} {k : PublicKey}

theorem reading_of_rsa (name : s.algorithm.oid = rsaOid) (h : ofFitting s = .ok k) :
    Reading s k := by
  rw [ofFitting, if_pos name] at h
  obtain ⟨⟨oid, parameters⟩, key⟩ := s
  have read := orBadKey_eq_ok h
  split at read
  next null =>
    obtain ⟨octets, whole, read⟩ := Option.bind_eq_some_iff.mp read
    obtain ⟨key', decoded, same⟩ := Option.map_eq_some_iff.mp read
    obtain ⟨encoded, sound, short⟩ := Rsa.PublicKey.encode_of_decode? decoded
    cases Der.BitString.of_octets? whole
    subst name null encoded same
    exact .rsa (by simp [isAccepted, sound, short])
  next => cases read

theorem reading_of_ecdsa (name : s.algorithm.oid = ecdsaOid) (h : ofFitting s = .ok k) :
    Reading s k := by
  have other : s.algorithm.oid ≠ rsaOid := by
    rw [name]
    decide
  rw [ofFitting, if_neg other, if_pos name] at h
  obtain ⟨⟨oid, parameters⟩, key⟩ := s
  dsimp only at h
  split at h
  next => cases h
  next element =>
    split at h
    next => cases h
    next id told =>
      split at h
      next => cases h
      next curve known =>
        obtain ⟨octets, whole, read⟩ := Option.bind_eq_some_iff.mp (orBadKey_eq_ok h)
        obtain ⟨P, decoded, same⟩ := Option.map_eq_some_iff.mp read
        have written := (Oid.element_of_ofElement? told).1
        rw [← NistCurve.oid_of_ofOid? known] at written
        cases Der.BitString.of_octets? whole
        subst name written same
        exact .ecdsa decoded

theorem reading_of_ed25519 (name : s.algorithm.oid = ed25519Oid) (h : ofFitting s = .ok k) :
    Reading s k := by
  have not_rsa : s.algorithm.oid ≠ rsaOid := by
    rw [name]
    decide
  have not_ecdsa : s.algorithm.oid ≠ ecdsaOid := by
    rw [name]
    decide
  rw [ofFitting, if_neg not_rsa, if_neg not_ecdsa, if_pos name] at h
  obtain ⟨⟨oid, parameters⟩, key⟩ := s
  obtain ⟨octets, whole, read⟩ := Option.bind_eq_some_iff.mp (orBadKey_eq_ok h)
  cases Der.BitString.of_octets? whole
  split at read
  next accepted =>
    cases Option.some.inj read
    obtain ⟨plain, accepted⟩ := accepted
    subst name plain
    exact .ed25519 accepted
  next => cases read

theorem reading_of_ofSpki (h : ofSpki s = .ok k) : Der.fits s.encode = true ∧ Reading s k := by
  rw [ofSpki] at h
  split at h
  next fits =>
    refine ⟨fits, ?_⟩
    by_cases rsa : s.algorithm.oid = rsaOid
    · exact reading_of_rsa rsa h
    by_cases ecdsa : s.algorithm.oid = ecdsaOid
    · exact reading_of_ecdsa ecdsa h
    by_cases ed25519 : s.algorithm.oid = ed25519Oid
    · exact reading_of_ed25519 ed25519 h
    rw [ofFitting, if_neg rsa, if_neg ecdsa, if_neg ed25519] at h
    split at h
    next => cases h
    next => cases h
  next => cases h

end

/-- What a key is, once it has been read. -/
inductive Holds : PublicKey → Value → Prop
  | rsa (key : Rsa.PublicKey) : Holds (.rsa key) (.rsa key)
  | ecdsa {curve : NistCurve} (P : Weierstrass.PointOn curve.curve) :
    Holds (.ecdsa curve P) (.ecdsa curve P)
  | ed25519 {x y : Nat} {b : Bytes} (spells : Ed25519.Spells x y b) :
    Holds (.ed25519 b) (.ed25519 x y)

section
variable {s s' : SubjectPublicKeyInfo} {k k' : PublicKey} {v v' : Value}

theorem Holds.unique (h : k.Holds v) (h' : k.Holds v') : v' = v := by
  cases h with
  | rsa => cases h' with
    | rsa => rfl
  | ecdsa => cases h' with
    | ecdsa => rfl
  | ed25519 spells => cases h' with
    | ed25519 spells' =>
      obtain ⟨rfl, rfl⟩ := spells.unique spells'
      rfl

theorem Holds.keyType (h : k.Holds v) : k.keyType = v.keyType := by cases h <;> rfl

theorem Holds.standsFor (h : k.Holds v) : k.form.StandsFor v := by
  cases h with
  | rsa key => exact .rsa key
  | ecdsa P => exact .ecdsa P.sound .whole
  | ed25519 spells => exact .ed25519 spells

theorem Reading.exists_holds (h : Reading s k) : ∃ v, k.Holds v ∧ s.StandsFor v := by
  cases h with
  | rsa => exact ⟨_, .rsa _, .rsa _⟩
  | @ecdsa curve b P read =>
    exact ⟨_, .ecdsa P, .ecdsa P.sound (Weierstrass.Curve.spells_of_decode? curve.p_odd read)⟩
  | ed25519 accepted =>
    obtain ⟨x, y, spells⟩ := Ed25519.spells_of_isPublicKey accepted
    exact ⟨_, .ed25519 spells, .ed25519 spells⟩

theorem Reading.isAccepted (h : Reading s k) : k.isAccepted = true := by
  cases h with
  | rsa accepted => exact accepted
  | ecdsa => rfl
  | ed25519 accepted => exact accepted

theorem Reading.algorithm (h : Reading s k) : k.form.algorithm = s.algorithm := by
  cases h <;> rfl

theorem toSpki_of_fits (h : Der.fits k.form.encode = true) : k.toSpki = .ok k.form := by
  rw [toSpki, if_pos h]

/-- A point has an uncompressed form of few octets, and the other keys are in their form already. -/
theorem toSpki_of_ofSpki (h : ofSpki s = .ok k) : k.toSpki = .ok k.form := by
  obtain ⟨fits, reading⟩ := reading_of_ofSpki h
  apply toSpki_of_fits
  cases reading with
  | rsa => exact fits
  | @ecdsa curve b P =>
    apply KeyPair.fits_form_of_short (KeyPair.algorithm_length_le _)
    have size : curve.curve.size ≤ 66 := by cases curve <;> decide
    have length : (curve.curve.encode P).length = 1 + 2 * curve.curve.size := by
      simp [Weierstrass.Curve.encode]
      omega
    show (curve.curve.encode P).length ≤ 200
    omega
  | ed25519 => exact fits

theorem holds_of_standsFor (h : ofSpki s = .ok k) (stands : s.StandsFor v) : k.Holds v := by
  obtain ⟨fits, reading⟩ := reading_of_ofSpki h
  -- Only points have forms besides that of the key which is read.
  cases stands with
  | rsa key =>
    have written : (PublicKey.rsa key).toSpki = .ok _ := toSpki_of_fits fits
    cases eq_of_ofSpki_toSpki written h
    exact .rsa key
  | @ecdsa curve P b on spells =>
    generalize same : SubjectPublicKeyInfo.mk _ _ = s at reading
    cases reading with
    | rsa => exact absurd (congrArg (·.algorithm.oid) same) (show ecdsaOid ≠ rsaOid by decide)
    | @ecdsa curve' b' P' read =>
      have parameters : some curve.oid.element = some curve'.oid.element :=
        congrArg (·.algorithm.parameters) same
      cases NistCurve.eq_of_oid_element (Option.some.inj parameters)
      cases (congrArg (·.key.octets) same : b = b')
      have spells' := Weierstrass.Curve.spells_of_decode? curve.p_odd read
      rw [spells.unique curve.p_prime curve.p_odd curve.room on P'.sound spells']
      exact .ecdsa P'
    | ed25519 =>
      exact absurd (congrArg (·.algorithm.oid) same) (show ecdsaOid ≠ ed25519Oid by decide)
  | @ed25519 x y b spells =>
    have written : (PublicKey.ed25519 b).toSpki = .ok _ := toSpki_of_fits fits
    cases eq_of_ofSpki_toSpki written h
    exact .ed25519 spells

/-- Keys that are the same are made of the same octets, but for those of Ed25519. -/
theorem Holds.eq_iff (h : k.Holds v) (h' : k'.Holds v) :
    k' = k ↔ (k.keyType = .ed25519 → k'.octets = k.octets) := by
  constructor
  · rintro rfl -
    rfl
  · intro octets
    cases h with
    | rsa => cases h' with
      | rsa => rfl
    | ecdsa P =>
      generalize same : Value.ecdsa _ _ = v' at h'
      cases h' with
      | rsa => cases same
      | ecdsa P' =>
        obtain ⟨rfl, point⟩ := Value.ecdsa.inj same
        cases P
        cases P'
        cases point
        rfl
      | ed25519 => cases same
    | ed25519 => cases h' with
      | ed25519 => exact congrArg PublicKey.ed25519 (octets rfl)

theorem Reading.key_eq (h : Reading s k) (ed25519 : k.keyType = .ed25519) :
    s.key = .ofOctets k.octets := by
  cases h with
  | rsa => rfl
  | @ecdsa curve => cases curve <;> cases ed25519
  | ed25519 => rfl

end

/-- What a form is made into: a key that has a form, is read back from it and stands for the same
key under the same algorithm. -/
structure Normalizes (s : SubjectPublicKeyInfo) (k : PublicKey) : Prop where
  written : k.toSpki = .ok k.form
  stable : ofSpki k.form = .ok k
  algorithm : k.form.algorithm = s.algorithm
  identifier : k.identifier = .ok (Sha1.hash k.form.key.octets)
  value : ∃ v, k.Holds v ∧ (∀ v', s.StandsFor v' ↔ v' = v) ∧ ∀ v', k.form.StandsFor v' ↔ v' = v

theorem standsFor_iff {s : SubjectPublicKeyInfo} {k : PublicKey} {v : Value} (h : ofSpki s = .ok k)
    (holds : k.Holds v) (stands : s.StandsFor v) (v' : Value) : s.StandsFor v' ↔ v' = v := by
  constructor
  · intro other
    exact holds.unique (holds_of_standsFor h other)
  · rintro rfl
    exact stands

theorem normalizes_of_ofSpki {s : SubjectPublicKeyInfo} {k : PublicKey} (h : ofSpki s = .ok k) :
    Normalizes s k := by
  have reading := (reading_of_ofSpki h).2
  have written := toSpki_of_ofSpki h
  have stable : ofSpki k.form = .ok k := by
    rw [ofSpki_toSpki written, if_pos reading.isAccepted]
  have name : k.identifier = .ok (Sha1.hash k.form.key.octets) := by
    rw [identifier, written]
    rfl
  obtain ⟨v, holds, stands⟩ := reading.exists_holds
  exact ⟨written, stable, reading.algorithm, name, v, holds, standsFor_iff h holds stands,
    standsFor_iff stable holds holds.standsFor⟩

/-- Reading brings every form of a key that it takes into one, and tells two forms of a key apart
only if it is one of Ed25519 in different octets. -/
theorem ofSpki_normalizes {s : SubjectPublicKeyInfo} {k : PublicKey} (h : ofSpki s = .ok k) :
    Normalizes s k ∧ ∀ {s' : SubjectPublicKeyInfo} {k' : PublicKey} {v : Value},
      ofSpki s' = .ok k' → s.StandsFor v → s'.StandsFor v →
      ((k' = k ∧ k'.toSpki = k.toSpki ∧ k'.identifier = k.identifier)
        ↔ (k.keyType = .ed25519 → s'.key = s.key)) := by
  refine ⟨normalizes_of_ofSpki h, ?_⟩
  intro s' k' v h' stands stands'
  have holds := holds_of_standsFor h stands
  have holds' := holds_of_standsFor h' stands'
  have same := holds.eq_iff holds'
  have octets (ed25519 : k.keyType = .ed25519) : s'.key = s.key ↔ k'.octets = k.octets := by
    have ed25519' : k'.keyType = .ed25519 := by rw [holds'.keyType, ← holds.keyType, ed25519]
    rw [(reading_of_ofSpki h).2.key_eq ed25519, (reading_of_ofSpki h').2.key_eq ed25519']
    exact ⟨congrArg Der.BitString.octets, congrArg Der.BitString.ofOctets⟩
  constructor
  · rintro ⟨equal, -, -⟩ ed25519
    exact (octets ed25519).mpr (same.mp equal ed25519)
  · intro keys
    have equal : k' = k := same.mpr fun ed25519 => (octets ed25519).mp (keys ed25519)
    subst equal
    exact ⟨rfl, rfl, rfl⟩

/-- The form of a key on the curve of 256 bits. -/
def formOf256 (b : Bytes) : SubjectPublicKeyInfo :=
  ⟨⟨ecdsaOid, some NistCurve.p256.oid.element⟩, .ofOctets b⟩

/-- The generator is one key with its ordinate and behind the mark of an odd one. -/
theorem ofSpki_normalizes_generator :
    let P := NistCurve.curve256.generator
    let s := formOf256 (3 :: fixedBytes 32 P.x)
    let s' := formOf256 (NistCurve.curve256.encode P)
    ∃ k k', ofSpki s = .ok k ∧ ofSpki s' = .ok k' ∧ s.StandsFor (.ecdsa .p256 P)
      ∧ s'.StandsFor (.ecdsa .p256 P) ∧ k.keyType = .ecdsaP256 ∧ Normalizes s k
      ∧ k' = k ∧ k'.toSpki = k.toSpki ∧ k'.identifier = k.identifier := by
  intro P s s'
  have on : NistCurve.p256.curve.contains P = true := by decide +kernel
  have odd : P.y % 2 = 1 := by decide +kernel
  have stands : s.StandsFor (.ecdsa .p256 P) := .ecdsa on (.short (.odd (.inr odd)))
  have stands' : s'.StandsFor (.ecdsa .p256 P) := .ecdsa on .whole
  obtain ⟨k, read⟩ := exists_of_isOk (show (ofSpki s).isOk = true by decide +kernel)
  obtain ⟨k', read'⟩ := exists_of_isOk (show (ofSpki s').isOk = true by decide +kernel)
  have keyType : k.keyType = .ecdsaP256 := (holds_of_standsFor read stands).keyType
  obtain ⟨normalizes, same⟩ := ofSpki_normalizes read
  have equal := (same read' stands stands').mpr fun ed25519 => by
    rw [keyType] at ed25519
    cases ed25519
  exact ⟨k, k', read, read', stands, stands', keyType, normalizes, equal⟩

/-- The ordinate three, as it is and with the size of the field added to it. -/
def ordinateThree : Bytes := 3 :: List.replicate 31 0

def ordinateBeyond : Bytes := 0xf0 :: List.replicate 30 0xff ++ [0x7f]

/-- Two strings of octets of one point are two keys, and each is written as it was read. -/
theorem ed25519_forms_apart :
    let k := ed25519 ordinateThree
    let k' := ed25519 ordinateBeyond
    ofSpki k.form = .ok k ∧ ofSpki k'.form = .ok k'
      ∧ (∃ v, k.form.StandsFor v ∧ k'.form.StandsFor v)
      ∧ k' ≠ k ∧ k'.toSpki ≠ k.toSpki ∧ k'.identifier ≠ k.identifier := by
  intro k k'
  have written : k.toSpki = .ok k.form := toSpki_of_fits (by decide +kernel)
  have written' : k'.toSpki = .ok k'.form := toSpki_of_fits (by decide +kernel)
  have accepted : k.isAccepted = true := by decide +kernel
  have accepted' : k'.isAccepted = true := by decide +kernel
  have read := ofSpki_toSpki written
  have read' := ofSpki_toSpki written'
  rw [if_pos accepted] at read
  rw [if_pos accepted'] at read'
  obtain ⟨x, y, spells⟩ := Ed25519.spells_of_isPublicKey accepted
  have spells' : Ed25519.Spells x y ordinateBeyond :=
    spells.of_congruent rfl (by decide +kernel) (by decide +kernel)
  have forms : k'.form ≠ k.form := by decide
  have digests : Sha1.hash k'.form.key.octets ≠ Sha1.hash k.form.key.octets := by decide +kernel
  refine ⟨read, read', ⟨_, .ed25519 spells, .ed25519 spells'⟩, by decide, ?_, ?_⟩
  · rw [written, written']
    exact fun same => forms (Except.ok.inj same)
  · rw [identifier, identifier, written, written']
    exact fun same => digests (Except.ok.inj same)

end PublicKey

end CertAuthority
