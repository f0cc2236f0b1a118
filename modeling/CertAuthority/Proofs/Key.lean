import CertAuthority.Key.PublicKey
import CertAuthority.Proofs.Der.Primitive
import CertAuthority.Proofs.Fault

namespace CertAuthority

namespace AlgorithmIdentifier

/-- An identifier that is read back: its name is, and its parameters have a tag that is known. -/
structure Readable (a : AlgorithmIdentifier) : Prop where
  oid : a.oid.Readable
  parameters : ∀ e ∈ a.parameters, Der.Tag.isKnown e.tag = true

theorem ofElement?_element {a : AlgorithmIdentifier} (h : a.Readable) (fits : a.element.Fits) :
    ofElement? a.element = some a := by
  obtain ⟨id, parameters⟩ := a
  obtain ⟨oid, known⟩ := h
  have parts : (AlgorithmIdentifier.mk id parameters).element.sequence?
      = some (id.element :: parameters.toList) := by
    apply Der.Element.sequence?_sequence _ fits
    intro x hx
    rcases List.mem_cons.mp hx with rfl | hx
    · rfl
    · exact known x (Option.mem_toList.mp hx)
  have id? := Oid.ofElement?_element oid
  rw [ofElement?, parts]
  cases parameters with
  | none => simp [id?]
  | some e => simp [id?]

theorem of_ofElement? {e : Der.Element} {a : AlgorithmIdentifier} (h : ofElement? e = some a) :
    a.element = e ∧ a.Readable := by
  obtain ⟨fields, parts, h⟩ := Option.bind_eq_some_iff.mp h
  obtain ⟨framed, each⟩ := Der.Element.of_sequence? parts
  split at h
  next oid =>
    obtain ⟨id, read, h⟩ := Option.bind_eq_some_iff.mp h
    cases Option.some.inj h
    obtain ⟨same, readable⟩ := Oid.element_of_ofElement? read
    exact ⟨by rw [framed, ← same]; rfl, readable, by simp⟩
  next oid parameters =>
    obtain ⟨id, read, h⟩ := Option.bind_eq_some_iff.mp h
    cases Option.some.inj h
    obtain ⟨same, readable⟩ := Oid.element_of_ofElement? read
    refine ⟨by rw [framed, ← same]; rfl, readable, ?_⟩
    rintro _ ⟨rfl⟩
    exact (each parameters (by simp)).known
  next => cases h

end AlgorithmIdentifier

namespace SubjectPublicKeyInfo

/-- A key that is read back: its algorithm and its bits are. -/
structure Readable (s : SubjectPublicKeyInfo) : Prop where
  algorithm : s.algorithm.Readable
  key : s.key.Readable

theorem ofElement?_element {s : SubjectPublicKeyInfo} (h : s.Readable) (fits : s.element.Fits) :
    ofElement? s.element = some s := by
  have parts : s.element.sequence? = some [s.algorithm.element, s.key.element] := by
    apply Der.Element.sequence?_sequence _ fits
    intro x hx
    rcases List.mem_cons.mp hx with rfl | hx
    · rfl
    · cases List.mem_singleton.mp hx
      rfl
  have algorithm := AlgorithmIdentifier.ofElement?_element h.algorithm
    (Der.Element.fits_of_mem_sequence fits (by simp))
  have key := Der.BitString.ofElement?_element h.key
  rw [ofElement?, parts]
  simp [algorithm, key]

theorem algorithm_readable_of_ofElement? {e : Der.Element} {s : SubjectPublicKeyInfo}
    (h : ofElement? e = some s) : s.algorithm.Readable := by
  obtain ⟨fields, -, h⟩ := Option.bind_eq_some_iff.mp h
  split at h
  next algorithm key =>
    obtain ⟨a, read, h⟩ := Option.bind_eq_some_iff.mp h
    obtain ⟨k, -, h⟩ := Option.bind_eq_some_iff.mp h
    cases Option.some.inj h
    exact (AlgorithmIdentifier.of_ofElement? read).2
  next => cases h

theorem encode_length_le {s : SubjectPublicKeyInfo}
    (room : s.algorithm.encode.length + s.key.octets.length + 7 ≤ Der.lengthLimit) :
    s.encode.length ≤ s.algorithm.encode.length + s.key.octets.length + 13 := by
  have key : s.key.element.encode.length ≤ s.key.octets.length + 1 + 6 :=
    Der.Element.encode_length_le_of_content (e := s.key.element) (Nat.le_refl _) (by omega)
  have content : s.element.content.length
      ≤ s.algorithm.encode.length + s.key.octets.length + 7 := by
    rw [element, Der.Element.sequence, Der.Element.encodeAll_cons, Der.Element.encodeAll_singleton,
      List.length_append]
    show s.algorithm.encode.length + s.key.element.encode.length ≤ _
    omega
  exact Der.Element.encode_length_le_of_content content room

end SubjectPublicKeyInfo

namespace Rsa.PublicKey

/-- An RSA key is read back if it is sound and not too long. -/
theorem decode?_encode {k : PublicKey} (fits : Der.fits k.encode = true) :
    decode? k.encode = if k.isSound ∧ bitLength k.n ≤ maxBits then some k else none := by
  have small := Der.Element.fits_of_encode fits
  have whole := Der.Element.ofBytes?_encode ⟨rfl, small⟩
  have parts : (Der.Element.sequence [.integer k.n, .integer k.e]).sequence?
      = some [.integer k.n, .integer k.e] := by
    apply Der.Element.sequence?_sequence _ small
    intro x hx
    rcases List.mem_cons.mp hx with rfl | hx
    · rfl
    · cases List.mem_singleton.mp hx
      rfl
  rw [decode?, encode, whole, Option.bind_eq_bind, Option.bind_some, parts, Option.bind_eq_bind,
    Option.bind_some]
  simp only [Der.Element.natural?_integer, Option.bind_eq_bind, Option.bind_some]

theorem encode_of_decode? {b : Bytes} {k : PublicKey} (h : decode? b = some k) :
    k.encode = b ∧ k.isSound = true ∧ bitLength k.n ≤ maxBits := by
  obtain ⟨e, whole, h⟩ := Option.bind_eq_some_iff.mp h
  obtain ⟨fields, parts, h⟩ := Option.bind_eq_some_iff.mp h
  have octets := (Der.Element.encode_of_ofBytes? whole).1
  rw [(Der.Element.of_sequence? parts).1] at octets
  split at h
  next n e =>
    obtain ⟨n', modulus, h⟩ := Option.bind_eq_some_iff.mp h
    obtain ⟨e', exponent, h⟩ := Option.bind_eq_some_iff.mp h
    rw [Der.Element.of_natural? modulus, Der.Element.of_natural? exponent] at octets
    dsimp only at h
    split at h
    next sound =>
      cases Option.some.inj h
      exact ⟨octets, sound⟩
    next => cases h
  next => cases h

end Rsa.PublicKey

namespace Weierstrass.Curve

/-- A point of a curve whose coordinates have enough octets is read back. -/
theorem decode?_encode {c : Curve} (room : c.p ≤ 256 ^ c.size) (P : PointOn c) :
    c.decode? (c.encode P) = some P := by
  obtain ⟨P, sound⟩ := P
  have bounds : P.x < c.p ∧ P.y < c.p := by
    simp only [contains, Bool.and_eq_true, decide_eq_true_eq] at sound
    exact sound.1
  have x : beNat (fixedBytes c.size P.x) = P.x :=
    beNat_fixedBytes_of_lt (Nat.lt_of_lt_of_le bounds.1 room)
  have y : beNat (fixedBytes c.size P.y) = P.y :=
    beNat_fixedBytes_of_lt (Nat.lt_of_lt_of_le bounds.2 room)
  have length : (fixedBytes c.size P.x ++ fixedBytes c.size P.y).length = 2 * c.size := by
    rw [List.length_append, fixedBytes_length, fixedBytes_length]
    omega
  rw [encode, decode?, if_pos ⟨rfl, length⟩, List.take_left' (fixedBytes_length _ _),
    List.drop_left' (fixedBytes_length _ _), x, y]
  exact dif_pos sound

end Weierstrass.Curve

namespace NistCurve

theorem room (c : NistCurve) : c.curve.p ≤ 256 ^ c.curve.size := by cases c <;> decide +kernel

theorem oid_readable (c : NistCurve) : c.oid.Readable := by cases c <;> decide

theorem ofOid?_oid (c : NistCurve) : ofOid? c.oid = some c := by cases c <;> decide

theorem oid_of_ofOid? {oid : Oid} {c : NistCurve} (h : ofOid? oid = some c) :
    c.oid = oid := by
  have found := List.find?_some h
  exact of_decide_eq_true found

theorem eq_of_oid_element {c c' : NistCurve} (h : c.oid.element = c'.oid.element) :
    c = c' := by
  have read := Oid.ofElement?_element c.oid_readable
  rw [h, Oid.ofElement?_element c'.oid_readable] at read
  have known := ofOid?_oid c
  rw [← Option.some.inj read, ofOid?_oid] at known
  exact (Option.some.inj known).symm

end NistCurve

namespace PublicKey

/-- Whether reading takes a key. On a curve every key is taken. -/
def isAccepted : PublicKey → Bool
  | rsa key => key.isSound && bitLength key.n ≤ Rsa.maxBits
  | ecdsa _ _ => true
  | ed25519 octets => Ed25519.isPublicKey octets

theorem algorithm_readable (k : PublicKey) : k.algorithm.Readable := by
  have rsa : rsaOid.Readable := by decide
  have ecdsa : ecdsaOid.Readable := by decide
  have ed25519 : ed25519Oid.Readable := by decide
  cases k with
  | rsa key => exact ⟨rsa, by simp [algorithm]; rfl⟩
  | ecdsa curve point => exact ⟨ecdsa, by simp [algorithm]; rfl⟩
  | ed25519 octets => exact ⟨ed25519, by simp [algorithm]⟩

theorem orBadKey_eq_ok {o : Option PublicKey} {k : PublicKey} (h : orBadKey o = .ok k) :
    o = some k := by
  cases o with
  | none => cases h
  | some k' => exact congrArg some (Except.ok.inj h)

theorem toSpki_eq_ok {k : PublicKey} {s : SubjectPublicKeyInfo} (h : k.toSpki = .ok s) :
    s = ⟨k.algorithm, .ofOctets k.octets⟩ ∧ Der.fits s.encode = true := by
  unfold toSpki at h
  split at h
  next fits =>
    cases Except.ok.inj h
    exact ⟨rfl, fits⟩
  next => simp at h

/-- The octets of a key are part of its form in a certificate. -/
theorem fits_octets_of_toSpki {k : PublicKey} {s : SubjectPublicKeyInfo} (h : k.toSpki = .ok s) :
    Der.fits k.octets = true := by
  obtain ⟨rfl, fits⟩ := toSpki_eq_ok h
  have field := Der.Element.fits_of_mem_sequence (Der.Element.fits_of_encode fits)
    (e := (Der.BitString.ofOctets k.octets).element) (by simp)
  exact decide_eq_true (Nat.le_trans (Nat.le_succ _) field)

theorem toSpki_readable {k : PublicKey} {s : SubjectPublicKeyInfo} (h : k.toSpki = .ok s) :
    s.Readable := by
  obtain ⟨rfl, -⟩ := toSpki_eq_ok h
  exact ⟨k.algorithm_readable, Der.BitString.ofOctets_readable _⟩

/-- A key is read back as itself or refused, and nothing but the key decides which. -/
theorem ofSpki_toSpki {k : PublicKey} {s : SubjectPublicKeyInfo} (h : k.toSpki = .ok s) :
    ofSpki s = if k.isAccepted then .ok k else .error (.encoding .key) := by
  have short := fits_octets_of_toSpki h
  obtain ⟨rfl, fits⟩ := toSpki_eq_ok h
  rw [ofSpki, if_pos fits]
  have ecdsa_rsa : ecdsaOid ≠ rsaOid := by decide
  have ed_rsa : ed25519Oid ≠ rsaOid := by decide
  have ed_ecdsa : ed25519Oid ≠ ecdsaOid := by decide
  cases k with
  | rsa key =>
    have read := Rsa.PublicKey.decode?_encode (k := key) short
    rw [ofFitting, octets, algorithm, if_pos rfl, if_pos rfl, Der.BitString.octets?_ofOctets,
      Option.bind_eq_bind, Option.bind_some, read, isAccepted]
    by_cases accepted : key.isSound = true ∧ bitLength key.n ≤ Rsa.maxBits
    · rw [if_pos accepted, if_pos (by simpa using accepted)]
      rfl
    · rw [if_neg accepted, if_neg (by simpa using accepted)]
      rfl
  | ecdsa curve point =>
    have read := Weierstrass.Curve.decode?_encode curve.room point
    rw [ofFitting, algorithm, if_neg ecdsa_rsa, if_pos rfl]
    simp only [Oid.ofElement?_element curve.oid_readable, NistCurve.ofOid?_oid]
    rw [octets, Der.BitString.octets?_ofOctets, Option.bind_eq_bind, Option.bind_some, read]
    rfl
  | ed25519 octets =>
    rw [ofFitting, algorithm, if_neg ed_rsa, if_neg ed_ecdsa, if_pos rfl,
      Der.BitString.octets?_ofOctets, Option.bind_eq_bind, Option.bind_some, isAccepted,
      PublicKey.octets]
    by_cases accepted : Ed25519.isPublicKey octets = true
    · rw [if_pos ⟨rfl, accepted⟩, if_pos accepted]
      rfl
    · rw [if_neg fun h => accepted h.2, if_neg accepted]
      rfl

theorem eq_of_ofSpki_toSpki {k k' : PublicKey} {s : SubjectPublicKeyInfo} (h : k.toSpki = .ok s)
    (h' : ofSpki s = .ok k') : k' = k := by
  rw [ofSpki_toSpki h] at h'
  split at h'
  next => exact (Except.ok.inj h').symm
  next => simp at h'

/-- A key is named by the digest of its octets. -/
theorem identifier_eq_ok {k : PublicKey} {id : Bytes} (h : k.identifier = .ok id) :
    id = Sha1.hash k.octets := by
  obtain ⟨s, hs, rfl⟩ := map_eq_ok.mp h
  obtain ⟨rfl, -⟩ := toSpki_eq_ok hs
  rfl

end PublicKey

namespace Sha1

theorem hash_length (b : Bytes) : (hash b).length = 20 := by
  simp [hash, State.words]

end Sha1

end CertAuthority
