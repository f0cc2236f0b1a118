import CertAuthority.Key.KeyPair
import CertAuthority.Proofs.Curve.Edwards
import CertAuthority.Proofs.Key
import CertAuthority.Proofs.Pem

namespace CertAuthority

namespace Rsa.PrivateKey

/-- The numbers in the form of a key with a coefficient. -/
def numbers (k : PrivateKey) (c : Nat) : List Nat :=
  [0, k.n, k.e, k.d, k.p, k.q, k.d % (k.p - 1), k.d % (k.q - 1), c]

theorem encode?_eq_some {k : PrivateKey} {b : Bytes} : k.encode? = some b
    ↔ ∃ c, k.coefficient? = some c
      ∧ (Der.Element.sequence ((k.numbers c).map .integer)).encode = b := by
  rw [encode?, Option.bind_eq_bind, Option.bind_eq_some_iff]
  exact exists_congr fun c => and_congr_right fun _ => Option.some_inj

/-- All numbers of a key are read back, and those that follow from the others are not needed. -/
theorem decode?_encode? {k : PrivateKey} {b : Bytes} (h : k.encode? = some b)
    (fits : Der.fits b = true) : decode? b = some k := by
  obtain ⟨c, -, rfl⟩ := encode?_eq_some.mp h
  have small := Der.Element.fits_of_encode fits
  have whole := Der.Element.ofBytes?_encode ⟨rfl, small⟩
  have parts := Der.Element.sequence?_sequence (List.forall_mem_map.mpr fun _ _ => rfl) small
  have numbers : ((k.numbers c).map Der.Element.integer).mapM (·.natural?)
      = some (k.numbers c) := Der.mapM_map_of_inverse fun n _ => Der.Element.natural?_integer n
  rw [decode?, whole, Option.bind_eq_bind, Option.bind_some, parts, Option.bind_eq_bind,
    Option.bind_some, numbers]
  exact dif_pos k.sound

theorem encode?_length_le {k : PrivateKey} {c m : Nat} (coefficient : k.coefficient? = some c)
    (bounded : ∀ n ∈ k.numbers c, n < 256 ^ m) (room : 9 * m + 63 ≤ Der.lengthLimit) :
    ∃ b, k.encode? = some b ∧ b.length ≤ 9 * m + 69 := by
  have written := encode?_eq_some.mpr ⟨c, coefficient, rfl⟩
  have each : ∀ e ∈ (k.numbers c).map Der.Element.integer, e.encode.length ≤ m + 7 := by
    intro e he
    obtain ⟨n, hn, rfl⟩ := List.mem_map.mp he
    exact Der.Element.encode_length_le_of_content (Der.integerContent_length_le (bounded n hn))
      (by omega)
  have all : (Der.Element.encodeAll ((k.numbers c).map .integer)).length ≤ 9 * m + 63 := by
    have := Der.Element.encodeAll_length_le each
    rw [List.length_map, numbers, List.length_cons] at this
    simp only [List.length_cons, List.length_nil] at this
    exact Nat.le_trans this (by omega)
  exact ⟨_, written, Der.Element.encode_length_le_of_content (e := .sequence _) all room⟩

/-- The octets of a key that is read have both numbers of its public half and seven more. -/
theorem publicKey_length_le {k : PrivateKey} {b : Bytes} (h : decode? b = some k) :
    k.publicKey.encode.length + 10 ≤ b.length := by
  obtain ⟨e, whole, h⟩ := Option.bind_eq_some_iff.mp h
  obtain ⟨fields, parts, h⟩ := Option.bind_eq_some_iff.mp h
  obtain ⟨numbers, read, made⟩ := Option.bind_eq_some_iff.mp h
  obtain ⟨written, readable⟩ := Der.Element.encode_of_ofBytes? whole
  have limit := readable.fits
  have frame := e.content_length_add_two_le
  rw [(Der.Element.of_sequence? parts).1,
    Der.eq_map_of_mapM (fun _ _ => Der.Element.of_natural?) read] at limit frame written
  split at made
  next n e d p q x y z =>
    unfold ofNumbers? at made
    split at made
    next =>
      cases Option.some.inj made
      have two (m : Nat) : 2 ≤ (Der.Element.integer m).encode.length :=
        Nat.le_trans (Nat.le_add_left 2 _) (Der.Element.content_length_add_two_le _)
      have both : (Der.Element.encodeAll [.integer n, .integer e]).length + 14
          ≤ (Der.Element.encodeAll
            ([0, n, e, d, p, q, x, y, z].map Der.Element.integer)).length := by
        have := two 0
        have := two d
        have := two p
        have := two q
        have := two x
        have := two y
        have := two z
        simp only [List.map_cons, List.map_nil, Der.Element.encodeAll_cons, List.length_append]
        omega
      have small : (Der.Element.sequence [.integer n, .integer e]).Fits :=
        Nat.le_trans (Nat.le_trans (Nat.le_add_right _ 14) both) limit
      have framed := Der.Element.encode_length_le small
      rw [← written]
      calc (PublicKey.encode ⟨n, e⟩).length + 10
          ≤ (Der.Element.encodeAll [.integer n, .integer e]).length + 6 + 10 :=
            Nat.add_le_add_right framed 10
        _ ≤ _ := Nat.le_trans (Nat.add_le_add_right both 2) frame
    next => cases made
  next => cases made

end Rsa.PrivateKey

namespace NistCurve

theorem secret_room (c : NistCurve) : c.curve.n ≤ 256 ^ c.curve.size := by
  cases c <;> decide +kernel

end NistCurve

namespace Ed25519

theorem encode_length_le (P : Extended) : (encode P).length ≤ size := by
  unfold encode
  split
  next => simp
  next => simp

theorem sign_length_le (key : PrivateKey) (message : Bytes) :
    (sign key message).length ≤ 2 * size := by
  have first (P : Extended) (n : Nat) :
      (encode P ++ fixedBytesLe size n).length ≤ 2 * size := by
    have := encode_length_le P
    rw [List.length_append, fixedBytesLe_length]
    omega
  exact first _ _

end Ed25519

namespace PrivateKeyInfo

theorem decode?_encode {i : PrivateKeyInfo} (algorithm : i.algorithm.Readable)
    (fits : Der.fits i.encode = true) : decode? i.encode = some i := by
  obtain ⟨a, octets, key⟩ := i
  have small := Der.Element.fits_of_encode fits
  have whole := Der.Element.ofBytes?_encode ⟨rfl, small⟩
  have id := AlgorithmIdentifier.ofElement?_element algorithm
    (Der.Element.fits_of_mem_sequence small (by simp))
  have field : Der.Tag.isKnown (Der.Tag.context 1) = true
      ∧ Der.Tag.isContext (Der.Tag.context 1) = true
      ∧ Der.Tag.number (Der.Tag.context 1) = 1 := by decide
  have parts := Der.Element.sequence?_sequence (by
    intro x hx
    simp only [List.mem_cons, List.mem_map] at hx
    obtain rfl | rfl | rfl | ⟨b, -, rfl⟩ := hx
    · rfl
    · rfl
    · rfl
    · exact field.1) small
  rw [decode?, encode, whole, Option.bind_some, ofElement?, element, parts, Option.bind_eq_bind,
    Option.bind_some]
  cases key with
  | none => simp [id, Der.Element.natural?_integer, Der.Element.octets?_octets, Der.takeContext]
  | some b =>
    have taken : Der.takeContext 1 [⟨Der.Tag.context 1, (Der.BitString.ofOctets b).content⟩]
        = (some ⟨Der.Tag.context 1, (Der.BitString.ofOctets b).content⟩, []) :=
      Der.takeContext_same field.2.1 field.2.2
    have key : publicKey? ⟨Der.Tag.context 1, (Der.BitString.ofOctets b).content⟩ = some b := by
      rw [publicKey?, Der.Element.content?_of_tag, Option.bind_eq_bind, Option.bind_some,
        Der.BitString.ofContent?_content (Der.BitString.ofOctets_readable b)]
      rfl
    simp [id, Der.Element.natural?_integer, Der.Element.octets?_octets, taken, key]

/-- An envelope that is read has room for its algorithm and the octets of its key. -/
theorem octets_length_le {i : PrivateKeyInfo} {b : Bytes} (h : decode? b = some i) :
    i.algorithm.encode.length + i.octets.length + 4 ≤ Der.lengthLimit := by
  obtain ⟨e, whole, h⟩ := Option.bind_eq_some_iff.mp h
  obtain ⟨parts, hp, h⟩ := Option.bind_eq_some_iff.mp h
  have limit := (Der.Element.encode_of_ofBytes? whole).2.fits
  rw [(Der.Element.of_sequence? hp).1] at limit
  split at h
  next version algorithm octets rest =>
    obtain ⟨number, -, h⟩ := Option.bind_eq_some_iff.mp h
    obtain ⟨a, hk, h⟩ := Option.bind_eq_some_iff.mp h
    obtain ⟨key, ho, h⟩ := Option.bind_eq_some_iff.mp h
    obtain ⟨publicKey, -, h⟩ := Option.bind_eq_some_iff.mp h
    obtain ⟨-, made⟩ := Option.ite_none_right_eq_some.mp h
    cases Option.some.inj made
    have first := version.content_length_add_two_le
    have last : key.length + 2 ≤ octets.encode.length := by
      rw [Der.Element.of_content? ho]
      exact Der.Element.content_length_add_two_le (.octets key)
    simp only [Der.Element.Fits, Der.Element.sequence, Der.Element.encodeAll_cons,
      List.length_append, ← (AlgorithmIdentifier.of_ofElement? hk).1] at limit
    show a.element.encode.length + key.length + 4 ≤ _
    omega
  next => cases h

/-- An envelope adds at most a hundred octets to those of a key. -/
theorem encode_length_le {i : PrivateKeyInfo} {m : Nat} (octets : i.octets.length ≤ m)
    (algorithm : i.algorithm.element.encode.length ≤ 21)
    (publicKey : ∀ b ∈ i.publicKey, b.length ≤ Ed25519.size) (room : m + 100 ≤ Der.lengthLimit) :
    i.encode.length ≤ m + 100 := by
  have version : (Der.Element.integer (if i.publicKey.isSome then 1 else 0)).encode.length
      = 3 := by
    split <;> decide +kernel
  have key : (Der.Element.octets i.octets).encode.length ≤ m + 6 :=
    Der.Element.encode_length_le_of_content (e := .octets _) octets (by omega)
  have field : (Der.Element.encodeAll (i.publicKey.toList.map fun b =>
      ⟨Der.Tag.context 1, (Der.BitString.ofOctets b).content⟩)).length ≤ 39 := by
    cases stored : i.publicKey with
    | none => simp [Der.Element.encodeAll]
    | some b =>
      rw [Option.toList_some, List.map_singleton, Der.Element.encodeAll_singleton]
      exact Der.Element.encode_length_le_of_content (Nat.succ_le_succ (publicKey b stored))
        (by decide)
  have content : i.element.content.length ≤ m + 69 := by
    rw [element, Der.Element.sequence, Der.Element.encodeAll_cons, Der.Element.encodeAll_cons,
      Der.Element.encodeAll_cons]
    simp only [List.length_append]
    omega
  exact Nat.le_trans (Der.Element.encode_length_le_of_content content (by omega)) (by omega)

end PrivateKeyInfo

namespace KeyPair

theorem decodeSecret?_encodeSecret {key : Ecdsa.PrivateKey}
    (fits : Der.fits (encodeSecret key) = true) :
    decodeSecret? key.curve (encodeSecret key) = some key := by
  have small := Der.Element.fits_of_encode fits
  have whole := Der.Element.ofBytes?_encode ⟨rfl, small⟩
  have tag : Der.Tag.isConstructed (Der.Tag.contextConstructed 1) = true
      ∧ Der.Tag.isContext (Der.Tag.contextConstructed 1) = true
      ∧ Der.Tag.number (Der.Tag.contextConstructed 1) = 1
      ∧ Der.Tag.isKnown (Der.Tag.contextConstructed 1) = true := by decide
  have parts := Der.Element.sequence?_sequence (by
    intro x hx
    simp only [List.mem_cons, List.not_mem_nil, or_false] at hx
    obtain rfl | rfl | rfl := hx
    · rfl
    · rfl
    · exact tag.2.2.2) small
  -- The field in front of the point, which names the curve again, is left out.
  have first (e : Der.Element) :
      Der.takeContext 0 [.explicit 1 e] = (none, [.explicit 1 e]) :=
    Der.takeContext_other fun _ => by rw [Der.Element.explicit, tag.2.2.1]; decide
  have second (e : Der.Element) : Der.takeContext 1 [.explicit 1 e] = (some (.explicit 1 e), []) :=
    Der.takeContext_same tag.2.1 tag.2.2.1
  have readable := Der.BitString.ofOctets_readable (key.curve.curve.encode key.point)
  have field : (Der.Element.explicit 1
      (Der.BitString.ofOctets (key.curve.curve.encode key.point)).element).Fits :=
    Der.Element.fits_of_mem_sequence small (by simp)
  have point := Der.Element.only?_explicit tag.1 ⟨rfl, Der.Element.fits_of_explicit field⟩
  have secret : beNat (fixedBytes key.curve.curve.size key.secret) = key.secret := by
    have sound := key.sound
    simp only [Ecdsa.isSecret, Bool.and_eq_true, decide_eq_true_eq] at sound
    exact beNat_fixedBytes_of_lt (Nat.lt_of_lt_of_le sound.1.2 key.curve.secret_room)
  have same : Ecdsa.PrivateKey.ofSecret? key.curve key.secret = some key := dif_pos key.sound
  rw [decodeSecret?, encodeSecret, whole, Option.bind_eq_bind, Option.bind_some, parts,
    Option.bind_eq_bind, Option.bind_some]
  simp [Der.Element.octets?_octets, first, second, point, Der.BitString.ofElement?_element readable,
    secret, same, hasPoint, Der.BitString.octets?_ofOctets, Option.filter]

theorem decodeSeed?_octets {key : Ed25519.PrivateKey} {i : PrivateKeyInfo}
    (h : (ed25519 key).toInfo = .ok i) (fits : Der.fits i.octets = true) :
    decodeSeed? i = some key := by
  cases Except.ok.inj h
  have whole := Der.Element.ofBytes?_encode ⟨rfl, Der.Element.fits_of_encode fits⟩
  have same : Ed25519.PrivateKey.ofSecret? key.secret = some key := dif_pos key.sound
  rw [decodeSeed?, whole, Option.bind_eq_bind, Option.bind_some, Der.Element.octets?_octets]
  simp [same, publicKey, PublicKey.octets, PublicKey.algorithm]

/-- An RSA key is put into an envelope exactly if its numbers have a form. -/
theorem toInfo_rsa_eq_ok {key : Rsa.PrivateKey} {i : PrivateKeyInfo} :
    (rsa key).toInfo = .ok i ↔ ∃ octets, key.encode? = some octets
      ∧ i = ⟨(PublicKey.rsa key.publicKey).algorithm, octets, none⟩ := by
  rw [toInfo]
  cases key.encode? with
  | none => simp
  | some octets => simp [eq_comm]

theorem algorithm_toInfo {k : KeyPair} {i : PrivateKeyInfo} (h : k.toInfo = .ok i) :
    i.algorithm = k.publicKey.algorithm := by
  cases k with
  | rsa key =>
    obtain ⟨octets, -, rfl⟩ := toInfo_rsa_eq_ok.mp h
    rfl
  | ecdsa key => cases Except.ok.inj h; rfl
  | ed25519 key => cases Except.ok.inj h; rfl

theorem ofInfo_toInfo {k : KeyPair} {i : PrivateKeyInfo} (h : k.toInfo = .ok i)
    (fits : Der.fits i.octets = true) : ofInfo i = .ok k := by
  have ecdsa_rsa : ecdsaOid ≠ rsaOid := by decide
  have ed_rsa : ed25519Oid ≠ rsaOid := by decide
  have ed_ecdsa : ed25519Oid ≠ ecdsaOid := by decide
  have algorithm := algorithm_toInfo h
  cases k with
  | rsa key =>
    obtain ⟨octets, encoded, rfl⟩ := toInfo_rsa_eq_ok.mp h
    have read := Rsa.PrivateKey.decode?_encode? encoded fits
    rw [ofInfo, algorithm]
    simp only [publicKey, PublicKey.algorithm, if_true, read]
    rfl
  | ecdsa key =>
    cases Except.ok.inj h
    have read := decodeSecret?_encodeSecret fits
    rw [ofInfo, algorithm]
    simp only [publicKey, PublicKey.algorithm, ecdsa_rsa, if_false, if_true, Option.bind_some,
      Oid.ofElement?_element key.curve.oid_readable, NistCurve.ofOid?_oid, read]
    rfl
  | ed25519 key =>
    have read := decodeSeed?_octets h fits
    rw [ofInfo, algorithm]
    simp only [publicKey, PublicKey.algorithm, ed_rsa, ed_ecdsa, if_false, if_true, read]
    rfl

/-- Whatever key has an envelope is read back from it. -/
theorem ofPkcs8_toPkcs8 {k : KeyPair} {b : Bytes} (h : k.toPkcs8 = .ok b) : ofPkcs8 b = .ok k := by
  obtain ⟨i, info, h⟩ := bind_eq_ok.mp h
  split at h
  next fits =>
    cases Except.ok.inj h
    have readable : i.algorithm.Readable := algorithm_toInfo info ▸ k.publicKey.algorithm_readable
    have inner : (Der.Element.octets i.octets).Fits :=
      Der.Element.fits_of_mem_sequence (Der.Element.fits_of_encode fits) (by simp)
    rw [ofPkcs8, PrivateKeyInfo.decode?_encode readable fits]
    exact ofInfo_toInfo info (decide_eq_true inner)
  next => cases h

theorem ofPem_toPem {k : KeyPair} {text : String} (h : k.toPem = .ok text) :
    ofPem text = .ok k := by
  obtain ⟨b, hb, rfl⟩ := map_eq_ok.mp h
  rw [ofPem, Pem.decode_armor (by decide) (by decide)]
  exact ofPkcs8_toPkcs8 hb

theorem publicKey_length_toInfo {k : KeyPair} {i : PrivateKeyInfo} (h : k.toInfo = .ok i) :
    ∀ b ∈ i.publicKey, b.length ≤ Ed25519.size := by
  intro b hb
  cases k with
  | rsa key =>
    obtain ⟨octets, -, rfl⟩ := toInfo_rsa_eq_ok.mp h
    cases hb
  | ecdsa key => cases Except.ok.inj h; cases hb
  | ed25519 key =>
    cases Except.ok.inj h
    cases Option.some.inj hb
    exact Ed25519.encode_length_le _

theorem algorithm_length_le (k : PublicKey) : k.algorithm.element.encode.length ≤ 21 := by
  cases k with
  | rsa key =>
    show (AlgorithmIdentifier.element ⟨rsaOid, some .null⟩).encode.length ≤ 21
    decide +kernel
  | ecdsa curve point =>
    show (AlgorithmIdentifier.element ⟨ecdsaOid, some curve.oid.element⟩).encode.length ≤ 21
    cases curve <;> decide +kernel
  | ed25519 octets =>
    show (AlgorithmIdentifier.element ⟨ed25519Oid, none⟩).encode.length ≤ 21
    decide +kernel

/-- A key of which the octets are not enormous has an envelope. -/
theorem toPkcs8_of_short {k : KeyPair} {i : PrivateKeyInfo} {m : Nat} (info : k.toInfo = .ok i)
    (short : i.octets.length ≤ m) (room : m + 100 ≤ Der.lengthLimit) :
    k.toPkcs8 = .ok i.encode := by
  have algorithm : i.algorithm.element.encode.length ≤ 21 :=
    algorithm_toInfo info ▸ algorithm_length_le k.publicKey
  have length := PrivateKeyInfo.encode_length_le short algorithm (publicKey_length_toInfo info) room
  have fits : Der.fits i.encode = true := decide_eq_true (Nat.le_trans length room)
  rw [toPkcs8, info, ok_bind, if_pos fits]
  rfl

/-- A key whose factors have a coefficient has an envelope, unless its numbers are enormous. -/
theorem exists_toPkcs8 {key : Rsa.PrivateKey} {m : Nat}
    (bounded : key.coefficient?.any (fun c => (key.numbers c).all (· < 256 ^ m)) = true)
    (room : 9 * m + 169 ≤ Der.lengthLimit) : ∃ b, (rsa key).toPkcs8 = .ok b := by
  obtain ⟨c, coefficient, small⟩ := (Option.any_eq_true _ _).mp bounded
  have each : ∀ n ∈ key.numbers c, n < 256 ^ m := by simpa using small
  obtain ⟨octets, written, short⟩ := Rsa.PrivateKey.encode?_length_le coefficient each (by omega)
  exact ⟨_, toPkcs8_of_short (toInfo_rsa_eq_ok.mpr ⟨octets, written, rfl⟩) short (by omega)⟩

/-- Whether a key has a modulus of more bits than are read in a certificate. -/
def isOversized : KeyPair → Bool
  | rsa key => Rsa.maxBits < bitLength key.n
  | ecdsa _ => false
  | ed25519 _ => false

/-- The public half of a key is read back unless its modulus is too long. The numbers of RSA keys,
the points of the curves and the ordinates of Ed25519 are sound in every key. -/
theorem isAccepted_publicKey (k : KeyPair) : k.publicKey.isAccepted = !k.isOversized := by
  cases k with
  | rsa key =>
    have sound := key.sound
    simp only [Rsa.fitTogether, Bool.and_eq_true] at sound
    rw [publicKey, PublicKey.isAccepted, sound.1.1.1.1.1, Bool.true_and, isOversized, ← decide_not]
    exact decide_eq_decide.mpr Nat.not_lt.symm
  | ecdsa key => rfl
  | ed25519 key => exact Ed25519.isPublicKey_publicKey key.secret

/-- An RSA key is read from the octets of its envelope, which must name the algorithm in full. -/
theorem decode?_of_ofInfo {i : PrivateKeyInfo} {key : Rsa.PrivateKey}
    (h : ofInfo i = .ok (rsa key)) : i.algorithm = (PublicKey.rsa key.publicKey).algorithm
      ∧ Rsa.PrivateKey.decode? i.octets = some key := by
  unfold ofInfo at h
  split at h
  next oid =>
    have read := orMalformed_eq_ok.mp h
    split at read
    next parameters =>
      obtain ⟨key', decoded, same⟩ := Option.map_eq_some_iff.mp read
      cases same
      refine ⟨?_, decoded⟩
      rw [PublicKey.algorithm, ← oid, ← parameters]
    next => cases read
  next =>
    -- The envelopes of the other algorithms hold other keys.
    split at h
    next =>
      split at h
      next => cases h
      next =>
        split at h
        next => cases h
        next =>
          obtain ⟨key', -, other⟩ := Option.map_eq_some_iff.mp (orMalformed_eq_ok.mp h)
          cases other
    next =>
      split at h
      next =>
        obtain ⟨key', -, other⟩ := Option.map_eq_some_iff.mp (orMalformed_eq_ok.mp h)
        cases other
      next => cases h

/-- The form of a key with few octets is within the limit. -/
theorem fits_form_of_short {k : PublicKey} (algorithm : k.algorithm.encode.length ≤ 21)
    (octets : k.octets.length ≤ 200) : Der.fits k.form.encode = true := by
  have room : k.form.algorithm.encode.length + k.form.key.octets.length + 7 ≤ Der.lengthLimit :=
    Nat.le_trans (Nat.add_le_add_right (Nat.add_le_add algorithm octets) 7) (by decide)
  have length := SubjectPublicKeyInfo.encode_length_le room
  exact decide_eq_true (Nat.le_trans length (Nat.le_trans
    (Nat.add_le_add_right (Nat.add_le_add algorithm octets) 13) (by decide)))

/-- The public half of a key that was read has a form within the limit. -/
theorem fits_form {b : Bytes} {k : KeyPair} (h : ofPkcs8 b = .ok k) :
    Der.fits k.publicKey.form.encode = true := by
  obtain ⟨i, read, h⟩ := bind_eq_ok.mp h
  have accepted := k.isAccepted_publicKey
  cases k with
  | rsa key =>
    obtain ⟨algorithm, decoded⟩ := decode?_of_ofInfo h
    have envelope := PrivateKeyInfo.octets_length_le (orMalformed_eq_ok.mp read)
    have more := Rsa.PrivateKey.publicKey_length_le decoded
    rw [algorithm] at envelope
    have room : (PublicKey.rsa key.publicKey).algorithm.encode.length
        + key.publicKey.encode.length + 13 ≤ Der.lengthLimit := by omega
    exact decide_eq_true (Nat.le_trans
      (SubjectPublicKeyInfo.encode_length_le
        (Nat.le_trans (Nat.add_le_add_left (by decide) _) room))
      room)
  | ecdsa key =>
    apply fits_form_of_short
    · show (AlgorithmIdentifier.mk ecdsaOid (some key.curve.oid.element)).encode.length ≤ 21
      cases key.curve <;> decide +kernel
    · have size : 1 + 2 * key.curve.curve.size ≤ 200 := by cases key.curve <;> decide
      simp only [publicKey, PublicKey.octets, Weierstrass.Curve.encode, List.length_cons,
        List.length_append, fixedBytes_length]
      omega
  | ed25519 key =>
    apply fits_form_of_short
    · show (AlgorithmIdentifier.mk ed25519Oid none).encode.length ≤ 21
      decide +kernel
    · have length : (Ed25519.publicKey key.secret).length ≤ Ed25519.size :=
        Ed25519.encode_length_le _
      exact Nat.le_trans length (by decide)

/-- A key of the factors 5 and 11. -/
def sample : KeyPair := .rsa ⟨⟨55, 3⟩, 27, 5, 11, by decide⟩

end KeyPair

end CertAuthority
