import CertAuthority.Proofs.Arith.Modular
import CertAuthority.Proofs.KeyPair

namespace CertAuthority

namespace Rsa.PrivateKey

theorem sound_factors (k : PrivateKey) : 2 ≤ k.p ∧ 2 ≤ k.q ∧ k.p * k.q = k.n ∧ k.e < k.n := by
  have sound := k.sound
  simp only [fitTogether, PublicKey.isSound, Bool.and_eq_true, decide_eq_true_eq, beq_iff_eq]
    at sound
  exact ⟨sound.1.1.1.1.2, sound.1.1.1.2, sound.1.1.2, sound.1.1.1.1.1.1.1.1.1⟩

/-- The coefficient is there exactly if the factors have nothing in common. -/
theorem coefficient?_isSome_iff (k : PrivateKey) :
    k.coefficient?.isSome = true ↔ Nat.Coprime k.p k.q := by
  have factors := k.sound_factors
  rw [coefficient?, Modular.inverse?_isSome_iff (by omega), Nat.coprime_comm]

/-- Modulus and signing exponent bound all numbers of a key. -/
theorem numbers_lt {k : PrivateKey} {c bound : Nat} (coefficient : k.coefficient? = some c)
    (modulus : k.n < bound) (exponent : k.d < bound) : ∀ x ∈ k.numbers c, x < bound := by
  obtain ⟨hp, hq, product, he⟩ := k.sound_factors
  have first : k.p ≤ k.n := product ▸ Nat.le_mul_of_pos_right k.p (by omega)
  have second : k.q ≤ k.n := product ▸ Nat.le_mul_of_pos_left k.q (by omega)
  have hc : c < k.p := Modular.inverse?_lt (by omega) coefficient
  have dp := Nat.mod_le k.d (k.p - 1)
  have dq := Nat.mod_le k.d (k.q - 1)
  simp only [numbers, List.forall_mem_cons, List.not_mem_nil, false_imp_iff, implies_true, and_true]
  omega

end Rsa.PrivateKey

namespace KeyPair

theorem encodeSecret_length_le (key : Ecdsa.PrivateKey) : (encodeSecret key).length ≤ 300 := by
  have size : key.curve.curve.size ≤ 66 := by cases key.curve <;> decide
  have room : 300 ≤ Der.lengthLimit := by decide
  have version : (Der.Element.integer 1).encode.length = 3 := by decide +kernel
  have secret : (Der.Element.octets (fixedBytes key.curve.curve.size key.secret)).encode.length
      ≤ 66 + 6 := by
    apply Der.Element.encode_length_le_of_content _ (by omega)
    exact (fixedBytes_length _ _).trans_le size
  have point : (key.curve.curve.encode key.point).length ≤ 133 := by
    simp only [Weierstrass.Curve.encode, List.length_cons, List.length_append, fixedBytes_length]
    omega
  have bits : (Der.BitString.ofOctets (key.curve.curve.encode key.point)).element.encode.length
      ≤ 134 + 6 :=
    Der.Element.encode_length_le_of_content (Nat.succ_le_succ point) (by omega)
  have field : (Der.Element.explicit 1
      (Der.BitString.ofOctets (key.curve.curve.encode key.point)).element).encode.length
      ≤ 140 + 6 := Der.Element.encode_length_le_of_content bits (by omega)
  have content : (Der.Element.sequence [.integer 1,
      .octets (fixedBytes key.curve.curve.size key.secret), .explicit 1
        (Der.BitString.ofOctets (key.curve.curve.encode key.point)).element]).content.length
      ≤ 230 := by
    rw [Der.Element.sequence, Der.Element.encodeAll_cons, Der.Element.encodeAll_cons,
      Der.Element.encodeAll_singleton]
    simp only [List.length_append]
    omega
  exact Nat.le_trans (Der.Element.encode_length_le_of_content content (by omega)) (by omega)

theorem exists_toPem {k : KeyPair} {i : PrivateKeyInfo} {m : Nat} (info : k.toInfo = .ok i)
    (short : i.octets.length ≤ m) (room : m + 100 ≤ Der.lengthLimit) :
    ∃ text, k.toPem = .ok text := by
  rw [toPem, toPkcs8_of_short info short room]
  exact ⟨_, rfl⟩

/-- Which keys have a text: those on curves, and RSA keys of two factors that have nothing in
common, unless their numbers are enormous. -/
def HasText (k : KeyPair) : Prop :=
  match k with
  | rsa key => ∀ m, key.n < 256 ^ m → key.d < 256 ^ m → 9 * m + 169 ≤ Der.lengthLimit →
    ((∃ text, k.toPem = .ok text) ↔ Nat.Coprime key.p key.q)
  | ecdsa _ | ed25519 _ => ∃ text, k.toPem = .ok text

theorem coprime_of_toPem {key : Rsa.PrivateKey} {text : String}
    (h : (rsa key).toPem = .ok text) : Nat.Coprime key.p key.q := by
  obtain ⟨b, written, -⟩ := map_eq_ok.mp h
  obtain ⟨i, info, -⟩ := bind_eq_ok.mp written
  obtain ⟨octets, encoded, -⟩ := toInfo_rsa_eq_ok.mp info
  obtain ⟨c, coefficient, -⟩ := Rsa.PrivateKey.encode?_eq_some.mp encoded
  rw [← key.coefficient?_isSome_iff, coefficient]
  rfl

theorem exists_toPem_of_coprime {key : Rsa.PrivateKey} {m : Nat} (modulus : key.n < 256 ^ m)
    (exponent : key.d < 256 ^ m) (room : 9 * m + 169 ≤ Der.lengthLimit)
    (coprime : Nat.Coprime key.p key.q) : ∃ text, (rsa key).toPem = .ok text := by
  obtain ⟨c, coefficient⟩ := Option.isSome_iff_exists.mp (key.coefficient?_isSome_iff.mpr coprime)
  have small := Rsa.PrivateKey.numbers_lt coefficient modulus exponent
  have bounded : key.coefficient?.any (fun c => (key.numbers c).all (· < 256 ^ m)) = true := by
    rw [coefficient]
    simpa using small
  obtain ⟨b, written⟩ := exists_toPkcs8 bounded room
  rw [toPem, written]
  exact ⟨_, rfl⟩

theorem hasText (k : KeyPair) : k.HasText := by
  cases k with
  | rsa key =>
    intro m modulus exponent room
    constructor
    · rintro ⟨text, h⟩
      exact coprime_of_toPem h
    · exact exists_toPem_of_coprime modulus exponent room
  | ecdsa key => exact exists_toPem rfl (encodeSecret_length_le key) (by decide)
  | ed25519 key =>
    have short : (Der.Element.octets key.secret).encode.length ≤ Ed25519.size + 6 :=
      Der.Element.encode_length_le_of_content (e := .octets _) key.sound.le (by decide)
    exact exists_toPem rfl short (by decide)

/-- The nonce plays a part for keys on the longest curve alone. -/
theorem sign_eq_of_ne_p521 {k : KeyPair} (other : k.keyType ≠ .ecdsaP521) (nonce nonce' : Nat)
    (message : Bytes) : k.sign nonce message = k.sign nonce' message := by
  cases k with
  | rsa key => rfl
  | ecdsa key =>
    have shorter : key.curve ≠ .p521 := by
      intro longest
      apply other
      show key.curve.keyType = _
      rw [longest]
      rfl
    simp only [sign, Ecdsa.sign?, if_neg shorter]
  | ed25519 key => rfl

/-- The text of a key gives back the very key, so with its type, its secret, its public half and its
text, and with its signatures as far as key and message determine them, which they do but on the
longest curve. -/
theorem restored_of_toPem (k : KeyPair) :
    (∀ text, k.toPem = .ok text → ofPem text = .ok k) ∧ k.HasText
      ∧ (k.keyType ≠ .ecdsaP521 →
        ∀ nonce nonce' message, k.sign nonce message = k.sign nonce' message) :=
  ⟨fun _ => ofPem_toPem, k.hasText, sign_eq_of_ne_p521⟩

set_option maxRecDepth 100000 in
/-- A key of which the secret has all but one of its octets zero. -/
def smallSample (curve : NistCurve) : KeyPair :=
  .ecdsa ⟨curve, 1, by cases curve <;> decide +kernel⟩

theorem restored_of_toPem_smallSample :
    ∃ text, (smallSample .p256).toPem = .ok text ∧ ofPem text = .ok (smallSample .p256)
      ∧ ∀ nonce nonce' message,
        (smallSample .p256).sign nonce message = (smallSample .p256).sign nonce' message := by
  obtain ⟨restored, ⟨text, written⟩, same⟩ := restored_of_toPem (smallSample .p256)
  exact ⟨text, written, restored text written, same (by decide)⟩

set_option maxRecDepth 100000 in
/-- A key on the longest curve is given back, but with two nonces it signs a message twofold. -/
theorem not_same_signature_smallSample :
    ∃ text signature signature', (smallSample .p521).toPem = .ok text
      ∧ ofPem text = .ok (smallSample .p521)
      ∧ (smallSample .p521).sign 1 [] = .ok signature
      ∧ (smallSample .p521).sign 2 [] = .ok signature' ∧ signature ≠ signature' := by
  have works : ((smallSample .p521).sign 1 []).isOk = true
      ∧ ((smallSample .p521).sign 2 []).isOk = true
      ∧ (smallSample .p521).sign 1 [] ≠ (smallSample .p521).sign 2 [] := by decide +kernel
  obtain ⟨text, written⟩ := (smallSample .p521).hasText
  obtain ⟨signature, first⟩ := exists_of_isOk works.1
  obtain ⟨signature', second⟩ := exists_of_isOk works.2.1
  refine ⟨text, signature, signature', written, ofPem_toPem written, first, second, ?_⟩
  rintro rfl
  exact works.2.2 (first.trans second.symm)

end KeyPair

end CertAuthority
