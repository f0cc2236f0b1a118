import CertAuthority.Key.KeyPair
import CertAuthority.Proofs.Curve.Nist
import CertAuthority.Proofs.Der.Primitive
import CertAuthority.Proofs.Entropy
import CertAuthority.Proofs.Fault

namespace CertAuthority

open Weierstrass

namespace Ecdsa

/-- The secrets of a curve are all the numbers below its order but zero. -/
theorem isSecret_iff {curve : NistCurve} {secret : Nat} :
    isSecret curve secret = true ↔ 0 < secret ∧ secret < curve.curve.n := by
  simp only [isSecret, Bool.and_eq_true, decide_eq_true_eq]
  constructor
  · rintro ⟨range, -⟩
    exact range
  · intro range
    obtain ⟨R, found, -⟩ := curve.sound.point?_eq_some (Nat.not_dvd_of_pos_of_lt range.1 range.2)
    exact ⟨range, by rw [found]; rfl⟩

namespace PrivateKey

theorem ofSecret?_isSome_iff {curve : NistCurve} {secret : Nat} :
    (ofSecret? curve secret).isSome ↔ 0 < secret ∧ secret < curve.curve.n := by
  rw [← isSecret_iff, ofSecret?]
  split
  next accepted => exact iff_of_true rfl accepted
  next refused => exact iff_of_false Bool.false_ne_true refused

theorem of_ofSecret? {curve : NistCurve} {secret : Nat} {key : PrivateKey}
    (h : ofSecret? curve secret = some key) : key.curve = curve ∧ key.secret = secret := by
  unfold ofSecret? at h
  split at h
  next =>
    cases Option.some.inj h
    exact ⟨rfl, rfl⟩
  next => cases h

theorem element_point (key : PrivateKey) :
    key.curve.sound.element key.point = key.secret • key.curve.sound.base := by
  obtain ⟨pos, below⟩ := isSecret_iff.mp key.sound
  obtain ⟨R, found, same⟩ := key.curve.sound.point?_eq_some (Nat.not_dvd_of_pos_of_lt pos below)
  have own : key.point = R := Option.get_of_eq_some _ found
  rw [own, same]

end PrivateKey

/-- What makes two numbers a signature, of a digest with a nonce. -/
theorem signWith?_eq_some {key : PrivateKey} {nonce : Nat} {message : Bytes} {sig : Signature}
    (h : signWith? key nonce message = some sig) :
    let c := key.curve.curve
    ∃ R inverse, c.point? nonce = some R ∧ Modular.inverse? nonce c.n = some inverse
      ∧ sig.r = R.x % c.n ∧ sig.s = inverse
        * (leadingBits c (key.curve.hash.hash message) + sig.r * key.secret) % c.n
      ∧ sig.r ≠ 0 ∧ sig.s ≠ 0 := by
  intro c
  obtain ⟨R, found, h⟩ := Option.bind_eq_some_iff.mp h
  obtain ⟨inverse, inverted, h⟩ := Option.bind_eq_some_iff.mp h
  dsimp only at h
  split at h
  next => cases h
  next nonzero =>
    cases Option.some.inj h
    rw [not_or] at nonzero
    exact ⟨R, inverse, found, inverted, rfl, rfl, nonzero⟩

/-- The factors that a verifier takes the generator and the public point by add up to the nonce. -/
theorem factors_modEq {n k inverse e r d w : Nat} (inverted : k * inverse % n = 1 % n)
    (undone : inverse * (e + r * d) % n * w % n = 1 % n) :
    e * w % n + r * w % n * d ≡ k [MOD n] := by
  rw [← ZMod.natCast_eq_natCast_iff'] at inverted undone
  rw [← ZMod.natCast_eq_natCast_iff]
  push_cast [ZMod.natCast_mod] at inverted undone ⊢
  linear_combination (k : ZMod n) * undone - (w : ZMod n) * (e + r * d) * inverted

/-- Whatever a key signs, with whatever nonce, is verified under its point. -/
theorem verify_of_signWith? {key : PrivateKey} {nonce : Nat} {message : Bytes} {sig : Signature}
    (h : signWith? key nonce message = some sig) :
    verify key.curve key.point message sig = true := by
  obtain ⟨R, inverse, found, inverted, hr, hs, r_nonzero, s_nonzero⟩ := signWith?_eq_some h
  have sound := key.curve.sound
  have prime := sound.order
  have range : 0 < sig.r ∧ sig.r < key.curve.curve.n ∧ 0 < sig.s ∧ sig.s < key.curve.curve.n :=
    ⟨Nat.pos_of_ne_zero r_nonzero, hr ▸ Nat.mod_lt _ prime.pos, Nat.pos_of_ne_zero s_nonzero,
      hs ▸ Nat.mod_lt _ prime.pos⟩
  have coprime : Nat.Coprime sig.s key.curve.curve.n :=
    (Nat.coprime_of_lt_prime s_nonzero range.2.2.2 prime).symm
  obtain ⟨w, undone⟩ :=
    Option.isSome_iff_exists.mp ((Modular.inverse?_isSome_iff prime.pos).mpr coprime)
  have units : ¬ key.curve.curve.n ∣ nonce := by
    have coprime := (Modular.inverse?_isSome_iff prime.pos).mp (by rw [inverted]; rfl)
    rwa [← prime.coprime_iff_not_dvd, Nat.coprime_comm]
  obtain ⟨R', found', point⟩ := sound.point?_eq_some units
  cases Option.some.inj (found.symm.trans found')
  have factors := factors_modEq (Modular.mul_inverse?_mod inverted)
    (hs ▸ Modular.mul_inverse?_mod undone)
  have sum := sound.affine?_sum key.element_point point factors
  rw [verify, if_pos range]
  simp only [undone, sum]
  exact beq_iff_eq.mpr hr.symm

/-- Every signature that is made is made with some nonce, drawn or not. -/
theorem sign?_eq_some {key : PrivateKey} {drawn : Nat} {message : Bytes} {sig : Signature}
    (h : sign? key drawn message = some sig) :
    ∃ nonce, signWith? key nonce message = some sig := by
  unfold sign? at h
  split at h
  next => exact ⟨drawn, h⟩
  next =>
    obtain ⟨nonce, -, h⟩ := Option.bind_eq_some_iff.mp h
    exact ⟨nonce, h⟩

theorem Signature.decode?_encode {sig : Signature} {m : Nat} (hr : sig.r < 256 ^ m)
    (hs : sig.s < 256 ^ m) (small : m < 1000) : decode? sig.encode = some sig := by
  let fields : List Der.Element := [.integer sig.r, .integer sig.s]
  have sizes : ∀ e ∈ fields, e.encode.length ≤ m + 1 + 6 := by
    intro e he
    have value : e.content.length ≤ m + 1 := by
      rcases List.mem_pair.mp he with rfl | rfl
      · exact Der.integerContent_length_le hr
      · exact Der.integerContent_length_le hs
    exact Der.Element.encode_length_le_of_content value (by unfold Der.lengthLimit; omega)
  have room : fields.length * (m + 1 + 6) ≤ Der.lengthLimit := by
    simp only [fields, List.length_cons, List.length_nil, Der.lengthLimit]
    omega
  have fits : (Der.Element.sequence fields).Fits :=
    (Der.Element.encodeAll_length_le sizes).trans room
  have known : ∀ e ∈ fields, Der.Tag.isKnown e.tag = true := by
    intro e he
    rcases List.mem_pair.mp he with rfl | rfl <;> rfl
  have read : Der.Element.ofBytes? sig.encode = some (Der.Element.sequence fields) :=
    Der.Element.ofBytes?_encode ⟨rfl, fits⟩
  simp only [decode?, read, Option.bind_eq_bind, Option.bind_some,
    Der.Element.sequence?_sequence known fits, fields, Der.Element.natural?_integer]

theorem order_lt (curve : NistCurve) : curve.curve.n < 256 ^ 66 := by
  cases curve <;> decide +kernel

end Ecdsa

/-- Every number that is drawn makes a key, of which the secret is one more. -/
theorem KeyPair.generateOn_of_drawBelow {curve : NistCurve} {pool rest : Bytes} {n : Nat}
    (drawn : Entropy.drawBelow (curve.curve.n - 1) pool = (.ok n, rest)) :
    ∃ key : Ecdsa.PrivateKey, generateOn curve pool = (.ok (.ecdsa key), rest)
      ∧ key.curve = curve ∧ key.secret = n + 1 := by
  have below := Entropy.lt_of_drawBelow drawn
  have range : 0 < n + 1 ∧ n + 1 < curve.curve.n := by omega
  obtain ⟨key, made⟩ :=
    Option.isSome_iff_exists.mp (Ecdsa.PrivateKey.ofSecret?_isSome_iff.mpr range)
  refine ⟨key, ?_, Ecdsa.PrivateKey.of_ofSecret? made⟩
  simp only [generateOn, drawn, ok_bind, made, orNoKey]
  rfl

/-- The octets of a signature on a curve are those of two numbers, and with them the message is
verified under the point of the key. -/
theorem KeyPair.verify_of_sign {key : Ecdsa.PrivateKey} {nonce : Nat} {message octets : Bytes}
    (h : (KeyPair.ecdsa key).sign nonce message = .ok octets) :
    ∃ sig, Ecdsa.Signature.decode? octets = some sig
      ∧ Ecdsa.verify key.curve key.point message sig = true := by
  unfold sign at h
  dsimp only at h
  split at h
  next b made =>
    cases h
    obtain ⟨sig, signed, rfl⟩ := Option.map_eq_some_iff.mp made
    obtain ⟨used, signed⟩ := Ecdsa.sign?_eq_some signed
    obtain ⟨R, inverse, -, -, hr, hs, -⟩ := Ecdsa.signWith?_eq_some signed
    have order := Ecdsa.order_lt key.curve
    have below (a : Nat) : a % key.curve.curve.n < 256 ^ 66 :=
      (Nat.mod_lt a key.curve.sound.order.pos).trans order
    exact ⟨sig, Ecdsa.Signature.decode?_encode (hr ▸ below _) (hs ▸ below _) (by decide),
      Ecdsa.verify_of_signWith? signed⟩
  next => cases h

end CertAuthority
