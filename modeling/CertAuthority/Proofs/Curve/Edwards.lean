import CertAuthority.Proofs.Arith.Root
import CertAuthority.Proofs.Curve.Point

namespace CertAuthority.Ed25519

/-- The coordinates of a point of the curve with the factor `δ` over a field. -/
structure Fits {q : Nat} (δ X Y Z T : ZMod q) : Prop where
  finite : Z ≠ 0
  product : X * Y = Z * T
  equation : Y ^ 2 - X ^ 2 = Z ^ 2 + δ * T ^ 2

section
variable {q : Nat} [Fact q.Prime] {δ ι X Y Z T X' Y' Z' T' : ZMod q}

/-- If the sum of two points were missing, the factor would be a square. -/
theorem Fits.isSquare (h : Fits δ X Y Z T) (k : Fits δ X' Y' Z' T') (two : (2 : ZMod q) ≠ 0)
    (root : ι * ι = -1) {ε : ZMod q} (sign : ε * ε = 1) (meet : δ * T * T' = ε * Z * Z') :
    IsSquare δ := by
  have nonzero : δ * T * T' ≠ 0 := by
    rw [meet]
    refine mul_ne_zero (mul_ne_zero ?_ h.finite) k.finite
    rintro rfl
    rw [zero_mul] at sign
    exact zero_ne_one sign
  have hT : T ≠ 0 := right_ne_zero_of_mul (left_ne_zero_of_mul nonzero)
  have hT' : T' ≠ 0 := right_ne_zero_of_mul nonzero
  have hY' : Y' ≠ 0 := by
    have product := mul_ne_zero k.finite hT'
    rw [← k.product] at product
    exact right_ne_zero_of_mul product
  have squares {σ : ZMod q} (sign' : σ * σ = 1) :
      ((ι * X + σ * ε * Y) * Z') ^ 2 = δ * (T * (ι * X' + σ * Y')) ^ 2 := by
    linear_combination (X * Z') ^ 2 * root + 2 * ι * σ * ε * Z' ^ 2 * h.product
      + (Y * Z') ^ 2 * (σ ^ 2 * sign + sign') - δ * T ^ 2 * (X' ^ 2 * root + Y' ^ 2 * sign'
        + 2 * ι * σ * k.product) + Z' ^ 2 * h.equation - δ * T ^ 2 * k.equation
      - (Z * Z') ^ 2 * sign - (δ * T * T' + ε * Z * Z' + 2 * ι * σ * T * Z') * meet
  have square {σ : ZMod q} (sign' : σ * σ = 1) (other : ι * X' + σ * Y' ≠ 0) : IsSquare δ := by
    have divisor := mul_ne_zero hT other
    refine ⟨(ι * X + σ * ε * Y) * Z' / (T * (ι * X' + σ * Y')), ?_⟩
    rw [div_mul_div_comm, ← sq, ← sq, squares sign',
      mul_div_cancel_right₀ _ (pow_ne_zero 2 divisor)]
  -- Not both signs give zero, since the difference is twice an ordinate.
  by_cases plus : ι * X' + 1 * Y' = 0
  · refine square (σ := -1) (by ring) fun minus => ?_
    have twice : 2 * Y' = 0 := by linear_combination plus - minus
    exact mul_ne_zero two hY' twice
  · exact square (one_mul 1) plus

/-- The formulas of addition hold for all points. -/
theorem Fits.add (h : Fits δ X Y Z T) (k : Fits δ X' Y' Z' T') (two : (2 : ZMod q) ≠ 0)
    (root : ι * ι = -1) (nonsquare : ¬ IsSquare δ) {A B C D : ZMod q}
    (hA : A = (Y - X) * (Y' - X')) (hB : B = (Y + X) * (Y' + X')) (hC : C = 2 * T * δ * T')
    (hD : D = 2 * Z * Z') :
    Fits δ ((B - A) * (D - C)) ((D + C) * (B + A)) ((D - C) * (D + C)) ((B - A) * (B + A)) where
  finite := by
    refine mul_ne_zero ?_ ?_
    · intro zero
      refine nonsquare (h.isSquare k two root (one_mul 1) (mul_left_cancel₀ two ?_))
      linear_combination hD - hC - zero
    · intro zero
      refine nonsquare (h.isSquare k two root (ε := -1) (by ring) (mul_left_cancel₀ two ?_))
      linear_combination zero - hC - hD
  product := by ring
  equation := by
    have norm : (Y * Y' + X * X') ^ 2 - (X * Y' + Y * X') ^ 2
        = (Z ^ 2 + δ * T ^ 2) * (Z' ^ 2 + δ * T' ^ 2) := by
      rw [← h.equation, ← k.equation]
      ring
    have sum : (Y * Y' + X * X') ^ 2 + (X * Y' + Y * X') ^ 2
        = (Y ^ 2 + X ^ 2) * (Y' ^ 2 + X' ^ 2) + 4 * (Z * T) * (Z' * T') := by
      rw [← h.product, ← k.product]
      ring
    have cross : (Y * Y' + X * X') * (X * Y' + Y * X')
        = Z * T * (Y' ^ 2 + X' ^ 2) + Z' * T' * (Y ^ 2 + X ^ 2) := by
      rw [← h.product, ← k.product]
      ring
    have square : (Y ^ 2 + X ^ 2) ^ 2 = (Z ^ 2 + δ * T ^ 2) ^ 2 + 4 * (Z * T) ^ 2 := by
      rw [← h.product, ← h.equation]
      ring
    have square' : (Y' ^ 2 + X' ^ 2) ^ 2 = (Z' ^ 2 + δ * T' ^ 2) ^ 2 + 4 * (Z' * T') ^ 2 := by
      rw [← k.product, ← k.equation]
      ring
    rw [hA, hB, hC, hD]
    linear_combination 16 * (((Z * Z') ^ 2 + (δ * T * T') ^ 2) * norm
      + 2 * (Z * Z') * (δ * T * T') * sum
      - δ * ((Y * Y' + X * X') * (X * Y' + Y * X')
        + Z * T * (Y' ^ 2 + X' ^ 2) + Z' * T' * (Y ^ 2 + X ^ 2)) * cross
      - δ * ((Z * T) ^ 2 * square' + (Z' * T') ^ 2 * square))

end

instance : Fact p.Prime := ⟨p_prime⟩

theorem two_ne_zero : (2 : ZMod p) ≠ 0 := by
  have value : ((2 : Nat) : ZMod p) ≠ 0 := by
    rw [Ne, ZMod.natCast_eq_zero_iff]
    decide +kernel
  exact_mod_cast value

theorem not_isSquare_d : ¬ IsSquare (d : ZMod p) :=
  Modular.not_isSquare (by decide +kernel) (by decide +kernel)

theorem exists_root : ∃ ι : ZMod p, ι * ι = -1 := by
  have square : Modular.pow 2 ((p - 1) / 4) p * Modular.pow 2 ((p - 1) / 4) p % p + 1 = p := by
    decide +kernel
  have cast := congrArg (Nat.cast (R := ZMod p)) square
  rw [Nat.cast_add, ZMod.natCast_mod, Nat.cast_mul, Nat.cast_one, ZMod.natCast_self] at cast
  exact ⟨_, eq_neg_of_add_eq_zero_left cast⟩

/-- A point whose numerators and denominator fit together in the field. -/
structure IsPoint (P : Extended) : Prop where
  below : P.X ≤ p
  fits : Fits (d : ZMod p) P.X P.Y P.Z P.T

theorem cast_sub (u : Nat) {v : Nat} (h : v ≤ p) : (sub u v : ZMod p) = u - v :=
  Modular.cast_difference u h

theorem IsPoint.neutral : IsPoint neutral where
  below := Nat.zero_le _
  fits := by constructor <;> simp [Ed25519.neutral]

theorem IsPoint.add {P Q : Extended} (h : IsPoint P) (k : IsPoint Q) : IsPoint (add P Q) := by
  obtain ⟨ι, root⟩ := exists_root
  have fits := h.fits.add k.fits two_ne_zero root not_isSquare_d
    (A := (sub P.Y P.X * sub Q.Y Q.X % p : Nat)) (B := ((P.Y + P.X) * (Q.Y + Q.X) % p : Nat))
    (C := (2 * P.T * d * Q.T % p : Nat)) (D := (2 * P.Z * Q.Z % p : Nat))
    (by rw [ZMod.natCast_mod, Nat.cast_mul, cast_sub _ h.below, cast_sub _ k.below])
    (by push_cast [ZMod.natCast_mod]; rfl) (by push_cast [ZMod.natCast_mod]; rfl)
    (by push_cast [ZMod.natCast_mod]; rfl)
  refine ⟨Modular.remainder_le _, ?_⟩
  simp only [Ed25519.add, ZMod.natCast_mod, Nat.cast_mul, Nat.cast_add,
    cast_sub _ (Modular.remainder_le _)] at fits ⊢
  exact fits

theorem IsPoint.scale {P : Extended} (h : IsPoint P) (k : Nat) : IsPoint (scale k P) := by
  induction k using Nat.strongRecOn with
  | ind k ih =>
    rw [Ed25519.scale]
    split
    next => exact .neutral
    next =>
      have half := ih (k / 2) (by omega)
      have whole := half.add half
      split
      next => exact whole.add h
      next => exact whole

theorem IsPoint.lift {x y : Nat} (below : x ≤ p) (h : IsOnCurve x y) : IsPoint (lift x y) where
  below := below
  fits := by
    have equation := cast_equation.mp h
    constructor
    · simp [Ed25519.lift]
    · simp [Ed25519.lift]
    · simp only [Ed25519.lift, ZMod.natCast_mod, Nat.cast_mul, Nat.cast_one]
      linear_combination equation

theorem IsPoint.base : IsPoint base := by
  apply IsPoint.lift
  · decide +kernel
  · unfold IsOnCurve
    decide +kernel

/-- The ordinate of a point has an abscissa, of either parity. -/
theorem abscissa?_isSome {x y : Nat} (odd : Bool) (h : IsOnCurve x y) :
    (abscissa? y odd).isSome = true := by
  have equation := cast_equation.mp h
  have divisor : (d * (y * y) + 1 : ZMod p) ≠ 0 := by
    intro zero
    obtain ⟨ι, root⟩ := exists_root
    have nonzero : (y : ZMod p) ≠ 0 := by
      intro hy
      rw [hy, mul_zero, mul_zero, zero_add] at zero
      exact one_ne_zero zero
    refine not_isSquare_d ⟨ι / y, ?_⟩
    rw [div_mul_div_comm, eq_div_iff (mul_ne_zero nonzero nonzero), root]
    exact eq_neg_of_add_eq_zero_left zero
  have reduced : (((d * (y * y) + 1) % p : Nat) : ZMod p) = d * (y * y) + 1 := by
    push_cast [ZMod.natCast_mod]
    rfl
  obtain ⟨inverse, inverted, product⟩ := Modular.exists_inverse (reduced ▸ divisor)
  rw [reduced] at product
  have square : IsSquare (((y * y + (p - 1)) * inverse % p : Nat) : ZMod p) := by
    refine ⟨x, ?_⟩
    push_cast [ZMod.natCast_mod, Nat.cast_sub p_prime.one_le, ZMod.natCast_self]
    linear_combination (x : ZMod p) * x * product + (inverse : ZMod p) * equation
  have nonresidue : ¬ IsSquare ((2 : Nat) : ZMod p) :=
    Modular.not_isSquare (by decide +kernel) (by decide +kernel)
  obtain ⟨root, found⟩ := Option.isSome_iff_exists.mp
    ((Modular.sqrt?_isSome_iff (by decide +kernel) nonresidue).mpr square)
  rw [abscissa?, inverted, Option.bind_eq_bind, Option.bind_some, found]
  rfl

theorem leNat_parts {y bit : Nat} (below : y < p) (small : bit < 2) :
    let n := leNat (fixedBytesLe size (y + parityBit * bit))
    n % parityBit % p = y ∧ n / parityBit = bit := by
  have room : p ≤ 2 ^ 255 := by decide +kernel
  have wide : y < 2 ^ 255 := Nat.lt_of_lt_of_le below room
  intro n
  have value : n = y + 2 ^ 255 * bit := by
    simp only [n, leNat_fixedBytesLe, parityBit_eq]
    exact Nat.mod_eq_of_lt (by simp only [size]; omega)
  rw [value, parityBit_eq]
  constructor
  · rw [Nat.add_mul_mod_self_left, Nat.mod_eq_of_lt wide, Nat.mod_eq_of_lt below]
  · rw [Nat.add_mul_div_left _ _ (by decide), Nat.div_eq_of_lt wide, Nat.zero_add]

/-- The octets of a point are those of one. -/
theorem IsPoint.isPublicKey_encode {P : Extended} (h : IsPoint P) :
    isPublicKey (encode P) = true := by
  obtain ⟨inverse, inverted, product⟩ := Modular.exists_inverse h.fits.finite
  have onCurve : IsOnCurve (P.X * inverse % p) (P.Y * inverse % p) := by
    apply cast_equation.mpr
    push_cast [ZMod.natCast_mod]
    linear_combination (inverse : ZMod p) ^ 2 * h.fits.equation + (P.Z * inverse + 1) * product
      - d * (P.T ^ 2 * inverse ^ 2 * (P.Z * inverse + 1) * product
        + inverse ^ 4 * (P.X * P.Y + P.Z * P.T) * h.fits.product)
  obtain ⟨x, found⟩ := Option.isSome_iff_exists.mp
    (abscissa?_isSome (P.X * inverse % p % 2 == 1) onCurve)
  obtain ⟨ordinate, parity⟩ :=
    leNat_parts (Nat.mod_lt (P.Y * inverse) p_prime.pos) (Nat.mod_lt (P.X * inverse % p) two_pos)
  have octets : encode P
      = fixedBytesLe size (P.Y * inverse % p + parityBit * (P.X * inverse % p % 2)) := by
    rw [encode, inverted]
  rw [octets, isPublicKey, decode?, if_pos (fixedBytesLe_length _ _)]
  simp only [ordinate, parity, found]
  rfl

/-- A public key of any secret is read as one. -/
theorem isPublicKey_publicKey (secret : Bytes) : isPublicKey (publicKey secret) = true :=
  (IsPoint.base.scale _).isPublicKey_encode

end CertAuthority.Ed25519
