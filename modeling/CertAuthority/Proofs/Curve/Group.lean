import CertAuthority.Curve.Weierstrass
import CertAuthority.Proofs.Arith.Modular
import Mathlib.AlgebraicGeometry.EllipticCurve.Affine.Point
import Mathlib.Tactic.LinearCombination

namespace CertAuthority.Weierstrass.Curve

/-- The curve over its field, of which the points are a group. -/
def overField (c : Curve) : WeierstrassCurve.Affine (ZMod c.p) := ⟨0, 0, 0, -3, c.b⟩

variable {c : Curve}

theorem cast_sub (u : Nat) {v : Nat} (h : v ≤ c.p) : (c.sub u v : ZMod c.p) = u - v :=
  Modular.cast_difference u h

theorem equation_iff {x y : ZMod c.p} :
    c.overField.Equation x y ↔ y ^ 2 = x ^ 3 - 3 * x + c.b := by
  rw [WeierstrassCurve.Affine.equation_iff]
  simp only [overField, zero_mul, add_zero]
  rw [neg_mul, ← sub_eq_add_neg]

theorem negY_eq (x y : ZMod c.p) : c.overField.negY x y = -y := by
  simp [WeierstrassCurve.Affine.negY, overField]

/-- The element of the group that a point in projective coordinates stands for. -/
inductive Denotes (c : Curve) (P : Projective) : c.overField.Point → Prop
  | infinity (zero : P.Z = 0) : c.Denotes P 0
  | affine {x y : ZMod c.p} (nonsingular : c.overField.Nonsingular x y)
    (finite : (P.Z : ZMod c.p) ≠ 0) (abscissa : (P.X : ZMod c.p) = x * P.Z ^ 2)
    (ordinate : (P.Y : ZMod c.p) = y * P.Z ^ 3) : c.Denotes P (.some x y nonsingular)

theorem Denotes.zero_iff {P : Projective} {A : c.overField.Point} (h : c.Denotes P A) :
    P.Z = 0 ↔ A = 0 := by
  cases h with
  | infinity zero => simp [zero]
  | affine nonsingular finite =>
    constructor
    · intro zero
      rw [zero, Nat.cast_zero] at finite
      exact absurd rfl finite
    · intro zero
      exact absurd zero (WeierstrassCurve.Affine.Point.some_ne_zero _)

section
variable [Fact c.p.Prime] {P Q : Projective} {x y x' y' ℓ : ZMod c.p}

theorem sub_le (u v : Nat) : c.sub u v ≤ c.p := Modular.remainder_le _

theorem sub_eq_zero_iff (u v : Nat) : c.sub u v = 0 ↔ (c.sub u v : ZMod c.p) = 0 := by
  have below : c.sub u v < c.p := Nat.mod_lt _ (Fact.out : c.p.Prime).pos
  rw [ZMod.natCast_eq_zero_iff]
  constructor
  · intro zero
    rw [zero]
    exact dvd_zero _
  · exact fun divides => Nat.eq_zero_of_dvd_of_lt divides below

/-- The tangent at a point, doubled. -/
theorem cast_double (h : (P.X : ZMod c.p) = x * P.Z ^ 2) (h' : (P.Y : ZMod c.p) = y * P.Z ^ 3)
    (slope : ℓ * (2 * y) = 3 * x ^ 2 - 3) :
    let R := c.double P
    let x₂ := ℓ ^ 2 - x - x
    (R.Z : ZMod c.p) = 2 * y * P.Z ^ 4 ∧ (R.X : ZMod c.p) = x₂ * R.Z ^ 2
      ∧ (R.Y : ZMod c.p) = (ℓ * (x - x₂) - y) * R.Z ^ 3 := by
  intro R x₂
  have Z : (R.Z : ZMod c.p) = 2 * y * P.Z ^ 4 := by
    simp only [R, double, ZMod.natCast_mod, Nat.cast_mul, Nat.cast_ofNat, h']
    ring
  have X : (R.X : ZMod c.p) = x₂ * R.Z ^ 2 := by
    simp only [Z, x₂]
    simp only [R, double, cast_sub _ (Modular.remainder_le _), ZMod.natCast_mod, Nat.cast_mul,
      Nat.cast_add, Nat.cast_ofNat, h, h']
    linear_combination (-(P.Z : ZMod c.p) ^ 8 * (3 * x ^ 2 - 3 + ℓ * (2 * y))) * slope
  refine ⟨Z, X, ?_⟩
  have Y : (R.Y : ZMod c.p) = (3 * x ^ 2 - 3) * P.Z ^ 4 * (4 * (x * y ^ 2 * P.Z ^ 8) - R.X)
      - 8 * (y ^ 4 * P.Z ^ 12) := by
    simp only [R, double, cast_sub _ (Modular.remainder_le _), cast_sub _ (sub_le _ _),
      ZMod.natCast_mod, Nat.cast_mul, Nat.cast_add, Nat.cast_ofNat, h, h']
    ring
  rw [Y, X, Z]
  linear_combination (-4 * y ^ 2 * (P.Z : ZMod c.p) ^ 12 * (x - x₂)) * slope

theorem cast_gap (h : (P.X : ZMod c.p) = x * P.Z ^ 2) (k : (Q.X : ZMod c.p) = x' * Q.Z ^ 2) :
    (c.gap P Q : ZMod c.p) = (x' - x) * (P.Z * Q.Z) ^ 2 := by
  simp only [gap, cast_sub _ (Modular.remainder_le _), ZMod.natCast_mod, Nat.cast_mul, h, k]
  ring

theorem cast_rise (h : (P.Y : ZMod c.p) = y * P.Z ^ 3) (k : (Q.Y : ZMod c.p) = y' * Q.Z ^ 3) :
    (c.rise P Q : ZMod c.p) = (y' - y) * (P.Z * Q.Z) ^ 3 := by
  simp only [rise, cast_sub _ (Modular.remainder_le _), ZMod.natCast_mod, Nat.cast_mul, h, k]
  ring

theorem gap_eq_zero_iff (h : (P.X : ZMod c.p) = x * P.Z ^ 2) (k : (Q.X : ZMod c.p) = x' * Q.Z ^ 2)
    (finite : (P.Z * Q.Z : ZMod c.p) ≠ 0) : c.gap P Q = 0 ↔ x = x' := by
  rw [gap, sub_eq_zero_iff, ← gap, cast_gap h k, mul_eq_zero, or_iff_left (pow_ne_zero 2 finite),
    sub_eq_zero, eq_comm]

theorem rise_eq_zero_iff (h : (P.Y : ZMod c.p) = y * P.Z ^ 3) (k : (Q.Y : ZMod c.p) = y' * Q.Z ^ 3)
    (finite : (P.Z * Q.Z : ZMod c.p) ≠ 0) : c.rise P Q = 0 ↔ y = y' := by
  rw [rise, sub_eq_zero_iff, ← rise, cast_rise h k, mul_eq_zero, or_iff_left (pow_ne_zero 3 finite),
    sub_eq_zero, eq_comm]

/-- The chord through two points. -/
theorem cast_chord (h : (P.X : ZMod c.p) = x * P.Z ^ 2) (h' : (P.Y : ZMod c.p) = y * P.Z ^ 3)
    (k : (Q.X : ZMod c.p) = x' * Q.Z ^ 2) (k' : (Q.Y : ZMod c.p) = y' * Q.Z ^ 3)
    (slope : ℓ * (x' - x) = y' - y) :
    let R := c.chord P Q
    let x₂ := ℓ ^ 2 - x - x'
    (R.Z : ZMod c.p) = (x' - x) * (P.Z * Q.Z) ^ 3 ∧ (R.X : ZMod c.p) = x₂ * R.Z ^ 2
      ∧ (R.Y : ZMod c.p) = (ℓ * (x - x₂) - y) * R.Z ^ 3 := by
  intro R x₂
  have gap := cast_gap h k
  have rise := cast_rise h' k'
  rw [← slope] at rise
  have Z : (R.Z : ZMod c.p) = (x' - x) * (P.Z * Q.Z) ^ 3 := by
    simp only [R, chord, ZMod.natCast_mod, Nat.cast_mul, gap]
    ring
  have X : (R.X : ZMod c.p) = x₂ * R.Z ^ 2 := by
    simp only [Z, x₂]
    simp only [R, chord, cast_sub _ (Modular.remainder_le _), ZMod.natCast_mod, Nat.cast_mul,
      Nat.cast_ofNat, gap, rise, h]
    ring
  refine ⟨Z, X, ?_⟩
  have Y : (R.Y : ZMod c.p) = ℓ * (x' - x) * (P.Z * Q.Z) ^ 3
        * (x * (P.Z * Q.Z) ^ 2 * ((x' - x) * (P.Z * Q.Z) ^ 2) ^ 2 - R.X)
      - y * (P.Z * Q.Z) ^ 3 * ((x' - x) * (P.Z * Q.Z) ^ 2) ^ 3 := by
    simp only [R, chord, cast_sub _ (Modular.remainder_le _), cast_sub _ (sub_le _ _),
      ZMod.natCast_mod, Nat.cast_mul, gap, rise, h, h']
    ring
  rw [Y, X, Z]
  ring

open WeierstrassCurve.Affine

theorem addX_eq (x x' ℓ : ZMod c.p) : c.overField.addX x x' ℓ = ℓ ^ 2 - x - x' := by
  simp [addX, overField]

theorem addY_eq (x x' y ℓ : ZMod c.p) :
    c.overField.addY x x' y ℓ = ℓ * (x - (ℓ ^ 2 - x - x')) - y := by
  rw [addY, negAddY, negY_eq, addX_eq]
  ring

theorem ne_neg_self (two : (2 : ZMod c.p) ≠ 0) (h : y ≠ 0) : y ≠ -y := by
  intro same
  have twice : 2 * y = 0 := by linear_combination same
  exact (mul_ne_zero two h) twice

theorem slope_tangent (two : (2 : ZMod c.p) ≠ 0) (steep : y ≠ 0) :
    c.overField.slope x x y y * (2 * y) = 3 * x ^ 2 - 3 := by
  have apart : y ≠ c.overField.negY x y := by
    rw [negY_eq]
    exact ne_neg_self two steep
  have run : y - -y ≠ 0 := sub_ne_zero.mpr (ne_neg_self two steep)
  rw [slope_of_Y_ne rfl apart, negY_eq, div_mul_eq_mul_div, div_eq_iff run]
  simp only [overField]
  ring

theorem slope_chord (apart : x ≠ x') :
    c.overField.slope x x' y y' * (x' - x) = y' - y := by
  rw [slope_of_X_ne apart, div_mul_eq_mul_div, div_eq_iff (sub_ne_zero.mpr apart)]
  ring

theorem Denotes.double (two : (2 : ZMod c.p) ≠ 0) {A : c.overField.Point} (h : c.Denotes P A) :
    c.Denotes (c.double P) (A + A) := by
  cases h with
  | infinity zero =>
    refine .infinity ?_
    simp [Curve.double, zero]
  | @affine x y nonsingular finite abscissa ordinate =>
    by_cases flat : y = 0
    · have self : y = c.overField.negY x y := by rw [negY_eq, flat, neg_zero]
      rw [Point.add_self_of_Y_eq self]
      refine .infinity ?_
      have divides : c.p ∣ P.Y := by
        rw [← ZMod.natCast_eq_zero_iff, ordinate, flat, zero_mul]
      exact Nat.mod_eq_zero_of_dvd (((divides.mul_right _).mul_left 2))
    · have steep : y ≠ c.overField.negY x y := by
        rw [negY_eq]
        exact ne_neg_self two flat
      obtain ⟨Z, X, Y⟩ := cast_double abscissa ordinate (slope_tangent two flat)
      rw [Point.add_self_of_Y_ne steep]
      refine .affine _ ?_ ?_ ?_
      · rw [Z]
        exact mul_ne_zero (mul_ne_zero two flat) (pow_ne_zero 4 finite)
      · rw [X, addX_eq]
      · rw [Y, addY_eq]

theorem Denotes.add (two : (2 : ZMod c.p) ≠ 0) {A B : c.overField.Point} (h : c.Denotes P A)
    (k : c.Denotes Q B) : c.Denotes (c.add P Q) (A + B) := by
  cases h with
  | infinity zero =>
    rw [Curve.add, if_pos zero, zero_add]
    exact k
  | @affine x y nonsingular finite abscissa ordinate =>
    have some : P.Z ≠ 0 := fun zero => finite (by rw [zero, Nat.cast_zero])
    have whole := Denotes.affine nonsingular finite abscissa ordinate
    cases k with
    | infinity zero =>
      rw [Curve.add, if_neg some, if_pos zero, add_zero]
      exact whole
    | @affine x' y' nonsingular' finite' abscissa' ordinate' =>
      have some' : Q.Z ≠ 0 := fun zero => finite' (by rw [zero, Nat.cast_zero])
      have factor : (P.Z * Q.Z : ZMod c.p) ≠ 0 := mul_ne_zero finite finite'
      rw [Curve.add, if_neg some, if_neg some']
      by_cases level : x = x'
      · subst level
        rw [if_pos ((gap_eq_zero_iff abscissa abscissa' factor).mpr rfl)]
        by_cases same : y = y'
        · subst same
          rw [if_pos ((rise_eq_zero_iff ordinate ordinate' factor).mpr rfl)]
          exact whole.double two
        · rw [if_neg (mt (rise_eq_zero_iff ordinate ordinate' factor).mp same)]
          have opposite : y = c.overField.negY x y' :=
            (Y_eq_of_X_eq nonsingular.1 nonsingular'.1 rfl).resolve_left same
          rw [Point.add_of_Y_eq rfl opposite]
          exact .infinity rfl
      · rw [if_neg (mt (gap_eq_zero_iff abscissa abscissa' factor).mp level)]
        obtain ⟨Z, X, Y⟩ := cast_chord abscissa ordinate abscissa' ordinate' (slope_chord level)
        rw [Point.add_of_X_ne level]
        refine .affine _ ?_ ?_ ?_
        · rw [Z]
          exact mul_ne_zero (sub_ne_zero.mpr (Ne.symm level)) (pow_ne_zero 3 factor)
        · rw [X, addX_eq]
        · rw [Y, addY_eq]

theorem Denotes.scale (two : (2 : ZMod c.p) ≠ 0) {A : c.overField.Point} (h : c.Denotes P A)
    (k : Nat) : c.Denotes (c.scale k P) (k • A) := by
  induction k using Nat.strongRecOn with
  | ind k ih =>
    rw [Curve.scale]
    split
    next zero =>
      rw [zero, zero_nsmul]
      exact .infinity rfl
    next pos =>
      have half := (ih (k / 2) (by omega)).double two
      rw [← add_nsmul] at half
      split
      next odd =>
        have sum := half.add two h
        rw [← succ_nsmul] at sum
        rwa [show k / 2 + k / 2 + 1 = k by omega] at sum
      next even => rwa [show k / 2 + k / 2 = k by omega] at half

end

end CertAuthority.Weierstrass.Curve
