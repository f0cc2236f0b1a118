import CertAuthority.Proofs.Curve.Group
import Mathlib.GroupTheory.OrderOfElement

namespace CertAuthority.Weierstrass.Curve

variable {c : Curve}

theorem contains_iff {P : Point} : c.contains P = true
    ↔ (P.x < c.p ∧ P.y < c.p) ∧ P.y * P.y % c.p = c.rightSide P.x := by
  simp [contains]

/-- What makes the numbers of a curve those of a smooth one with a generator of prime order. -/
structure IsSound (c : Curve) : Prop where
  above : 4 < c.p
  smooth : c.b * c.b % c.p ≠ 4
  generator : c.contains c.generator = true
  order : c.n.Prime
  returns : (c.scale c.n (lift c.generator)).Z = 0

theorem natCast_ne_zero {k : Nat} (pos : 0 < k) (below : k < c.p) : (k : ZMod c.p) ≠ 0 := by
  rw [Ne, ZMod.natCast_eq_zero_iff]
  exact Nat.not_dvd_of_pos_of_lt pos below

theorem natCast_inj {u v : Nat} (hu : u < c.p) (hv : v < c.p) :
    (u : ZMod c.p) = v ↔ u = v := by
  rw [ZMod.natCast_eq_natCast_iff', Nat.mod_eq_of_lt hu, Nat.mod_eq_of_lt hv]

namespace IsSound

section
variable (sound : c.IsSound)

include sound

theorem two_ne_zero : (2 : ZMod c.p) ≠ 0 := by
  have above := sound.above
  exact_mod_cast natCast_ne_zero (c := c) (k := 2) (by omega) (by omega)

theorem contains_iff_equation {P : Point} :
    c.contains P = true ↔ (P.x < c.p ∧ P.y < c.p) ∧ c.overField.Equation P.x P.y := by
  have three : 3 ≤ c.p := by have := sound.above; omega
  rw [contains_iff, equation_iff, rightSide, ← ZMod.natCast_eq_natCast_iff']
  push_cast [Nat.cast_sub three, ZMod.natCast_self]
  ring_nf

variable [Fact c.p.Prime]

theorem discriminant_ne_zero : c.overField.Δ ≠ 0 := by
  have above := sound.above
  have two := sound.two_ne_zero
  have three : (3 : ZMod c.p) ≠ 0 := by
    exact_mod_cast natCast_ne_zero (c := c) (k := 3) (by omega) (by omega)
  have value : c.overField.Δ = 2 ^ 4 * 3 ^ 3 * (4 - c.b * c.b) := by
    simp only [WeierstrassCurve.Δ, WeierstrassCurve.b₂, WeierstrassCurve.b₄, WeierstrassCurve.b₆,
      WeierstrassCurve.b₈, overField]
    ring
  rw [value]
  refine mul_ne_zero (mul_ne_zero (pow_ne_zero 4 two) (pow_ne_zero 3 three)) ?_
  intro zero
  have same : ((c.b * c.b : Nat) : ZMod c.p) = (4 : Nat) := by
    push_cast
    exact (sub_eq_zero.mp zero).symm
  rw [ZMod.natCast_eq_natCast_iff', Nat.mod_eq_of_lt above] at same
  exact sound.smooth same

theorem nonsingular (P : PointOn c) : c.overField.Nonsingular P.x P.y :=
  (WeierstrassCurve.Affine.equation_iff_nonsingular_of_Δ_ne_zero sound.discriminant_ne_zero).mp
    (sound.contains_iff_equation.mp P.sound).2

/-- A point as an element of the group. -/
def element (P : PointOn c) : c.overField.Point := .some P.x P.y (sound.nonsingular P)

theorem element_injective : Function.Injective sound.element := by
  intro P Q same
  obtain ⟨x, y⟩ := (WeierstrassCurve.Affine.Point.some.injEq ..).mp same
  obtain ⟨⟨hx, hy⟩, -⟩ := contains_iff.mp P.sound
  obtain ⟨⟨hx', hy'⟩, -⟩ := contains_iff.mp Q.sound
  obtain ⟨⟨px, py⟩, _⟩ := P
  obtain ⟨⟨qx, qy⟩, _⟩ := Q
  cases (natCast_inj hx hx').mp x
  cases (natCast_inj hy hy').mp y
  rfl

theorem denotes_lift (P : PointOn c) : c.Denotes (lift P) (sound.element P) := by
  refine .affine _ ?_ ?_ ?_ <;> simp [lift]

theorem denotes_scale (k : Nat) (P : PointOn c) :
    c.Denotes (c.scale k (lift P)) (k • sound.element P) :=
  (sound.denotes_lift P).scale sound.two_ne_zero k

/-- The coordinates of a point that is not at infinity are found. -/
theorem affine?_of_denotes {P : Projective} {A : c.overField.Point} (h : c.Denotes P A)
    (nonzero : A ≠ 0) : ∃ R, c.affine? P = some R ∧ sound.element R = A := by
  cases h with
  | infinity => exact absurd rfl nonzero
  | @affine x y nonsingular finite abscissa ordinate =>
    have pos : 0 < c.p := (Fact.out : c.p.Prime).pos
    obtain ⟨inverse, inverted, product⟩ := Modular.exists_inverse finite
    let R : Point := ⟨P.X * (inverse * inverse % c.p) % c.p,
      P.Y * (inverse * (inverse * inverse % c.p) % c.p) % c.p⟩
    have X : (R.x : ZMod c.p) = x := by
      simp only [R, ZMod.natCast_mod, Nat.cast_mul, abscissa]
      linear_combination (x * (P.Z * inverse + 1)) * product
    have Y : (R.y : ZMod c.p) = y := by
      simp only [R, ZMod.natCast_mod, Nat.cast_mul, ordinate]
      linear_combination (y * ((P.Z * inverse) ^ 2 + P.Z * inverse + 1)) * product
    have on : c.contains R = true := by
      rw [sound.contains_iff_equation, X, Y]
      exact ⟨⟨Nat.mod_lt _ pos, Nat.mod_lt _ pos⟩, nonsingular.1⟩
    refine ⟨⟨R, on⟩, ?_, ?_⟩
    · rw [affine?, inverted]
      exact dif_pos on
    · simp only [element, X, Y]

/-- The generator as an element of the group. -/
def base : c.overField.Point := sound.element ⟨c.generator, sound.generator⟩

theorem addOrderOf_base : addOrderOf sound.base = c.n := by
  have := Fact.mk sound.order
  have returns : c.n • sound.base = 0 :=
    (sound.denotes_scale c.n ⟨c.generator, sound.generator⟩).zero_iff.mp sound.returns
  exact addOrderOf_eq_prime returns (WeierstrassCurve.Affine.Point.some_ne_zero _)

/-- A multiple of the generator is a point unless the factor is one of the order. -/
theorem point?_eq_some {k : Nat} (h : ¬ c.n ∣ k) :
    ∃ R, c.point? k = some R ∧ sound.element R = k • sound.base := by
  rw [← sound.addOrderOf_base, addOrderOf_dvd_iff_nsmul_eq_zero] at h
  exact sound.affine?_of_denotes (sound.denotes_scale k ⟨c.generator, sound.generator⟩) h

/-- A point is found as the sum of multiples of the generator and of another point. -/
theorem affine?_sum {P R : PointOn c} {d u v k : Nat} (other : sound.element P = d • sound.base)
    (point : sound.element R = k • sound.base) (sum : u + v * d ≡ k [MOD c.n]) :
    c.affine? (c.add (c.scale u (lift c.generator)) (c.scale v (lift P))) = some R := by
  have first := sound.denotes_scale u ⟨c.generator, sound.generator⟩
  have whole := first.add sound.two_ne_zero (sound.denotes_scale v P)
  have same : u • sound.base + v • sound.element P = sound.element R := by
    rw [other, point, ← mul_nsmul', ← add_nsmul]
    exact nsmul_eq_nsmul_iff_modEq.mpr (sound.addOrderOf_base ▸ sum)
  obtain ⟨R', found, element⟩ :=
    sound.affine?_of_denotes whole (same ▸ WeierstrassCurve.Affine.Point.some_ne_zero _)
  rw [found, sound.element_injective (element.trans same)]

end

end IsSound

end CertAuthority.Weierstrass.Curve
