import CertAuthority.Arith.Modular
import Mathlib.Algebra.Field.ZMod
import Mathlib.Data.Int.ModEq
import Mathlib.Data.Nat.GCD.Basic
import Mathlib.Data.Nat.ModEq
import Mathlib.Tactic.Ring

namespace CertAuthority.Modular

theorem pow_go_eq {b e acc m : Nat} (reduced : acc % m = acc) :
    pow.go m b e acc = acc * b ^ e % m := by
  induction b, e, acc using pow.go.induct m with
  | case1 b acc => rw [pow.go, if_pos rfl, Nat.pow_zero, Nat.mul_one, reduced]
  | case2 b e acc pos ih =>
    have halves : b ^ e = (b * b) ^ (e / 2) * b ^ (e % 2) := by
      rw [← Nat.pow_two, ← Nat.pow_mul, ← Nat.pow_add, Nat.div_add_mod]
    have squared : (b * b % m) ^ (e / 2) ≡ (b * b) ^ (e / 2) [MOD m] := (Nat.mod_modEq _ _).pow _
    rw [pow.go, if_neg pos, halves]
    split at ih
    next odd =>
      rw [if_pos odd, ih (Nat.mod_mod _ _), odd, Nat.pow_one]
      have step := (Nat.mod_modEq (acc * b) m).mul squared
      rwa [show acc * b * (b * b) ^ (e / 2) = acc * ((b * b) ^ (e / 2) * b) by ring] at step
    next even =>
      rw [if_neg even, ih reduced, show e % 2 = 0 by omega, Nat.pow_zero, Nat.mul_one]
      exact squared.mul_left acc

theorem pow_eq (b e m : Nat) : pow b e m = b ^ e % m := by
  rw [pow, pow_go_eq (Nat.mod_mod _ _)]
  have reduced := (Nat.mod_modEq 1 m).mul ((Nat.mod_modEq b m).pow e)
  rwa [Nat.one_mul] at reduced

/-- A division with remainder keeps that what is left is a known multiple of a number. -/
theorem remainder_modEq {a m s0 s1 : Int} {r0 r1 : Nat} (h0 : (r0 : Int) ≡ s0 * a [ZMOD m])
    (h1 : (r1 : Int) ≡ s1 * a [ZMOD m]) :
    ((r0 % r1 : Nat) : Int) ≡ (s0 - (r0 / r1 : Nat) * s1) * a [ZMOD m] := by
  have division : (r0 : Int) = r1 * (r0 / r1 : Nat) + (r0 % r1 : Nat) := by
    exact_mod_cast (Nat.div_add_mod r0 r1).symm
  have rest : ((r0 % r1 : Nat) : Int) = r0 - (r0 / r1 : Nat) * r1 := by
    rw [division]
    ring
  rw [rest, sub_mul, mul_assoc]
  exact h0.sub (h1.mul_left _)

/-- The division ends at the greatest common divisor, which is a known multiple as well. -/
theorem bezout_spec {a m : Int} (r0 r1 : Nat) (s0 s1 : Int) (h0 : (r0 : Int) ≡ s0 * a [ZMOD m])
    (h1 : (r1 : Int) ≡ s1 * a [ZMOD m]) :
    (bezout r0 r1 s0 s1).1 = Nat.gcd r0 r1
      ∧ (Nat.gcd r0 r1 : Int) ≡ (bezout r0 r1 s0 s1).2 * a [ZMOD m] := by
  induction r0, r1, s0, s1 using bezout.induct with
  | case1 r0 s0 s1 =>
    rw [bezout, if_pos rfl, Nat.gcd_zero_right]
    exact ⟨rfl, h0⟩
  | case2 r0 r1 s0 s1 pos ih =>
    have divisor : Nat.gcd r0 r1 = Nat.gcd r1 (r0 % r1) := by
      rw [Nat.gcd_comm r1, ← Nat.gcd_rec, Nat.gcd_comm]
    rw [bezout, if_neg pos, divisor]
    exact ih h1 (remainder_modEq h0 h1)

/-- What the division offers as an inverse. -/
def candidate (a m : Nat) : Nat := ((bezout (a % m) m 1 0).2 % (m : Int)).toNat

theorem inverse?_eq (a m : Nat) : inverse? a m
    = if a * candidate a m % m = 1 % m then some (candidate a m) else none := rfl

theorem cast_candidate (a : Nat) {m : Nat} (pos : 0 < m) :
    (candidate a m : Int) = (bezout (a % m) m 1 0).2 % (m : Int) :=
  Int.toNat_of_nonneg (Int.emod_nonneg _ (Int.natCast_ne_zero.mpr (Nat.ne_of_gt pos)))

theorem inverse?_lt {a m x : Nat} (pos : 0 < m) (h : inverse? a m = some x) : x < m := by
  rw [inverse?_eq] at h
  split at h
  next =>
    have below : (candidate a m : Int) < m := by
      rw [cast_candidate a pos]
      exact Int.emod_lt_of_pos _ (Int.natCast_pos.mpr pos)
    rw [← Option.some.inj h]
    exact_mod_cast below
  next => cases h

theorem mul_candidate_mod {a m : Nat} (pos : 0 < m) (coprime : Nat.Coprime a m) :
    a * candidate a m % m = 1 % m := by
  have first : ((a % m : Nat) : Int) ≡ 1 * a [ZMOD m] := by
    rw [one_mul, Int.natCast_mod]
    exact Int.mod_modEq a m
  have second : (m : Int) ≡ 0 * a [ZMOD m] := by
    rw [zero_mul]
    exact Int.modEq_zero_iff_dvd.mpr (dvd_refl _)
  have divisor : Nat.gcd (a % m) m = 1 := by
    rw [← Nat.gcd_rec, Nat.gcd_comm]
    exact coprime
  have spec := (bezout_spec (a % m) m 1 0 first second).2
  rw [divisor] at spec
  have value : (candidate a m : Int) ≡ (bezout (a % m) m 1 0).2 [ZMOD m] := by
    rw [cast_candidate a pos]
    exact Int.mod_modEq _ _
  have product : ((a * candidate a m : Nat) : Int) ≡ ((1 : Nat) : Int) [ZMOD m] := by
    rw [Nat.cast_mul, mul_comm]
    exact (value.mul_right _).trans spec.symm
  exact Int.natCast_modEq_iff.mp product

theorem inverse?_isSome_iff {a m : Nat} (pos : 0 < m) :
    (inverse? a m).isSome = true ↔ Nat.Coprime a m := by
  rw [inverse?_eq]
  constructor
  · intro found
    split at found
    next product => exact Nat.coprime_of_mul_modEq_one _ product
    next => cases found
  · intro coprime
    rw [if_pos (mul_candidate_mod pos coprime)]
    rfl

theorem correctRoot_lt {p : Nat} (fuel m c t : Nat) {root : Nat} (h : root < p) :
    correctRoot p fuel m c t root < p := by
  induction fuel generalizing m c t root with
  | zero => exact h
  | succ fuel ih =>
    rw [correctRoot]
    split
    next => exact h
    next => exact ih _ _ _ (Nat.mod_lt _ (by omega))

theorem sqrt?_eq_some {p nonresidue a root : Nat} (pos : 0 < p)
    (h : sqrt? p nonresidue a = some root) : root < p ∧ root * root % p = a % p := by
  simp only [sqrt?] at h
  split at h
  next square =>
    cases Option.some.inj h
    refine ⟨correctRoot_lt _ _ _ _ ?_, square⟩
    rw [pow_eq]
    exact Nat.mod_lt _ pos
  next => cases h

theorem mul_inverse?_mod {a m x : Nat} (h : inverse? a m = some x) : a * x % m = 1 % m := by
  rw [inverse?_eq] at h
  split at h
  next product => exact Option.some.inj h ▸ product
  next => cases h

theorem cast_difference {p : Nat} (u : Nat) {v : Nat} (h : v ≤ p) :
    (((u + (p - v)) % p : Nat) : ZMod p) = u - v := by
  rw [ZMod.natCast_mod, Nat.cast_add, Nat.cast_sub h, ZMod.natCast_self]
  ring

section
variable {p : Nat} [Fact p.Prime]

theorem remainder_le (u : Nat) : u % p ≤ p := (Nat.mod_lt u (Fact.out : p.Prime).pos).le

/-- Modulo a prime an inverse is found of all that is not zero. -/
theorem exists_inverse {k : Nat} (nonzero : (k : ZMod p) ≠ 0) :
    ∃ inverse, inverse? k p = some inverse ∧ (k : ZMod p) * inverse = 1 := by
  have prime : p.Prime := Fact.out
  have coprime : Nat.Coprime k p := by
    rw [Nat.coprime_comm, prime.coprime_iff_not_dvd, ← ZMod.natCast_eq_zero_iff]
    exact nonzero
  obtain ⟨inverse, inverted⟩ :=
    Option.isSome_iff_exists.mp ((inverse?_isSome_iff prime.pos).mpr coprime)
  have product := mul_inverse?_mod inverted
  rw [← ZMod.natCast_eq_natCast_iff'] at product
  exact ⟨inverse, inverted, by exact_mod_cast product⟩

end

end CertAuthority.Modular
