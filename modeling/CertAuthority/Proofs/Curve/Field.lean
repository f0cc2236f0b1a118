import CertAuthority.Curve.Edwards25519
import CertAuthority.Curve.Nist
import CertAuthority.Proofs.Arith.Prime
import Mathlib.Tactic.LinearCombination

namespace CertAuthority

namespace Primality

/-- Shows that the sizes of the fields are prime, each behind the large factors it rests on. -/
def fieldEvidence : List Evidence :=
  [⟨NistCurve.curve224.p, 11, [(2, 96), (257, 1), (641, 1)]⟩,
   ⟨204061199, 2, [(107, 1), (3769, 1)]⟩,
   ⟨34282281433, 2, [(204061199, 1)]⟩,
   ⟨66417393611, 2, [(197, 1), (3677, 1)]⟩,
   ⟨11290956913871, 2, [(66417393611, 1)]⟩,
   ⟨774023187263532362759620327192479577272145303, 2, [(34282281433, 1), (11290956913871, 1)]⟩,
   ⟨835945042244614951780389953367877943453916927241, 2,
    [(774023187263532362759620327192479577272145303, 1)]⟩,
   ⟨NistCurve.curve256.p, 2, [(835945042244614951780389953367877943453916927241, 1)]⟩,
   ⟨363557, 2, [(937, 1)]⟩,
   ⟨532247449, 2, [(363557, 1)]⟩,
   ⟨44925942675193, 2, [(532247449, 1)]⟩,
   ⟨35581458644053887931343, 2, [(44925942675193, 1)]⟩,
   ⟨23964610537191310276190549303, 2, [(35581458644053887931343, 1)]⟩,
   ⟨862725979338887169942859774909, 2, [(23964610537191310276190549303, 1)]⟩,
   ⟨20705423504133292078628634597817, 2, [(862725979338887169942859774909, 1)]⟩,
   ⟨413244619895455989650825325680172591660047, 2, [(20705423504133292078628634597817, 1)]⟩,
   ⟨12397338596863679689524759770405177749801411, 2,
    [(413244619895455989650825325680172591660047, 1)]⟩,
   ⟨19173790298027098165721053155794528970226934547887232785722672956982046098136719667167519737147526097, 3,
    [(2, 4), (11, 3), (8389, 1), (12397338596863679689524759770405177749801411, 1)]⟩,
   ⟨NistCurve.curve384.p, 2,
    [(19173790298027098165721053155794528970226934547887232785722672956982046098136719667167519737147526097, 1)]⟩,
   ⟨108140989558681, 3, [(13, 1), (683, 1), (1433, 1)]⟩,
   ⟨8620289, 3, [(2, 8), (223, 1)]⟩,
   ⟨2534364967, 2, [(8620289, 1)]⟩,
   ⟨145295143558111, 3, [(2534364967, 1)]⟩,
   ⟨9211861, 2, [(3, 3), (2437, 1)]⟩,
   ⟨24098228377, 2, [(9211861, 1)]⟩,
   ⟨674750394557, 2, [(24098228377, 1)]⟩,
   ⟨361725589517273017, 2, [(674750394557, 1)]⟩,
   ⟨173308343918874810521923841, 3, [(361725589517273017, 1)]⟩,
   ⟨NistCurve.curve521.p, 3,
    [(5, 2), (17, 1), (31, 1), (41, 1), (53, 1), (131, 1), (157, 1), (521, 1), (1613, 1),
     (2731, 1), (8191, 1), (108140989558681, 1), (145295143558111, 1),
     (173308343918874810521923841, 1)]⟩,
   ⟨1919519569386763, 2, [(3, 1), (7, 1), (19, 1), (47, 2), (127, 1)]⟩,
   ⟨75445702479781427272750846543864801, 7, [(2, 5), (5, 2), (1919519569386763, 1)]⟩,
   ⟨74058212732561358302231226437062788676166966415465897661863160754340907, 2,
    [(353, 1), (75445702479781427272750846543864801, 1)]⟩,
   ⟨Ed25519.p, 2, [(74058212732561358302231226437062788676166966415465897661863160754340907, 1)]⟩]

theorem proves_fieldEvidence : proves fieldEvidence [] = true := by decide +kernel

end Primality

theorem NistCurve.p_prime (c : NistCurve) : c.curve.p.Prime := by
  apply Primality.prime_of_number Primality.proves_fieldEvidence
  cases c <;> decide +kernel

theorem NistCurve.p_odd (c : NistCurve) : c.curve.p % 2 = 1 := by cases c <;> decide +kernel

theorem Ed25519.p_prime : p.Prime :=
  Primality.prime_of_number Primality.proves_fieldEvidence (by decide +kernel)

namespace Modular

section
variable {p y z : Nat}

/-- Two roots of one square are the same or opposite. -/
theorem eq_or_add_eq_of_sq (prime : p.Prime) (hy : y < p) (hz : z < p)
    (square : y * y % p = z * z % p) : y = z ∨ y + z = p := by
  have product : (p : Int) ∣ (y - z) * (y + z) := by
    have difference := Int.modEq_iff_dvd.mp (Int.natCast_modEq_iff.mpr (Nat.ModEq.symm square))
    rwa [Nat.cast_mul, Nat.cast_mul, mul_self_sub_mul_self, mul_comm] at difference
  rcases (Nat.prime_iff_prime_int.mp prime).dvd_or_dvd product with difference | sum
  · left
    have equal := Int.eq_zero_of_abs_lt_dvd difference (by rw [abs_lt]; omega)
    omega
  · by_cases zero : y + z = 0
    · left
      omega
    · right
      have sum : p ∣ y + z := by exact_mod_cast sum
      exact Nat.eq_of_dvd_of_lt_two_mul zero sum (by omega)

/-- A root is known by its parity. The root of zero is alone. -/
theorem eq_of_sq_of_parity (prime : p.Prime) (odd : p % 2 = 1) (hy : y < p) (hz : z < p)
    (square : y * y % p = z * z % p) {parity : Nat} (first : y = 0 ∨ y % 2 = parity)
    (second : z = 0 ∨ z % 2 = parity) : y = z := by
  have roots := eq_or_add_eq_of_sq prime hy hz square
  omega

/-- Of a root and its opposite the one of the parity asked for, unless both are zero. -/
theorem chosen_root {root x : Nat} {odd : Bool} (p_odd : p % 2 = 1) (below : root < p)
    (h : x = if (root % 2 == 1) == odd then root else (0 + (p - root)) % p) :
    x < p ∧ (x = 0 ∨ x % 2 = odd.toNat) ∧ x * x % p = root * root % p := by
  have parity_iff : ((root % 2 == 1) == odd) = true ↔ root % 2 = odd.toNat := by
    cases odd <;> simp
  have bit := odd.toNat_lt
  rw [Nat.zero_add] at h
  split at h
  next same =>
    subst h
    exact ⟨below, .inr (parity_iff.mp same), rfl⟩
  next other =>
    have other := mt parity_iff.mpr other
    have opposite : ((p - root : Nat) * (p - root : Nat) : ZMod p) = root * root := by
      rw [Nat.cast_sub below.le, ZMod.natCast_self]
      ring
    have square : x * x % p = root * root % p := by
      rw [← ZMod.natCast_eq_natCast_iff', Nat.cast_mul, h, ZMod.natCast_mod, opposite, Nat.cast_mul]
    refine ⟨h ▸ Nat.mod_lt _ (by omega), ?_, square⟩
    rcases Nat.eq_zero_or_pos root with zero | pos
    · left
      rw [h, zero, Nat.sub_zero, Nat.mod_self]
    · right
      rw [h, Nat.mod_eq_of_lt (Nat.sub_lt (by omega) pos)]
      omega

end

end Modular

end CertAuthority
