import CertAuthority.Proofs.Arith.Modular
import Mathlib.Data.ZMod.Basic
import Mathlib.FieldTheory.Finite.Basic
import Mathlib.GroupTheory.OrderOfElement

namespace CertAuthority.Primality

/-- What shows that a number is prime: a base, and primes with exponents whose product divides
the number less one. -/
structure Evidence where
  number : Nat
  base : Nat
  factors : List (Nat × Nat)

namespace Evidence

/-- The known part of the number less one. -/
def part (e : Evidence) : Nat := (e.factors.map fun f => f.1 ^ f.2).prod

/-- How far the power of the base without one factor is from one, modulo the number. -/
def distance (e : Evidence) (factor : Nat) : Nat :=
  Modular.pow e.base ((e.number - 1) / factor) e.number + (e.number - 1)

structure IsSound (e : Evidence) : Prop where
  above : 1 < e.number
  enough : e.number < e.part * e.part
  divides : e.part ∣ e.number - 1
  returns : Modular.pow e.base (e.number - 1) e.number = 1
  apart : ∀ f ∈ e.factors, Nat.gcd (e.distance f.1) e.number = 1

instance (e : Evidence) : Decidable e.IsSound :=
  decidable_of_iff (1 < e.number ∧ e.number < e.part * e.part ∧ e.part ∣ e.number - 1
      ∧ Modular.pow e.base (e.number - 1) e.number = 1
      ∧ ∀ f ∈ e.factors, Nat.gcd (e.distance f.1) e.number = 1)
    ⟨fun ⟨a, b, c, d, f⟩ => ⟨a, b, c, d, f⟩, fun ⟨a, b, c, d, f⟩ => ⟨a, b, c, d, f⟩⟩

theorem mem_of_prime_dvd_part {e : Evidence} (primes : ∀ f ∈ e.factors, f.1.Prime) {r : Nat}
    (prime : r.Prime) (h : r ∣ e.part) : ∃ f ∈ e.factors, f.1 = r := by
  obtain ⟨_, listed, divides⟩ := prime.prime.dvd_prod_iff.mp h
  obtain ⟨f, mem, rfl⟩ := List.mem_map.mp listed
  have base := prime.dvd_of_dvd_pow divides
  exact ⟨f, mem, ((Nat.prime_dvd_prime_iff_eq prime (primes f mem)).mp base).symm⟩

section
variable {e : Evidence} {q : Nat} [Fact q.Prime]

theorem pow_eq_one (sound : e.IsSound) (divides : q ∣ e.number) :
    (e.base : ZMod q) ^ (e.number - 1) = 1 := by
  have whole : e.base ^ (e.number - 1) ≡ 1 [MOD e.number] := by
    have returns := sound.returns
    rw [Modular.pow_eq] at returns
    rw [Nat.ModEq, returns, Nat.mod_eq_of_lt sound.above]
  have cast := (ZMod.natCast_eq_natCast_iff _ _ _).mpr (whole.of_dvd divides)
  rwa [Nat.cast_pow, Nat.cast_one] at cast

theorem pow_div_ne_one (sound : e.IsSound) (divides : q ∣ e.number) {f : Nat × Nat}
    (mem : f ∈ e.factors) : (e.base : ZMod q) ^ ((e.number - 1) / f.1) ≠ 1 := by
  intro equal
  have above := sound.above
  have number : ((e.number : Nat) : ZMod q) = 0 := (ZMod.natCast_eq_zero_iff _ _).mpr divides
  have less : ((e.number - 1 : Nat) : ZMod q) = -1 := by
    rw [Nat.cast_sub (by omega), number, Nat.cast_one, zero_sub]
  have power : ((Modular.pow e.base ((e.number - 1) / f.1) e.number : Nat) : ZMod q) = 1 := by
    rw [Modular.pow_eq, ← equal, ← Nat.cast_pow]
    exact (ZMod.natCast_eq_natCast_iff _ _ _).mpr ((Nat.mod_modEq _ _).of_dvd divides)
  have distance : q ∣ e.distance f.1 := by
    apply (ZMod.natCast_eq_zero_iff _ _).mp
    rw [Evidence.distance, Nat.cast_add, power, less, add_neg_cancel]
  have common := Nat.dvd_gcd distance divides
  rw [sound.apart f mem] at common
  exact (Fact.out : q.Prime).one_lt.not_ge (Nat.le_of_dvd Nat.one_pos common)

/-- The order of the base without the unknown part is the known part. -/
theorem part_dvd (sound : e.IsSound) (primes : ∀ f ∈ e.factors, f.1.Prime)
    (divides : q ∣ e.number) : e.part ∣ q - 1 := by
  obtain ⟨rest, split⟩ := sound.divides
  have above := sound.above
  have pos : 0 < e.part := Nat.pos_of_ne_zero fun zero => by
    rw [zero, Nat.zero_mul] at split
    omega
  have whole : ((e.base : ZMod q) ^ rest) ^ e.part = 1 := by
    rw [← pow_mul, Nat.mul_comm, ← split, pow_eq_one sound divides]
  have order : orderOf ((e.base : ZMod q) ^ rest) = e.part := by
    apply orderOf_eq_of_pow_and_pow_div_prime pos whole
    intro r prime factor
    obtain ⟨f, mem, rfl⟩ := mem_of_prime_dvd_part primes prime factor
    have exponent : rest * (e.part / f.1) = (e.number - 1) / f.1 := by
      rw [split, Nat.mul_comm e.part, Nat.mul_div_assoc _ factor]
    rw [← pow_mul, exponent]
    exact pow_div_ne_one sound divides mem
  have nonzero : (e.base : ZMod q) ^ rest ≠ 0 := by
    intro zero
    rw [zero, zero_pow pos.ne'] at whole
    exact zero_ne_one whole
  rw [← order]
  exact ZMod.orderOf_dvd_card_sub_one nonzero

end

theorem prime {e : Evidence} (sound : e.IsSound) (primes : ∀ f ∈ e.factors, f.1.Prime) :
    e.number.Prime := by
  by_contra composite
  have above := sound.above
  have factor : e.number.minFac.Prime := Nat.minFac_prime (by omega)
  have square := Nat.minFac_sq_le_self (by omega) composite
  have := Fact.mk factor
  -- The least factor is one more than a multiple of the known part, so its square is too large.
  have order := part_dvd sound primes (Nat.minFac_dvd e.number)
  have least := Nat.le_of_dvd (by have := factor.one_lt; omega) order
  have larger : e.part * e.part ≤ e.number.minFac * e.number.minFac :=
    Nat.mul_le_mul (by omega) (by omega)
  have enough := sound.enough
  rw [Nat.pow_two] at square
  omega

end Evidence

/-- Whether a number below ten thousand is prime, by trial. -/
def isSmallPrime (n : Nat) : Bool :=
  2 ≤ n && n < 100 * 100 && (List.range 100).all fun m => m < 2 || n ≤ m || n % m != 0

theorem prime_of_isSmallPrime {n : Nat} (h : isSmallPrime n = true) : n.Prime := by
  simp only [isSmallPrime, Bool.and_eq_true, decide_eq_true_eq, List.all_eq_true, List.mem_range,
    Bool.or_eq_true, bne_iff_ne] at h
  obtain ⟨⟨two, small⟩, trial⟩ := h
  by_contra composite
  have factor : n.minFac.Prime := Nat.minFac_prime (by omega)
  have square := Nat.minFac_sq_le_self (by omega) composite
  have below : n.minFac < n :=
    lt_of_le_of_ne (Nat.minFac_le (by omega)) fun same => composite (same ▸ factor)
  have hundred : n.minFac < 100 := by
    by_contra large
    have := Nat.mul_le_mul (Nat.not_lt.mp large) (Nat.not_lt.mp large)
    rw [Nat.pow_two] at square
    omega
  have tried := trial _ hundred
  have divides := Nat.mod_eq_zero_of_dvd (Nat.minFac_dvd n)
  have := factor.two_le
  omega

/-- Whether each number's factors are small primes or come before it, and show that it is prime. -/
def proves : List Evidence → List Nat → Bool
  | [], _ => true
  | e :: rest, known =>
    e.factors.all (fun f => known.contains f.1 || isSmallPrime f.1) && decide e.IsSound
      && proves rest (e.number :: known)

theorem prime_of_proves {evidence : List Evidence} {known : List Nat}
    (h : proves evidence known = true) (primes : ∀ n ∈ known, n.Prime) :
    ∀ e ∈ evidence, e.number.Prime := by
  induction evidence generalizing known with
  | nil => simp
  | cons e rest ih =>
    simp only [proves, Bool.and_eq_true, List.all_eq_true, Bool.or_eq_true, List.contains_iff_mem,
      decide_eq_true_eq] at h
    obtain ⟨⟨factors, sound⟩, others⟩ := h
    have first : e.number.Prime :=
      Evidence.prime sound fun f mem => (factors f mem).elim (primes f.1) prime_of_isSmallPrime
    intro e' mem
    rcases List.mem_cons.mp mem with rfl | mem
    · exact first
    · exact ih others (List.forall_mem_cons.mpr ⟨first, primes⟩) e' mem

theorem prime_of_number {evidence : List Evidence} (h : proves evidence [] = true) {n : Nat}
    (listed : n ∈ evidence.map Evidence.number) : n.Prime := by
  obtain ⟨e, mem, rfl⟩ := List.mem_map.mp listed
  exact prime_of_proves h (by simp) e mem

end CertAuthority.Primality
