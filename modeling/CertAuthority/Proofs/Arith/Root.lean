import CertAuthority.Proofs.Arith.Modular
import Mathlib.NumberTheory.LegendreSymbol.Basic
import Mathlib.Tactic.LinearCombination

namespace CertAuthority.Modular

theorem splitTwos_spec {n : Nat} (pos : 0 < n) :
    n = 2 ^ (splitTwos n).1 * (splitTwos n).2 ∧ (splitTwos n).2 % 2 = 1 := by
  induction n using splitTwos.induct with
  | case1 n last =>
    have odd : n % 2 = 1 := last.resolve_left (by omega)
    rw [splitTwos, if_pos last]
    exact ⟨(Nat.one_mul n).symm, odd⟩
  | case2 n more k odd half ih =>
    obtain ⟨split, parity⟩ := ih (by omega)
    rw [half] at split parity
    rw [splitTwos, if_neg more, half]
    refine ⟨?_, parity⟩
    rw [Nat.pow_succ, Nat.mul_right_comm, ← split]
    omega

theorem splitTwos_pos {n : Nat} (pos : 0 < n) (even : n % 2 = 0) : 0 < (splitTwos n).1 := by
  rw [splitTwos, if_neg (by omega)]
  exact Nat.succ_pos _

section
variable {p : Nat}

theorem cast_squareTimes (k x : Nat) : (squareTimes p k x : ZMod p) = x ^ 2 ^ k := by
  induction k generalizing x with
  | zero => rw [squareTimes, pow_zero, pow_one]
  | succ k ih =>
    rw [squareTimes, ih, ZMod.natCast_mod, Nat.cast_mul, ← sq, ← pow_mul, ← pow_succ']

theorem cast_pow (b e : Nat) : (pow b e p : ZMod p) = b ^ e := by
  rw [pow_eq, ZMod.natCast_mod, Nat.cast_pow]

theorem correctRoot_zero (fuel m c root : Nat) : correctRoot p fuel m c 0 root = root := by
  cases fuel with
  | zero => rfl
  | succ fuel => rw [correctRoot, if_pos (Nat.zero_le 1)]

variable [Fact p.Prime]

theorem cast_eq_one_iff {t : Nat} (below : t < p) : (t : ZMod p) = 1 ↔ t = 1 := by
  have one := (Fact.out : p.Prime).one_lt
  rw [← Nat.cast_one, ZMod.natCast_eq_natCast_iff', Nat.mod_eq_of_lt below, Nat.mod_eq_of_lt one]

/-- A number that becomes one under some squarings within the limit does so first under as many
as are counted. -/
theorem squaringsToOne_spec {limit k t : Nat} (below : t < p) (within : k ≤ limit)
    (h : (t : ZMod p) ^ 2 ^ k = 1) :
    squaringsToOne p limit t ≤ k ∧ (t : ZMod p) ^ 2 ^ squaringsToOne p limit t = 1
      ∧ ∀ j < squaringsToOne p limit t, (t : ZMod p) ^ 2 ^ j ≠ 1 := by
  induction limit generalizing k t with
  | zero =>
    rw [Nat.le_zero.mp within] at h
    exact ⟨Nat.zero_le _, h, by simp [squaringsToOne]⟩
  | succ limit ih =>
    rw [squaringsToOne]
    split
    next one => simp [one]
    next more =>
      have first : (t : ZMod p) ≠ 1 := mt (cast_eq_one_iff below).mp more
      obtain _ | k := k
      · rw [pow_zero, pow_one] at h
        exact absurd h first
      have square (j : Nat) : (t : ZMod p) ^ 2 ^ (j + 1) = (t * t % p : Nat) ^ 2 ^ j := by
        rw [ZMod.natCast_mod, Nat.cast_mul, ← sq, ← pow_mul, ← pow_succ']
      rw [square] at h
      obtain ⟨least, one, before⟩ := ih (Nat.mod_lt _ (by omega)) (by omega) h
      refine ⟨by omega, ?_, ?_⟩
      · rw [Nat.add_comm, square]
        exact one
      · intro j earlier
        obtain _ | j := j
        · rwa [pow_zero, pow_one]
        · rw [square]
          exact before j (by omega)

/-- Half way to its order a number that has no root is minus one. -/
theorem not_isSquare {a : Nat} (large : 2 < p) (h : pow a (p / 2) p + 1 = p) :
    ¬ IsSquare (a : ZMod p) := by
  have := Fact.mk large
  have half : (a : ZMod p) ^ (p / 2) = -1 := by
    have cast : ((pow a (p / 2) p + 1 : Nat) : ZMod p) = 0 := by rw [h, ZMod.natCast_self]
    rw [Nat.cast_add, Nat.cast_one, cast_pow] at cast
    exact eq_neg_of_add_eq_zero_left cast
  have nonzero : (a : ZMod p) ≠ 0 := by
    intro zero
    rw [zero, zero_pow (by omega)] at half
    exact one_ne_zero (neg_eq_zero.mp half.symm)
  rw [ZMod.euler_criterion p nonzero, half]
  exact ZMod.neg_one_ne_one

/-- The invariant of the correcting steps. -/
theorem correctRoot_sq {a fuel m c t root : Nat} (pos : 0 < m) (enough : m ≤ fuel) (below : t < p)
    (nonzero : (t : ZMod p) ≠ 0) (radicand : (root : ZMod p) ^ 2 = a * t)
    (order : (t : ZMod p) ^ 2 ^ (m - 1) = 1) (generator : (c : ZMod p) ^ 2 ^ (m - 1) = -1) :
    (correctRoot p fuel m c t root : ZMod p) ^ 2 = a := by
  induction fuel generalizing m c t root with
  | zero => omega
  | succ fuel ih =>
    rw [correctRoot]
    split
    next small =>
      have one : t = 1 := by
        have : t ≠ 0 := fun zero => nonzero (by rw [zero, Nat.cast_zero])
        omega
      rw [radicand, one, Nat.cast_one, mul_one]
    next large =>
      obtain ⟨least, one, before⟩ := squaringsToOne_spec below (Nat.sub_le m 1) order
      set i := squaringsToOne p m t
      have first : 0 < i := by
        by_contra zero
        rw [Nat.eq_zero_of_not_pos zero, pow_zero, pow_one] at one
        have := (cast_eq_one_iff below).mp one
        omega
      have half : (t : ZMod p) ^ 2 ^ (i - 1) = -1 := by
        have square : (t : ZMod p) ^ 2 ^ (i - 1) * t ^ 2 ^ (i - 1) = 1 := by
          rw [← sq, ← pow_mul, ← pow_succ, Nat.sub_add_cancel first, one]
        exact (mul_self_eq_one_iff.mp square).resolve_left (before _ (by omega))
      set b := squareTimes p (m - i - 1) c
      have factor : (b : ZMod p) * b = c ^ 2 ^ (m - i) := by
        rw [cast_squareTimes, ← sq, ← pow_mul, ← pow_succ, Nat.sub_add_cancel (by omega)]
      have next : ((b : ZMod p) * b) ^ 2 ^ (i - 1) = -1 := by
        rw [factor, ← pow_mul, ← pow_add, show m - i + (i - 1) = m - 1 by omega, generator]
      have invertible : (b : ZMod p) * b ≠ 0 := by
        intro zero
        rw [zero, zero_pow (pow_ne_zero _ two_ne_zero)] at next
        exact one_ne_zero (neg_eq_zero.mp next.symm)
      apply ih first (by omega) (Nat.mod_lt _ (Fact.out : p.Prime).pos)
      · push_cast [ZMod.natCast_mod]
        exact mul_ne_zero nonzero invertible
      · push_cast [ZMod.natCast_mod]
        linear_combination (b : ZMod p) ^ 2 * radicand
      · push_cast [ZMod.natCast_mod]
        rw [mul_pow, half, next, neg_mul_neg, one_mul]
      · push_cast [ZMod.natCast_mod]
        exact next

/-- A number has a root found exactly if it has one in the field. -/
theorem sqrt?_isSome_iff {a z : Nat} (odd : p % 2 = 1) (nonresidue : ¬ IsSquare (z : ZMod p)) :
    (sqrt? p z a).isSome = true ↔ IsSquare (a : ZMod p) := by
  have prime : p.Prime := Fact.out
  have two := prime.two_le
  constructor
  · intro found
    obtain ⟨root, found⟩ := Option.isSome_iff_exists.mp found
    have square := (sqrt?_eq_some prime.pos found).2
    rw [← ZMod.natCast_eq_natCast_iff', Nat.cast_mul] at square
    exact ⟨root, square.symm⟩
  · intro square
    -- The exponent of two and the odd factor are all that is used of the field's size.
    obtain ⟨split, last⟩ := splitTwos_spec (n := p - 1) (by omega)
    have twos := splitTwos_pos (n := p - 1) (by omega) (by omega)
    simp only [sqrt?]
    generalize (splitTwos (p - 1)).1 = s at *
    generalize (splitTwos (p - 1)).2 = q at *
    rw [if_pos]
    · rfl
    rw [← ZMod.natCast_eq_natCast_iff', Nat.cast_mul, ← sq]
    by_cases zero : (a : ZMod p) = 0
    · have tested : pow a q p = 0 := by
        rw [pow_eq]
        exact Nat.mod_eq_zero_of_dvd
          (dvd_pow ((ZMod.natCast_eq_zero_iff _ _).mp zero) (by omega))
      rw [tested, correctRoot_zero, cast_pow, zero, zero_pow (by omega), zero_pow two_ne_zero]
    · have half : 2 ^ (s - 1) * q = p / 2 := by
        obtain ⟨s, rfl⟩ := Nat.exists_eq_succ_of_ne_zero twos.ne'
        rw [Nat.pow_succ, Nat.mul_right_comm] at split
        rw [Nat.succ_sub_one]
        omega
      have power (b : Nat) : (pow b q p : ZMod p) ^ 2 ^ (s - 1) = b ^ (p / 2) := by
        rw [cast_pow, ← pow_mul, Nat.mul_comm, half]
      apply correctRoot_sq twos le_rfl
      · rw [pow_eq]
        exact Nat.mod_lt _ prime.pos
      · rw [cast_pow]
        exact pow_ne_zero q zero
      · rw [cast_pow, cast_pow, ← pow_mul, ← pow_succ']
        congr 1
        omega
      · rw [power]
        exact (ZMod.euler_criterion p zero).mp square
      · have nonzero : (z : ZMod p) ≠ 0 := fun zero => nonresidue (zero ▸ IsSquare.zero)
        rw [power]
        exact (ZMod.pow_div_two_eq_neg_one_or_one p nonzero).resolve_left
          (mt (ZMod.euler_criterion p nonzero).mpr nonresidue)

end

end CertAuthority.Modular
