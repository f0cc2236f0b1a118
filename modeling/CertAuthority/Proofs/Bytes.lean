import CertAuthority.Bytes
import Mathlib.Data.List.Induction
import Mathlib.Data.Nat.Basic
import Mathlib.Tactic.Linarith
import Mathlib.Tactic.Ring

namespace CertAuthority

theorem toNat_ofNat_mod (n : Nat) : (UInt8.ofNat n).toNat = n % 256 := by
  simp [UInt8.toNat_ofNat']

@[simp] theorem beNat_nil : beNat [] = 0 := rfl

theorem beNat_append_singleton (b : Bytes) (x : UInt8) :
    beNat (b ++ [x]) = beNat b * 256 + x.toNat := by
  simp [beNat, List.foldl_append]

/-- Behind a prefix every octet counts by its place from the end. -/
theorem beNat_append (a b : Bytes) : beNat (a ++ b) = beNat a * 256 ^ b.length + beNat b := by
  induction b using List.reverseRecOn with
  | nil => simp
  | append_singleton b x ih =>
    rw [← List.append_assoc, beNat_append_singleton, beNat_append_singleton, ih]
    simp only [List.length_append, List.length_singleton, pow_succ]
    ring

theorem beNat_cons (x : UInt8) (b : Bytes) :
    beNat (x :: b) = x.toNat * 256 ^ b.length + beNat b := by
  rw [← List.singleton_append, beNat_append]
  simp [beNat]

theorem beNat_lt (b : Bytes) : beNat b < 256 ^ b.length := by
  induction b with
  | nil => simp
  | cons x b ih =>
    have octet : x.toNat + 1 ≤ 256 := x.toNat_lt
    rw [beNat_cons, List.length_cons, pow_succ]
    calc x.toNat * 256 ^ b.length + beNat b
        < (x.toNat + 1) * 256 ^ b.length := by rw [Nat.succ_mul]; omega
      _ ≤ 256 * 256 ^ b.length := Nat.mul_le_mul_right _ octet
      _ = 256 ^ b.length * 256 := Nat.mul_comm _ _

theorem leNat_lt (b : Bytes) : leNat b < 256 ^ b.length := by
  induction b with
  | nil => decide
  | cons x b ih =>
    have value : leNat (x :: b) = leNat b * 256 + x.toNat := rfl
    have octet := x.toNat_lt
    rw [value, List.length_cons, Nat.pow_succ]
    omega

theorem natBytes_zero : natBytes 0 = [] := by
  rw [natBytes]
  rfl

theorem natBytes_of_pos {n : Nat} (h : 0 < n) :
    natBytes n = natBytes (n / 256) ++ [UInt8.ofNat n] := by
  rw [natBytes, if_neg (by omega)]

theorem beNat_natBytes (n : Nat) : beNat (natBytes n) = n := by
  induction n using natBytes.induct with
  | case1 => rw [natBytes_zero]; rfl
  | case2 n hn ih =>
    rw [natBytes_of_pos (by omega), beNat_append_singleton, ih, toNat_ofNat_mod]
    omega

theorem natBytes_ne_nil {n : Nat} (h : 0 < n) : natBytes n ≠ [] := by
  rw [natBytes_of_pos h]
  simp

/-- The shortest spelling needs no more octets than the number has places. -/
theorem natBytes_length_le {k n : Nat} (h : n < 256 ^ k) : (natBytes n).length ≤ k := by
  induction k generalizing n with
  | zero =>
    have : n = 0 := by simpa using h
    subst n
    simp [natBytes_zero]
  | succ k ih =>
    rcases Nat.eq_zero_or_pos n with rfl | hn
    · simp [natBytes_zero]
    · have hq : n / 256 < 256 ^ k := by
        rw [pow_succ] at h
        exact Nat.div_lt_of_lt_mul (by omega)
      have := ih hq
      rw [natBytes_of_pos hn]
      simpa using this

theorem natBytes_head_ne_zero {n : Nat} {x : UInt8} (h : (natBytes n).head? = some x) : x ≠ 0 := by
  induction n using natBytes.induct with
  | case1 => simp [natBytes_zero] at h
  | case2 n hn ih =>
    rw [natBytes_of_pos (by omega)] at h
    rcases Nat.eq_zero_or_pos (n / 256) with hz | hp
    · rw [hz, natBytes_zero] at h
      have hx : UInt8.ofNat n = x := by simpa using h
      rintro rfl
      have := congrArg UInt8.toNat hx
      rw [toNat_ofNat_mod] at this
      simp at this
      omega
    · obtain ⟨y, ys, hy⟩ := List.exists_cons_of_ne_nil (natBytes_ne_nil hp)
      rw [hy] at h ih
      exact ih (by simpa using h)

/-- Octets without a zero in front are the shortest spelling of their number. -/
theorem natBytes_beNat {b : Bytes} (h : b.head? ≠ some 0) : natBytes (beNat b) = b := by
  induction b using List.reverseRecOn with
  | nil => exact natBytes_zero
  | append_singleton b x ih =>
    have octet : x.toNat < 256 := x.toNat_lt
    have last : UInt8.ofNat (beNat b * 256 + x.toNat) = x := by
      apply UInt8.toNat_inj.mp
      rw [toNat_ofNat_mod]
      omega
    have front : natBytes (beNat b) = b := by
      cases b with
      | nil => exact natBytes_zero
      | cons y b => exact ih (by simpa using h)
    have positive : 0 < beNat b * 256 + x.toNat := by
      cases b with
      | nil =>
        have filled : x ≠ 0 := by simpa using h
        have : x.toNat ≠ 0 := fun zero => filled (UInt8.toNat_inj.mp zero)
        rw [beNat_nil]
        omega
      | cons y b =>
        have filled : beNat (y :: b) ≠ 0 := by
          intro zero
          rw [zero, natBytes_zero] at front
          cases front
        omega
    rw [beNat_append_singleton, natBytes_of_pos positive, last,
      show (beNat b * 256 + x.toNat) / 256 = beNat b by omega, front]

@[simp] theorem fixedBytes_length (k n : Nat) : (fixedBytes k n).length = k := by
  induction k generalizing n with
  | zero => rfl
  | succ k ih => simp [fixedBytes, ih]

@[simp] theorem fixedBytesLe_length (k n : Nat) : (fixedBytesLe k n).length = k := by
  induction k generalizing n with
  | zero => rfl
  | succ k ih => simp [fixedBytesLe, ih]

theorem beNat_fixedBytes (k n : Nat) : beNat (fixedBytes k n) = n % 256 ^ k := by
  induction k generalizing n with
  | zero => simp [fixedBytes, Nat.mod_one]
  | succ k ih =>
    rw [fixedBytes, beNat_append_singleton, ih, toNat_ofNat_mod, pow_succ, Nat.mul_comm (256 ^ k),
      Nat.mod_mul]
    omega

theorem beNat_fixedBytes_of_lt {k n : Nat} (h : n < 256 ^ k) : beNat (fixedBytes k n) = n := by
  rw [beNat_fixedBytes, Nat.mod_eq_of_lt h]

theorem leNat_fixedBytesLe (k n : Nat) : leNat (fixedBytesLe k n) = n % 256 ^ k := by
  induction k generalizing n with
  | zero => simp [fixedBytesLe, leNat, Nat.mod_one]
  | succ k ih =>
    have value : leNat (fixedBytesLe (k + 1) n)
        = leNat (fixedBytesLe k (n / 256)) * 256 + (UInt8.ofNat n).toNat := rfl
    rw [value, ih, toNat_ofNat_mod, pow_succ, Nat.mul_comm (256 ^ k), Nat.mod_mul]
    omega

/-- Octets are the spelling of their number in their own width. -/
theorem fixedBytes_beNat {b : Bytes} {k : Nat} (h : b.length = k) : fixedBytes k (beNat b) = b := by
  subst h
  induction b using List.reverseRecOn with
  | nil => rfl
  | append_singleton b x ih =>
    have octet : x.toNat < 256 := x.toNat_lt
    have front : (beNat b * 256 + x.toNat) / 256 = beNat b := by omega
    have last : UInt8.ofNat (beNat b * 256 + x.toNat) = x := by
      apply UInt8.toNat_inj.mp
      rw [toNat_ofNat_mod]
      omega
    rw [List.length_append, List.length_singleton, fixedBytes, beNat_append_singleton, front, last,
      ih]

end CertAuthority
