import CertAuthority.Text.Numeral
import Mathlib.Data.List.Basic
import Mathlib.Data.List.Forall2
import Mathlib.Data.Nat.Digits.Defs

namespace CertAuthority

namespace Numeral

theorem digitValue?_digitChar : ∀ d < 36, digitValue? (digitChar d) = some d := by decide

/-- A character that stands for a value in a base: the digit of that value or its capital letter. -/
def IsDigit (base : Nat) (c : Char) (d : Nat) : Prop :=
  d < base ∧ (c = digitChar d ∨ c = (digitChar d).toUpper)

theorem digitValue?_toUpper : ∀ d < 36, digitValue? (digitChar d).toUpper = some d := by decide

/-- All digits are among the first characters. -/
theorem eq_digitChar_of_lt : ∀ n < 123, ∀ d ∈ digitValue? (Char.ofNat n),
    d < 36 ∧ (Char.ofNat n = digitChar d ∨ Char.ofNat n = (digitChar d).toUpper) := by decide

theorem digitValue?_eq_some_iff {c : Char} {d : Nat} :
    digitValue? c = some d ↔ d < 36 ∧ (c = digitChar d ∨ c = (digitChar d).toUpper) := by
  constructor
  · intro h
    have low : c.toNat < 123 := by
      unfold digitValue? at h
      split at h
      next range =>
        have top : c.toNat ≤ 57 := range.2
        omega
      next =>
        split at h
        next range =>
          have top : c.toNat ≤ 122 := range.2
          omega
        next =>
          split at h
          next range =>
            have top : c.toNat ≤ 90 := range.2
            omega
          next => cases h
    have digit := eq_digitChar_of_lt c.toNat low d
    rw [Char.ofNat_toNat] at digit
    exact digit h
  · rintro ⟨small, rfl | rfl⟩
    · exact digitValue?_digitChar d small
    · exact digitValue?_toUpper d small

section

variable {base : Nat}

theorem digit_eq_some_iff (limit : base ≤ 36) {c : Char} {n m : Nat} :
    ((digitValue? c).bind fun d => if d < base then some (n * base + d) else none) = some m
      ↔ ∃ d, IsDigit base c d ∧ n * base + d = m := by
  rw [Option.bind_eq_some_iff]
  refine exists_congr fun d => ?_
  rw [digitValue?_eq_some_iff, Option.ite_none_right_eq_some, Option.some_inj, IsDigit]
  constructor
  · rintro ⟨⟨-, same⟩, small, value⟩
    exact ⟨⟨small, same⟩, value⟩
  · rintro ⟨⟨small, same⟩, value⟩
    exact ⟨⟨by omega, same⟩, small, value⟩

/-- Digits behind a number move it up by their places. -/
theorem foldlM_eq_some_iff (limit : base ≤ 36) (cs : List Char) (n m : Nat) :
    cs.foldlM (fun n c => (digitValue? c).bind fun d =>
        if d < base then some (n * base + d) else none) n = some m
      ↔ ∃ ds, List.Forall₂ (IsDigit base) cs ds
        ∧ n * base ^ ds.length + Nat.ofDigits base ds.reverse = m := by
  induction cs generalizing n with
  | nil => simp
  | cons c cs ih =>
    have place (d : Nat) (ds : List Nat) :
        (n * base + d) * base ^ ds.length + Nat.ofDigits base ds.reverse
          = n * base ^ (d :: ds).length + Nat.ofDigits base (d :: ds).reverse := by
      rw [Nat.ofDigits_reverse_cons, List.length_cons, pow_succ]
      ring
    rw [List.foldlM_cons, Option.bind_eq_bind, Option.bind_eq_some_iff]
    constructor
    · rintro ⟨k, first, later⟩
      obtain ⟨d, digit, rfl⟩ := (digit_eq_some_iff limit).mp first
      obtain ⟨ds, digits, rfl⟩ := (ih _).mp later
      exact ⟨d :: ds, .cons digit digits, (place d ds).symm⟩
    · rintro ⟨_, digits, rfl⟩
      cases digits with
      | cons digit digits =>
        exact ⟨_, (digit_eq_some_iff limit).mpr ⟨_, digit, rfl⟩, (ih _).mpr ⟨_, digits, place _ _⟩⟩

/-- The number that digits spell is that of their values, each counted by its place. -/
theorem ofDigits?_eq_some_iff (limit : base ≤ 36) {cs : List Char} {n : Nat} :
    ofDigits? base cs = some n ↔ cs ≠ [] ∧ ∃ ds, List.Forall₂ (IsDigit base) cs ds
      ∧ Nat.ofDigits base ds.reverse = n := by
  have read := foldlM_eq_some_iff limit cs 0 n
  simp only [Nat.zero_mul, Nat.zero_add] at read
  rw [ofDigits?, ← read]
  cases cs with
  | nil => simp
  | cons c cs => simp

end

/-- One decimal digit or more, and nothing else. -/
def IsNumeral (cs : List Char) : Prop := cs ≠ [] ∧ ∀ c ∈ cs, c.isDigit = true

/-- The number that decimal digits stand for. -/
def value (cs : List Char) : Nat := Nat.ofDigits 10 (cs.map fun c => c.toNat - '0'.toNat).reverse

theorem isDigit_ten_iff {c : Char} {d : Nat} :
    IsDigit 10 c d ↔ c.isDigit = true ∧ c.toNat - '0'.toNat = d := by
  have spelled : ∀ d < 10, (digitChar d).toUpper = digitChar d ∧ (digitChar d).isDigit = true
      ∧ (digitChar d).toNat - '0'.toNat = d := by decide
  constructor
  · rintro ⟨small, same⟩
    obtain ⟨upper, digit, number⟩ := spelled d small
    rw [upper, or_self] at same
    exact same ▸ ⟨digit, number⟩
  · rintro ⟨digit, rfl⟩
    rw [Char.isDigit, Bool.and_eq_true, decide_eq_true_eq, decide_eq_true_eq] at digit
    have top : c.toNat ≤ 57 := digit.2
    have small : c.toNat - 48 < 10 := by omega
    exact ⟨small, (digitValue?_eq_some_iff.mp (if_pos digit)).2⟩

theorem ofDigits?_ten_eq_some_iff {cs : List Char} {n : Nat} :
    ofDigits? 10 cs = some n ↔ IsNumeral cs ∧ value cs = n := by
  have digits (ds : List Nat) : List.Forall₂ (IsDigit 10) cs ds
      ↔ (∀ c ∈ cs, c.isDigit = true) ∧ cs.map (fun c => c.toNat - '0'.toNat) = ds := by
    have digit : IsDigit 10 = fun c d => c.isDigit = true ∧ c.toNat - '0'.toNat = d :=
      funext₂ fun _ _ => propext isDigit_ten_iff
    rw [digit, List.forall₂_and_left, ← List.forall₂_eq_eq_eq, List.forall₂_map_left_iff]
  rw [ofDigits?_eq_some_iff (by omega), IsNumeral, value, and_assoc]
  refine and_congr_right fun _ => ?_
  simp only [digits, and_assoc, exists_and_left, exists_eq_left']

theorem digits_ne_nil (base n : Nat) : digits base n ≠ [] := by
  rw [digits]
  split <;> simp

/-- What holds of the digits of a base holds of all digits of a number. -/
theorem forall_mem_digits {p : Char → Prop} {base : Nat} (valid : 2 ≤ base)
    (digit : ∀ d < base, p (digitChar d)) (n : Nat) : ∀ c ∈ digits base n, p c := by
  fun_induction digits base n with
  | case1 n small =>
    rw [List.forall_mem_singleton]
    exact digit n (by omega)
  | case2 n large ih =>
    exact List.forall_mem_append.mpr
      ⟨ih, List.forall_mem_singleton.mpr (digit _ (Nat.mod_lt _ (by omega)))⟩

/-- The digits of a number begin with a zero only if it is zero. -/
theorem head?_digits_eq_zero_iff {base : Nat} (valid : 2 ≤ base) (limit : base ≤ 36) (n : Nat) :
    (digits base n).head? = some '0' ↔ n = 0 := by
  have digit : ∀ d < 36, (digitChar d = '0' ↔ d = 0) := by decide
  fun_induction digits base n with
  | case1 n small =>
    rw [List.head?_cons, Option.some_inj]
    exact digit n (by omega)
  | case2 n large ih =>
    have front : n / base ≠ 0 := by
      rw [Nat.div_ne_zero_iff]
      omega
    rw [List.head?_append_of_ne_nil _ (digits_ne_nil base _)]
    refine ih.trans ⟨fun zero => absurd zero front, ?_⟩
    rintro rfl
    omega

theorem ofDigits?_digits {base : Nat} (valid : 2 ≤ base) (limit : base ≤ 36) (n : Nat) :
    ofDigits? base (digits base n) = some n := by
  have filled : (digits base n).isEmpty = false := by
    rw [List.isEmpty_eq_false_iff]
    exact digits_ne_nil base n
  rw [ofDigits?, filled]
  clear filled
  fun_induction digits base n with
  | case1 n small =>
    have value := digitValue?_digitChar n (by omega)
    have below : n < base := by omega
    simp [value, below]
  | case2 n large ih =>
    have below : n % base < base := Nat.mod_lt _ (by omega)
    have value := digitValue?_digitChar (n % base) (by omega)
    have whole := Nat.div_add_mod' n base
    simp only [Bool.false_eq_true, if_false] at ih ⊢
    rw [List.foldlM_append, ih]
    simp [value, below, whole]

end Numeral

end CertAuthority
