import CertAuthority.Proofs.Der.Primitive

namespace CertAuthority.Der

/-- Whether the sign bit of content octets is set. -/
def isNegative (b : Bytes) : Bool := b.head?.any (0x80 ≤ ·)

/-- The integer of content octets in two's complement. -/
def signedValue (b : Bytes) : Int :=
  if isNegative b then (beNat b : Int) - 256 ^ b.length else beNat b

variable {a b : Bytes}

theorem signedValue_of_negative (h : isNegative b = true) :
    signedValue b = (beNat b : Int) - 256 ^ b.length := if_pos h

theorem signedValue_of_not_negative (h : isNegative b = false) : signedValue b = beNat b :=
  if_neg (by simp [h])

theorem signedValue_neg_iff : signedValue b < 0 ↔ isNegative b = true := by
  have bound : (beNat b : Int) < 256 ^ b.length := by exact_mod_cast beNat_lt b
  cases sign : isNegative b with
  | true =>
    rw [signedValue_of_negative sign]
    simp only [iff_true]
    omega
  | false =>
    rw [signedValue_of_not_negative sign]
    simp

theorem beNat_eq_ite (b : Bytes) : (beNat b : Int)
    = if signedValue b < 0 then signedValue b + 256 ^ b.length else signedValue b := by
  cases sign : isNegative b with
  | true =>
    rw [if_pos (signedValue_neg_iff.mpr sign), signedValue_of_negative sign]
    omega
  | false =>
    rw [if_neg (by rw [signedValue_neg_iff, sign]; simp), signedValue_of_not_negative sign]

/-- The magnitude of octets is their integer exactly if that is not negative. -/
theorem beNat_eq_signedValue_iff : (beNat b : Int) = signedValue b ↔ 0 ≤ signedValue b := by
  have positive : (0 : Int) < 256 ^ b.length := by positivity
  rw [beNat_eq_ite]
  split
  next negative => omega
  next whole => simp [not_lt.mp whole]

/-- What the magnitude of octets in their shortest form is written as. -/
theorem integerContent_beNat (shortest : isIntegerContent b = true) :
    integerContent (beNat b) = if isNegative b then 0 :: b else b := by
  have low (x : UInt8) : ¬ x < 0x80 ↔ 0x80 ≤ x := UInt8.not_lt
  cases b with
  | nil => cases shortest
  | cons x rest =>
    by_cases zero : x = 0
    · subst x
      cases rest with
      | nil =>
        rw [beNat_zero_cons, beNat_nil, integerContent, natBytes_zero]
        rfl
      | cons y rest =>
        have high : ¬ y < 0x80 := by simpa [isIntegerContent] using shortest
        have filled : (y :: rest).head? ≠ some 0 := by
          rintro h
          cases h
          exact high (by decide)
        rw [beNat_zero_cons, integerContent, natBytes_beNat filled]
        simp [isNegative, high]
    · have filled : (x :: rest).head? ≠ some 0 := by simpa using zero
      rw [integerContent, natBytes_beNat filled]
      by_cases high : 0x80 ≤ x
      · simp [isNegative, high, (low x).mpr high]
      · have small : x < 0x80 := by simpa using high
        simp [isNegative, high, small]

/-- Octets of the same magnitude in their shortest forms are the same if both are of one sign. -/
theorem eq_of_beNat_eq (shortest : isIntegerContent a = true)
    (shortest' : isIntegerContent b = true) (sign : isNegative a = isNegative b)
    (same : beNat a = beNat b) : a = b := by
  have left := integerContent_beNat shortest
  have right := integerContent_beNat shortest'
  rw [same, right, sign] at left
  cases h : isNegative b with
  | true =>
    rw [h] at left
    exact (List.cons.inj left).2.symm
  | false =>
    rw [h] at left
    exact left.symm

/-- The octets of the integer that adds up to minus one with that of other octets. -/
def complement (b : Bytes) : Bytes := b.map (~~~ ·)

theorem toNat_flipped (x : UInt8) : (~~~ x).toNat = 255 - x.toNat := UInt8.toNat_not x

theorem beNat_complement (b : Bytes) : beNat (complement b) + beNat b + 1 = 256 ^ b.length := by
  induction b with
  | nil => rfl
  | cons x b ih =>
    have octet : (~~~ x).toNat + x.toNat = 255 := by
      have : x.toNat < 256 := x.toNat_lt
      rw [toNat_flipped]
      omega
    have length : (complement b).length = b.length := List.length_map _
    have first : complement (x :: b) = ~~~ x :: complement b := rfl
    rw [first, beNat_cons, beNat_cons, length, List.length_cons, pow_succ]
    calc (~~~ x).toNat * 256 ^ b.length + beNat (complement b)
          + (x.toNat * 256 ^ b.length + beNat b) + 1
        = ((~~~ x).toNat + x.toNat) * 256 ^ b.length + (beNat (complement b) + beNat b + 1) := by
          ring
      _ = 256 ^ b.length * 256 := by
          rw [octet, ih]
          ring

theorem isIntegerContent_complement (b : Bytes) :
    isIntegerContent (complement b) = isIntegerContent b := by
  have all (x : UInt8) : ~~~ x = 0xff ↔ x = 0 := by
    have : x.toNat < 256 := x.toNat_lt
    rw [← UInt8.toNat_inj, ← UInt8.toNat_inj, toNat_flipped]
    simp
    omega
  have none (x : UInt8) : ~~~ x = 0 ↔ x = 0xff := by
    have : x.toNat < 256 := x.toNat_lt
    rw [← UInt8.toNat_inj, ← UInt8.toNat_inj, toNat_flipped]
    simp
    omega
  have low (x : UInt8) : ~~~ x < 0x80 ↔ 0x80 ≤ x := by
    have : x.toNat < 256 := x.toNat_lt
    rw [UInt8.lt_iff_toNat_lt, UInt8.le_iff_toNat_le, toNat_flipped]
    simp
    omega
  match b with
  | [] => rfl
  | [_] => rfl
  | x :: y :: rest =>
    have high : 0x80 ≤ ~~~ y ↔ y < 0x80 := by
      rw [← not_iff_not, UInt8.not_le, low, UInt8.not_lt]
    show (!(decide (~~~ x = 0) && decide (~~~ y < 0x80))
        && !(decide (~~~ x = 0xff) && decide (0x80 ≤ ~~~ y)))
      = (!(decide (x = 0) && decide (y < 0x80)) && !(decide (x = 0xff) && decide (0x80 ≤ y)))
    simp only [all, none, low, high]
    exact Bool.and_comm _ _

theorem isNegative_complement (h : isNegative b = true) : isNegative (complement b) = false := by
  cases b with
  | nil => cases h
  | cons x rest =>
    have high : 0x80 ≤ x := by simpa [isNegative] using h
    have := UInt8.le_iff_toNat_le.mp high
    have small : ¬ 0x80 ≤ ~~~ x := by
      rw [UInt8.le_iff_toNat_le, toNat_flipped]
      simp at this ⊢
      omega
    simpa [isNegative, complement] using small

theorem signedValue_of_complement (h : isNegative b = true) :
    signedValue b = -(beNat (complement b) : Int) - 1 := by
  have sum : (beNat (complement b) : Int) + beNat b + 1 = 256 ^ b.length := by
    exact_mod_cast beNat_complement b
  rw [signedValue_of_negative h]
  omega

/-- An integer has one shortest form. -/
theorem eq_of_signedValue_eq (shortest : isIntegerContent a = true)
    (shortest' : isIntegerContent b = true) (same : signedValue a = signedValue b) : a = b := by
  have sign : isNegative a = isNegative b := by
    rw [Bool.eq_iff_iff, ← signedValue_neg_iff, ← signedValue_neg_iff, same]
  cases negative : isNegative b with
  | false =>
    rw [signedValue_of_not_negative negative, signedValue_of_not_negative (sign.trans negative)]
      at same
    exact eq_of_beNat_eq shortest shortest' sign (Int.ofNat_inj.mp same)
  | true =>
    rw [signedValue_of_complement negative, signedValue_of_complement (sign.trans negative)] at same
    have flipped : complement a = complement b := by
      apply eq_of_beNat_eq
      · rw [isIntegerContent_complement, shortest]
      · rw [isIntegerContent_complement, shortest']
      · rw [isNegative_complement negative, isNegative_complement (sign.trans negative)]
      · omega
    exact List.map_injective_iff.mpr (fun _ _ => UInt8.not_inj.mp) flipped

/-- Two integers have one magnitude of octets if they are equal, or if one is negative and the other
is that magnitude. -/
theorem beNat_eq_iff (shortest : isIntegerContent a = true)
    (shortest' : isIntegerContent b = true) :
    beNat a = beNat b ↔ signedValue a = signedValue b
      ∨ (signedValue a < 0 ∧ signedValue b = beNat a)
      ∨ (signedValue b < 0 ∧ signedValue a = beNat b) := by
  constructor
  · intro same
    by_cases sign : isNegative a = isNegative b
    · rw [eq_of_beNat_eq shortest shortest' sign same]
      exact Or.inl rfl
    · cases negative : isNegative a with
      | true =>
        have other : isNegative b = false := by simpa [negative] using sign
        rw [signedValue_neg_iff, signedValue_of_not_negative other, same]
        exact Or.inr (Or.inl ⟨negative, rfl⟩)
      | false =>
        have other : isNegative b = true := by simpa [negative] using sign
        rw [signedValue_neg_iff, signedValue_neg_iff, signedValue_of_not_negative negative, same]
        exact Or.inr (Or.inr ⟨other, rfl⟩)
  · -- A value that is a magnitude is that of its own octets.
    have own {c : Bytes} {n : Nat} (h : signedValue c = n) : beNat c = n := by
      have told := beNat_eq_signedValue_iff.mpr (show 0 ≤ signedValue c by omega)
      omega
    rintro (same | ⟨-, same⟩ | ⟨-, same⟩)
    · rw [eq_of_signedValue_eq shortest shortest' same]
    · exact (own same).symm
    · exact own same

namespace Element

/-- Reads an INTEGER of either sign. -/
def int? (e : Element) : Option Int :=
  (e.content? Tag.integer).bind fun b => if isIntegerContent b then some (signedValue b) else none

end Element

end CertAuthority.Der
