import CertAuthority.Proofs.Certificate.Contents
import CertAuthority.Proofs.Der.Signed

namespace CertAuthority

namespace Der

theorem integerContent_eq (n : Nat) : integerContent n
    = if n = 0 then [0] else if isNegative (natBytes n) then 0 :: natBytes n else natBytes n := by
  by_cases zero : n = 0
  · rw [if_pos zero, zero, integerContent, natBytes_zero]
  · rw [if_neg zero, integerContent]
    cases octets : natBytes n with
    | nil => exact absurd octets (natBytes_ne_nil (Nat.pos_of_ne_zero zero))
    | cons x rest =>
      by_cases high : 0x80 ≤ x
      · simp [isNegative, high, UInt8.not_lt.mpr high]
      · have low : x < 0x80 := UInt8.not_le.mp high
        simp [isNegative, high, low]

theorem signedValue_integerContent (n : Nat) : signedValue (integerContent n) = n := by
  have positive : isNegative (integerContent n) = false := by
    rw [integerContent_eq]
    split
    next => rfl
    next =>
      split
      next => rfl
      next high => simpa using high
  rw [signedValue_of_not_negative positive, beNat_integerContent]

/-- No octets of a number are fewer than those that it is written with. -/
theorem integerContent_length_le_of_signedValue {b : Bytes} {n : Nat} (filled : b ≠ [])
    (h : signedValue b = n) : (integerContent n).length ≤ b.length := by
  obtain ⟨x, rest, rfl⟩ := List.exists_cons_of_ne_nil filled
  have positive : isNegative (x :: rest) = false := by
    by_contra sign
    have := signedValue_neg_iff.mpr (Bool.eq_true_of_not_eq_false sign)
    omega
  have top : x.toNat + 1 ≤ 128 := by
    have low : x < 0x80 := by simpa [isNegative] using positive
    exact UInt8.lt_iff_toNat_lt.mp low
  have value : beNat (x :: rest) = n := by
    rw [signedValue_of_not_negative positive] at h
    exact Int.ofNat_inj.mp h
  rw [List.length_cons, integerContent_length_le_iff, ← value, beNat_cons]
  calc x.toNat * 256 ^ rest.length + beNat rest
      < (x.toNat + 1) * 256 ^ rest.length := by
        rw [Nat.succ_mul]
        exact Nat.add_lt_add_left (beNat_lt rest) _
    _ ≤ 128 * 256 ^ rest.length := Nat.mul_le_mul_right _ top

end Der

theorem beNat_replicate_zero_append (k : Nat) (b : Bytes) :
    beNat (List.replicate k 0 ++ b) = beNat b := by
  induction k with
  | zero => rfl
  | succ k ih => rw [List.replicate_succ, List.cons_append, Der.beNat_zero_cons, ih]

namespace SerialNumber

/-- Octets that are the INTEGER of a serial number: of its value, the fewest, and read back from
their encoding as that number. -/
structure IsField (n : SerialNumber) (content : Bytes) : Prop where
  value : Der.signedValue content = n
  fewest : ∀ b, b ≠ [] → Der.signedValue b = n → content.length ≤ b.length
  octets : content = if n = 0 then [0]
    else if Der.isNegative (natBytes n) then 0 :: natBytes n else natBytes n
  decoded : (Der.Element.ofBytes? (Der.Element.encode ⟨Der.Tag.integer, content⟩)).bind content?
    = some content
  restored : ofContent content = n

theorem content?_encode {content : Bytes} (shortest : Der.isIntegerContent content = true)
    (short : content.length ≤ maxReadSize) :
    (Der.Element.ofBytes? (Der.Element.encode ⟨Der.Tag.integer, content⟩)).bind content?
      = some content := by
  have fits : content.length ≤ Der.lengthLimit := short.trans (by decide)
  have readable : Der.Element.Readable ⟨Der.Tag.integer, content⟩ := ⟨rfl, fits⟩
  rw [Der.Element.ofBytes?_encode readable, Option.bind_some, content?, Der.Element.content?_of_tag]
  exact if_pos ⟨shortest, short⟩

theorem isField_of_toContent {n : SerialNumber} {content : Bytes} (h : n.toContent = .ok content) :
    n.IsField content := by
  obtain ⟨rfl, short⟩ := toContent_eq_ok h
  exact {
    value := Der.signedValue_integerContent n
    fewest := fun _ => Der.integerContent_length_le_of_signedValue
    octets := Der.integerContent_eq n
    decoded := content?_encode (Der.isIntegerContent_integerContent n)
      (short.trans (by decide))
    restored := Der.beNat_integerContent n }

theorem ofContent_toBytes (n : SerialNumber) : ofContent n.toBytes = n := by
  rw [toBytes]
  split
  next zero => rw [zero]; rfl
  next => exact beNat_natBytes n

/-- Serial numbers and their octets: which numbers have an INTEGER and what that is, and that octets
of a magnitude are read back, whatever zeros are in front of them. -/
structure ContentIffLt : Prop where
  written : ∀ n : SerialNumber, n < 2 ^ 159 ↔ ∃ content, n.toContent = .ok content
  refused : ∀ n : SerialNumber, 2 ^ 159 ≤ n ↔ n.toContent = .error (.encoding (.serial n))
  form : ∀ (n : SerialNumber) content, n.toContent = .ok content → n.IsField content
  zeros : ∀ (k : Nat) (b : Bytes), ofContent (List.replicate k 0 ++ b) = ofContent b
  magnitude : ∀ n : SerialNumber, ofContent n.toBytes = n

/-- A serial number of up to 159 bits is written as its shortest INTEGER and read back, and a
greater one is refused. -/
theorem content_iff_lt : ContentIffLt where
  written n := by
    rw [toContent_eq]
    split
    next small => exact iff_of_true small ⟨_, rfl⟩
    next large => exact iff_of_false large (by simp)
  refused n := by
    rw [toContent_eq, ← not_lt]
    split
    next small => exact iff_of_false (not_not.mpr small) (by simp)
    next large => exact iff_of_true large rfl
  form _ _ := isField_of_toContent
  zeros := beNat_replicate_zero_append
  magnitude := ofContent_toBytes

/-- The last number that fits, and the first one with a zero octet in front. -/
example : (2 ^ 159 - 1 : SerialNumber).toContent = .ok (0x7f :: List.replicate 19 0xff)
    ∧ (128 : SerialNumber).toContent = .ok [0x00, 0x80] := by decide +kernel

end SerialNumber

end CertAuthority
