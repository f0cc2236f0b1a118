import CertAuthority.Der.Oid
import CertAuthority.Der.Primitive
import CertAuthority.Proofs.Der.Element

namespace CertAuthority.Der

theorem beNat_zero_cons (b : Bytes) : beNat (0 :: b) = beNat b := by
  rw [beNat_cons]
  simp

theorem beNat_integerContent (n : Nat) : beNat (integerContent n) = n := by
  unfold integerContent
  split
  next h => rw [← beNat_natBytes n, h]; rfl
  next x rest h =>
    split
    next => rw [← h, beNat_natBytes]
    next => rw [beNat_zero_cons, ← h, beNat_natBytes]

theorem ofIntegerContent?_integerContent (n : Nat) :
    ofIntegerContent? (integerContent n) = some n := by
  rw [ofIntegerContent?, beNat_integerContent, if_pos rfl]

theorem integerContent_of_ofIntegerContent? {b : Bytes} {n : Nat}
    (h : ofIntegerContent? b = some n) : integerContent n = b := by
  unfold ofIntegerContent? at h
  split at h
  next hb =>
    cases Option.some.inj h
    exact hb
  next => simp at h

theorem isIntegerContent_integerContent (n : Nat) : isIntegerContent (integerContent n) = true := by
  unfold integerContent
  split
  next => rfl
  next x rest h =>
    have hx : x ≠ 0 := natBytes_head_ne_zero (by rw [h]; rfl)
    split
    next low =>
      cases rest with
      | nil => rfl
      | cons y rest =>
        have hff : x ≠ 0xff := by rintro rfl; exact absurd low (by decide)
        simp [isIntegerContent, hx, hff]
    next high => simp [isIntegerContent, high]

theorem integerContent_length_le {n m : Nat} (h : n < 256 ^ m) :
    (integerContent n).length ≤ m + 1 := by
  have bound := natBytes_length_le h
  unfold integerContent
  split
  next => simp
  next x rest octets =>
    rw [octets] at bound
    split
    next => omega
    next =>
      rw [List.length_cons]
      omega

/-- Of the first octet of a number only seven bits are free. -/
theorem integerContent_length_le_iff (n m : Nat) :
    (integerContent n).length ≤ m + 1 ↔ n < 128 * 256 ^ m := by
  have positive : 0 < 256 ^ m := Nat.pow_pos (by decide)
  have value := beNat_natBytes n
  have grows {a b : Nat} (h : a ≤ b) : 256 ^ a ≤ 256 ^ b := Nat.pow_le_pow_right (by decide) h
  unfold integerContent
  split
  next empty =>
    rw [empty] at value
    have zero : n = 0 := value.symm
    rw [List.length_singleton]
    omega
  next x rest octets =>
    have filled : x.toNat ≠ 0 := by
      intro zero
      exact natBytes_head_ne_zero (by rw [octets]; rfl) (UInt8.toNat_inj.mp zero)
    have room := beNat_lt rest
    rw [octets, beNat_cons] at value
    have lower : x.toNat * 256 ^ rest.length ≤ n := by omega
    have upper : n < (x.toNat + 1) * 256 ^ rest.length := by
      rw [Nat.succ_mul]
      omega
    split
    next low =>
      have top : x.toNat + 1 ≤ 128 := UInt8.lt_iff_toNat_lt.mp low
      rw [List.length_cons]
      constructor
      · intro short
        calc n < (x.toNat + 1) * 256 ^ rest.length := upper
          _ ≤ 128 * 256 ^ rest.length := Nat.mul_le_mul_right _ top
          _ ≤ 128 * 256 ^ m := Nat.mul_le_mul_left _ (grows (by omega))
      · intro bound
        by_contra long
        have := grows (show m + 1 ≤ rest.length by omega)
        have := Nat.le_mul_of_pos_left (256 ^ rest.length) (Nat.pos_of_ne_zero filled)
        rw [pow_succ] at *
        omega
    next high =>
      have top : 128 ≤ x.toNat := by
        by_contra h
        exact high (UInt8.lt_iff_toNat_lt.mpr (Nat.lt_of_not_le h))
      have octet : x.toNat + 1 ≤ 256 := x.toNat_lt
      rw [List.length_cons, List.length_cons]
      constructor
      · intro short
        have := grows (show rest.length + 1 ≤ m by omega)
        calc n < (x.toNat + 1) * 256 ^ rest.length := upper
          _ ≤ 256 * 256 ^ rest.length := Nat.mul_le_mul_right _ octet
          _ = 256 ^ (rest.length + 1) := by rw [pow_succ, Nat.mul_comm]
          _ ≤ 256 ^ m := grows (by omega)
          _ ≤ 128 * 256 ^ m := Nat.le_mul_of_pos_left _ (by decide)
      · intro bound
        by_contra long
        have : 128 * 256 ^ m ≤ n :=
          calc 128 * 256 ^ m ≤ 128 * 256 ^ rest.length := Nat.mul_le_mul_left _ (grows (by omega))
            _ ≤ x.toNat * 256 ^ rest.length := Nat.mul_le_mul_right _ top
            _ ≤ n := lower
        omega

namespace Element

theorem natural?_integer (n : Nat) : (integer n).natural? = some n :=
  ofIntegerContent?_integerContent n

theorem of_natural? {e : Element} {n : Nat} (h : e.natural? = some n) : e = integer n := by
  obtain ⟨b, hb, hn⟩ := Option.bind_eq_some_iff.mp h
  rw [integer, integerContent_of_ofIntegerContent? hn, of_content? hb]

theorem boolean?_boolean (b : Bool) : (boolean b).boolean? = some b := by cases b <;> rfl

theorem octets?_octets (b : Bytes) : (octets b).octets? = some b := rfl

end Element

namespace BitString

/-- A bit string that is read back: at most seven bits are unused, and none where there is no
octet. -/
def Readable (s : BitString) : Prop := s.unused ≤ 7 ∧ (s.unused = 0 ∨ s.octets ≠ [])

theorem ofContent?_content {s : BitString} (h : s.Readable) : ofContent? s.content = some s :=
  if_pos h

theorem ofElement?_element {s : BitString} (h : s.Readable) : ofElement? s.element = some s :=
  ofContent?_content h

theorem ofOctets_readable (b : Bytes) : (ofOctets b).Readable :=
  ⟨show (0 : UInt8) ≤ 7 by decide, Or.inl rfl⟩

theorem octets?_ofOctets (b : Bytes) : (ofOctets b).octets? = some b := rfl

theorem of_octets? {s : BitString} {b : Bytes} (h : s.octets? = some b) :
    s = ofOctets b := by
  obtain ⟨unused, octets⟩ := s
  rw [octets?] at h
  split at h
  next whole =>
    cases Option.some.inj h
    cases whole
    rfl
  next => cases h

end BitString

theorem utf8Text?_utf8 (s : String) : utf8Text? (utf8 s) = some s := by
  have valid : s.toByteArray.IsValidUTF8 := s.isValidUTF8
  have same : (⟨(utf8 s).toArray⟩ : ByteArray) = s.toByteArray := by simp [utf8]
  rw [utf8Text?, same, String.fromUTF8?, dif_pos valid]
  rfl

/-- An ASCII character is one octet. -/
theorem utf8EncodeChar_ascii {c : Char} (h : c.val.toNat < 128) :
    String.utf8EncodeChar c = [UInt8.ofNat c.val.toNat] := by
  rw [String.utf8EncodeChar.eq_1, if_pos (Nat.le_of_lt_succ h)]

/-- A text of ASCII characters is one octet of ASCII for each. -/
theorem isAscii_utf8 {s : String} (h : ∀ c ∈ s.toList, c ≤ '~') : isAscii (utf8 s) = true := by
  have octets (cs : List Char) (low : ∀ c ∈ cs, c ≤ '~') :
      isAscii (cs.flatMap String.utf8EncodeChar) = true := by
    induction cs with
    | nil => rfl
    | cons c cs ih =>
      obtain ⟨first, later⟩ := List.forall_mem_cons.mp low
      have small : c.val.toNat ≤ 126 := first
      have value : (UInt8.ofNat c.val.toNat).toNat < 128 := by
        rw [toNat_ofNat_mod]
        omega
      rw [List.flatMap_cons, utf8EncodeChar_ascii (by omega), isAscii, List.singleton_append,
        List.all_cons]
      have rest := ih later
      rw [isAscii] at rest
      rw [rest, Bool.and_true]
      exact decide_eq_true (UInt8.lt_iff_toNat_lt.mpr value)
  have same : utf8 s = s.toList.flatMap String.utf8EncodeChar := by
    show s.toByteArray.data.toList = _
    rw [← String.utf8Encode_toList]
    simp [List.utf8Encode]
  rw [same]
  exact octets s.toList h

/-- Octets of ASCII spell a text, and are the octets of that text. -/
theorem utf8Text?_of_isAscii {b : Bytes} (h : isAscii b = true) :
    (utf8Text? b).map utf8 = some b := by
  have chars : b.flatMap (fun x => String.utf8EncodeChar (Char.ofNat x.toNat)) = b := by
    induction b with
    | nil => rfl
    | cons x b ih =>
      rw [isAscii, List.all_cons, Bool.and_eq_true] at h
      have low : x.toNat < 128 := UInt8.lt_iff_toNat_lt.mp (of_decide_eq_true h.1)
      have valid : x.toNat.isValidChar := Or.inl (by omega)
      have value : (Char.ofNat x.toNat).val.toNat = x.toNat := by
        rw [Char.ofNat, dif_pos valid]
        rfl
      have encoded : String.utf8EncodeChar (Char.ofNat x.toNat) = [x] := by
        rw [utf8EncodeChar_ascii (by rw [value]; exact low), value, UInt8.ofNat_toNat]
      rw [List.flatMap_cons, encoded, ih h.2]
      rfl
  have valid : (⟨b.toArray⟩ : ByteArray).IsValidUTF8 := by
    refine ⟨b.map fun x => Char.ofNat x.toNat, ?_⟩
    rw [List.utf8Encode, List.flatMap_map, chars]
    exact ByteArray.ext List.data_toByteArray.symm
  rw [utf8Text?, String.fromUTF8?, dif_pos valid]
  rfl

end CertAuthority.Der

namespace CertAuthority.Oid

/-- An identifier that is read back. Those of two octets and those with overlong arcs are not. -/
def Readable (o : Oid) : Prop := ofContent? o.content = some o

instance (o : Oid) : Decidable o.Readable := inferInstanceAs (Decidable (_ = _))

theorem content_of_ofContent? {b : Bytes} {o : Oid} (h : ofContent? b = some o) :
    o.content = b := by
  unfold ofContent? at h
  split at h
  next =>
    unfold ofSound? at h
    split at h
    next =>
      cases Option.some.inj h
      rfl
    next => simp at h
  next => simp at h

theorem readable_of_ofContent? {b : Bytes} {o : Oid} (h : ofContent? b = some o) : o.Readable := by
  rw [Readable, content_of_ofContent? h, h]

theorem ofElement?_element {o : Oid} (h : o.Readable) : ofElement? o.element = some o := h

theorem element_of_ofElement? {e : Der.Element} {o : Oid} (h : ofElement? e = some o) :
    o.element = e ∧ o.Readable := by
  obtain ⟨b, hb, ho⟩ := Option.bind_eq_some_iff.mp h
  exact ⟨by rw [element, content_of_ofContent? ho, Der.Element.of_content? hb],
    readable_of_ofContent? ho⟩

end CertAuthority.Oid
