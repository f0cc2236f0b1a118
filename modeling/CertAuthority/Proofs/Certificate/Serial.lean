import CertAuthority.Proofs.Certificate.Decode
import CertAuthority.Proofs.Der.Signed
import CertAuthority.Proofs.Store.Files

namespace CertAuthority

namespace SignedCertificate

def serialField? (der : Bytes) : Option Der.Element := field? der 0

end SignedCertificate

namespace Certificate

/-- The element of the serial number in the bytes of a certificate, the integer in it, and the
serial number that the certificate tells. -/
structure SerialReading (c : Certificate) (f : Der.Element) (x : Int) : Prop where
  field : SignedCertificate.serialField? c.der = some f
  signed : f.encode <:+: c.der
  int : f.int? = some x
  told : (c.serial : Int) = if x < 0 then x + 256 ^ f.content.length else x

theorem exists_serialReading (c : Certificate) :
    ∃ f, c.SerialReading f (Der.signedValue f.content)
      ∧ Der.isIntegerContent f.content = true ∧ c.serial = beNat f.content := by
  obtain ⟨decoded, contents, -⟩ := c.reading_spec
  obtain ⟨fields, found, readFrom⟩ := SignedCertificate.readFrom_of_decode? decoded
  obtain ⟨f, place, read⟩ := Option.bind_eq_some_iff.mp readFrom.serial
  have field : SignedCertificate.serialField? c.der = some f := by
    rw [SignedCertificate.serialField?, SignedCertificate.field?, found, Option.bind_some, place]
  have told : c.serial = beNat c.signed.tbs.serial := (Contents.of_ofTbs contents).1
  have signed := (SignedCertificate.readable_of_field? field).2
  unfold SerialNumber.content? at read
  split at read
  next b octets =>
    obtain ⟨⟨shortest, -⟩, same⟩ := Option.ite_none_right_eq_some.mp read
    cases Option.some.inj same
    cases Der.Element.of_content? octets
    have int : Der.Element.int? ⟨Der.Tag.integer, c.signed.tbs.serial⟩
        = some (Der.signedValue c.signed.tbs.serial) := by
      rw [Der.Element.int?, octets, Option.bind_some, if_pos shortest]
    refine ⟨_, ⟨field, signed, int, ?_⟩, shortest, told⟩
    rw [told]
    exact Der.beNat_eq_ite _
  next => cases read

/-- What two certificates tell, given the integers in their bytes. -/
structure SerialEqIffInteger (c d : Certificate) (x y : Int) : Prop where
  own : (c.serial : Int) = x ↔ 0 ≤ x
  equal : c.serial = d.serial ↔ x = y ∨ (x < 0 ∧ y = c.serial) ∨ (y < 0 ∧ x = d.serial)
  place : Store.Files.path .certificate (Numeral.decimal c.serial)
    = Store.Files.path .certificate (Numeral.decimal d.serial) ↔ c.serial = d.serial

/-- A certificate tells the integer in its bytes exactly if that is not negative. Two certificates
tell the same, and have one place among the records, if their integers are equal, or if one is
negative and the other is what its octets spell as a magnitude. -/
theorem serial_eq_iff_integer (c d : Certificate) :
    ∃ f g x y, c.SerialReading f x ∧ d.SerialReading g y ∧ SerialEqIffInteger c d x y := by
  obtain ⟨f, own, shortest, told⟩ := c.exists_serialReading
  obtain ⟨g, own', shortest', told'⟩ := d.exists_serialReading
  refine ⟨f, g, _, _, own, own', ?_, ?_, ?_⟩
  · rw [told]
    exact Der.beNat_eq_signedValue_iff
  · rw [told, told']
    exact Der.beNat_eq_iff shortest shortest'
  · constructor
    · intro same
      have name : RecordName.certificate c.serial = .certificate d.serial :=
        RecordName.eq_of_path same
      exact RecordName.certificate.inj name
    · intro same
      rw [same]

/-- What the INTEGER in the bytes of a certificate is, and what the certificate tells, given the
content octets of its serial number. -/
def sampleReading (serial : Bytes) : Except Fault (Option Int × SerialNumber) := do
  let der ← Contents.sampleDer fun t => { t with serial }
  let reading ← CertificateReading.ofDer der
  return ((SignedCertificate.serialField? der).bind (·.int?), reading.contents.serial)

theorem exists_of_sampleReading {serial : Bytes} {x : Int} {n : SerialNumber}
    (h : sampleReading serial = .ok (some x, n)) :
    ∃ c : Certificate, (SignedCertificate.serialField? c.der).bind (·.int?) = some x
      ∧ c.serial = n := by
  obtain ⟨der, -, h⟩ := bind_eq_ok.mp h
  obtain ⟨reading, read, h⟩ := bind_eq_ok.mp h
  obtain ⟨int, told⟩ := Prod.mk.inj (Except.ok.inj h)
  exact ⟨⟨der, reading, read⟩, int, told⟩

/-- The serial numbers -1 and 255 of two certificates are both told as 255. -/
theorem serial_eq_sample :
    ∃ c d : Certificate, (SignedCertificate.serialField? c.der).bind (·.int?) = some (-1)
      ∧ (SignedCertificate.serialField? d.der).bind (·.int?) = some 255
      ∧ c.serial = 255 ∧ d.serial = 255 := by
  obtain ⟨c, int, told⟩ := @exists_of_sampleReading [0xff] (-1) 255 (by decide +kernel)
  obtain ⟨d, int', told'⟩ := @exists_of_sampleReading [0x00, 0xff] 255 255 (by decide +kernel)
  exact ⟨c, d, int, int', told, told'⟩

end Certificate

end CertAuthority
