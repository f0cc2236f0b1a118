import CertAuthority.Proofs.Certificate.Contents

namespace CertAuthority

namespace TbsCertificate

def decode? (b : Bytes) : Option TbsCertificate := (Der.Element.ofBytes? b).bind ofElement?

theorem decode?_encode {t : TbsCertificate} (h : t.Readable) (fits : Der.fits t.encode = true) :
    decode? t.encode = some t := by
  have small := Der.Element.fits_of_encode fits
  have whole := Der.Element.ofBytes?_encode (e := t.element) ⟨rfl, small⟩
  rw [decode?, encode, whole, Option.bind_some]
  exact ofElement?_element h small

end TbsCertificate

namespace Contents

/-- Reads what the signed part of a certificate says from its bytes. -/
def decode (b : Bytes) : Except Fault Contents := do
  ofTbs (← orMalformed (TbsCertificate.decode? b))

theorem readable_of_decode {b : Bytes} {c : Contents} (h : decode b = .ok c) :
    ∀ e ∈ c.extensions, e.oid.Readable := by
  obtain ⟨t, decoded, h⟩ := bind_eq_ok.mp h
  obtain ⟨e, -, read⟩ := Option.bind_eq_some_iff.mp (orMalformed_eq_ok.mp decoded)
  obtain ⟨publicKey, -, h⟩ := bind_eq_ok.mp h
  obtain ⟨algorithm, -, h⟩ := bind_eq_ok.mp h
  cases Except.ok.inj h
  have readable := TbsCertificate.extensions_readable_of_ofElement? read
  cases extensions : t.extensions with
  | none => simp
  | some es => exact readable es extensions

/-- What was encoded is read back with the whole seconds of its instants if, and only if, the
identifiers of its extensions can be read. -/
theorem decode_encode_iff (c : Contents) (der : Bytes) (encoded : c.encode = .ok der)
    (issuer : ∃ b, Name.decode? b = some c.issuer)
    (subject : ∃ b, Name.decode? b = some c.subject)
    (key : c.publicKey.toSpki >>= PublicKey.ofSpki = .ok c.publicKey) :
    decode der = .ok { c with validity := c.validity.wholeSeconds }
      ↔ ∀ e ∈ c.extensions, e.oid.Readable := by
  have decoded {n : Name} (h : ∃ b, Name.decode? b = some n) : n.Readable := by
    obtain ⟨b, h⟩ := h
    obtain ⟨e, -, read⟩ := Option.bind_eq_some_iff.mp h
    exact Name.readable_of_ofElement? read
  constructor
  · intro h e he
    exact readable_of_decode h e he
  · intro legible
    obtain ⟨t, fields, h⟩ := bind_eq_ok.mp encoded
    obtain ⟨rfl, fits⟩ := withinLimit_eq_ok.mp h
    have readable := toTbs_readable fields ⟨decoded issuer, decoded subject, legible⟩
    rw [decode, TbsCertificate.decode?_encode readable fits]
    exact ofTbs_toTbs fields key

/-- Contents with a key of the factors 5 and 11, a first instant with a fraction and two extensions
of one identifier, of which the second one is critical. -/
def sample (oid : Oid) : Contents where
  serial := 255
  algorithm := .rsaSha256
  issuer := DistinguishedName.toName ⟨["Acme"], "Root"⟩
  validity := ⟨⟨1500000000, 3600⟩, ⟨2524608000 * Duration.perSecond, 0⟩⟩
  subject := DistinguishedName.toName ⟨[], "www.acme.org"⟩
  publicKey := .rsa ⟨55, 3⟩
  extensions := [⟨oid, false, []⟩, ⟨oid, true, [5, 0]⟩]

/-- The bytes of a certificate whose signed fields are other ones than the sample has. -/
def sampleDer (change : TbsCertificate → TbsCertificate) : Except Fault Bytes := do
  let t ← (sample (.ofArcs [1, 2, 3, 4])).toTbs
  return SignedCertificate.encode
    ⟨change t, SignatureAlgorithm.rsaSha256.identifier, .ofOctets []⟩

theorem sample_names (oid : Oid) : (∃ b, Name.decode? b = some (sample oid).issuer)
    ∧ ∃ b, Name.decode? b = some (sample oid).subject := by
  have issuer : Name.decode? (DistinguishedName.toName ⟨["Acme"], "Root"⟩).encode
      = some (DistinguishedName.toName ⟨["Acme"], "Root"⟩) := by decide +kernel
  have subject : Name.decode? (DistinguishedName.toName ⟨[], "www.acme.org"⟩).encode
      = some (DistinguishedName.toName ⟨[], "www.acme.org"⟩) := by decide +kernel
  exact ⟨⟨_, issuer⟩, _, subject⟩

theorem sample_key (oid : Oid) : (sample oid).publicKey.toSpki >>= PublicKey.ofSpki
    = .ok (sample oid).publicKey := by
  show (PublicKey.rsa ⟨55, 3⟩).toSpki >>= PublicKey.ofSpki = .ok (.rsa ⟨55, 3⟩)
  decide +kernel

theorem decode_encode_iff_sample :
    ∃ der, (sample (.ofArcs [1, 2, 3, 4])).encode = .ok der
      ∧ (∃ b, Name.decode? b = some (sample (.ofArcs [1, 2, 3, 4])).issuer)
      ∧ (∃ b, Name.decode? b = some (sample (.ofArcs [1, 2, 3, 4])).subject)
      ∧ (sample (.ofArcs [1, 2, 3, 4])).publicKey.toSpki >>= PublicKey.ofSpki
        = .ok (sample (.ofArcs [1, 2, 3, 4])).publicKey
      ∧ (∀ e ∈ (sample (.ofArcs [1, 2, 3, 4])).extensions, e.oid.Readable)
      ∧ decode der = .ok { sample (.ofArcs [1, 2, 3, 4]) with
        validity := ⟨.ofSeconds 1, .ofSeconds 2524608000⟩ } := by
  have works : (sample (.ofArcs [1, 2, 3, 4])).encode.isOk = true := by decide +kernel
  have legible : ∀ e ∈ (sample (.ofArcs [1, 2, 3, 4])).extensions, e.oid.Readable := by decide
  obtain ⟨der, encoded⟩ := exists_of_isOk works
  obtain ⟨issuer, subject⟩ := sample_names (.ofArcs [1, 2, 3, 4])
  have read := (decode_encode_iff _ der encoded issuer subject (sample_key _)).mpr legible
  exact ⟨der, encoded, issuer, subject, sample_key _, legible, read⟩

/-- An identifier of three arcs in two octets can be written but not read. -/
theorem not_decode_encode_sample :
    ∃ der, (sample (.ofArcs [1, 2, 3])).encode = .ok der
      ∧ (∃ b, Name.decode? b = some (sample (.ofArcs [1, 2, 3])).issuer)
      ∧ (∃ b, Name.decode? b = some (sample (.ofArcs [1, 2, 3])).subject)
      ∧ (sample (.ofArcs [1, 2, 3])).publicKey.toSpki >>= PublicKey.ofSpki
        = .ok (sample (.ofArcs [1, 2, 3])).publicKey
      ∧ decode der = .error .malformed := by
  have works : (sample (.ofArcs [1, 2, 3])).encode.isOk = true := by decide +kernel
  have refused : (sample (.ofArcs [1, 2, 3])).encode >>= decode = .error .malformed := by
    decide +kernel
  obtain ⟨der, encoded⟩ := exists_of_isOk works
  obtain ⟨issuer, subject⟩ := sample_names (.ofArcs [1, 2, 3])
  rw [encoded, ok_bind] at refused
  exact ⟨der, encoded, issuer, subject, sample_key _, refused⟩

end Contents

end CertAuthority
