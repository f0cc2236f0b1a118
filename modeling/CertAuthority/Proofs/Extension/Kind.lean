import CertAuthority.Proofs.Extension.Value

namespace CertAuthority

/-- The kinds of extension that are understood. -/
inductive ExtensionKind
  | subjectAltName
  | basicConstraints
  | keyUsage
  | extendedKeyUsage
  | subjectKeyIdentifier
  | authorityKeyIdentifier
deriving DecidableEq, Repr

namespace ExtensionKind

/-- The values of a kind. -/
@[reducible] def Value : ExtensionKind → Type
  | subjectAltName => SubjectAltName
  | basicConstraints => BasicConstraints
  | keyUsage => KeyUsage
  | extendedKeyUsage => ExtendedKeyUsage
  | subjectKeyIdentifier => SubjectKeyIdentifier
  | authorityKeyIdentifier => AuthorityKeyIdentifier

instance : (k : ExtensionKind) → ExtensionValue k.Value
  | subjectAltName => inferInstanceAs (ExtensionValue SubjectAltName)
  | basicConstraints => inferInstanceAs (ExtensionValue BasicConstraints)
  | keyUsage => inferInstanceAs (ExtensionValue KeyUsage)
  | extendedKeyUsage => inferInstanceAs (ExtensionValue ExtendedKeyUsage)
  | subjectKeyIdentifier => inferInstanceAs (ExtensionValue SubjectKeyIdentifier)
  | authorityKeyIdentifier => inferInstanceAs (ExtensionValue AuthorityKeyIdentifier)

instance : (k : ExtensionKind) → LawfulExtensionValue k.Value
  | subjectAltName => inferInstanceAs (LawfulExtensionValue SubjectAltName)
  | basicConstraints => inferInstanceAs (LawfulExtensionValue BasicConstraints)
  | keyUsage => inferInstanceAs (LawfulExtensionValue KeyUsage)
  | extendedKeyUsage => inferInstanceAs (LawfulExtensionValue ExtendedKeyUsage)
  | subjectKeyIdentifier => inferInstanceAs (LawfulExtensionValue SubjectKeyIdentifier)
  | authorityKeyIdentifier => inferInstanceAs (LawfulExtensionValue AuthorityKeyIdentifier)

/-- The element of a value, whether its names are ASCII or not. -/
def draft : (k : ExtensionKind) → k.Value → Der.Element
  | subjectAltName, s => s.draft
  | basicConstraints, c => c.element
  | keyUsage, u => u.toBitString.element
  | extendedKeyUsage, u => u.element
  | subjectKeyIdentifier, i => .octets i.octets
  | authorityKeyIdentifier, i => i.element

/-- The name that keeps a value from being written, if there is one. Only among alternative names
there can be. -/
def misfit? : (k : ExtensionKind) → k.Value → Option String
  | subjectAltName, s => s.misfit?
  | _, _ => none

/-- What a value has to do with its bytes: they are read back as the value and tolerate nothing
behind them, and there are such bytes within the limit unless a name is not ASCII. -/
structure RoundTrip (k : ExtensionKind) (v : k.Value) : Prop where
  decode : ∀ b, ExtensionValue.encode v = .ok b → ExtensionValue.decode k.Value b = .ok v
  more : ∀ b rest, ExtensionValue.encode v = .ok b → rest ≠ [] →
    ExtensionValue.decode k.Value (b ++ rest) = .error .malformed
  encode : Der.fits (k.draft v).encode = true → ExtensionValue.encode v
    = match k.misfit? v with
      | none => .ok (k.draft v).encode
      | some name => .error (.input (.dnsName name))

theorem element_eq (k : ExtensionKind) (v : k.Value) : ExtensionValue.element v
    = match k.misfit? v with
      | none => .ok (k.draft v)
      | some name => .error (.input (.dnsName name)) := by
  cases k with
  | subjectAltName => exact SubjectAltName.element_eq v
  | basicConstraints => rfl
  | keyUsage => rfl
  | extendedKeyUsage => rfl
  | subjectKeyIdentifier => rfl
  | authorityKeyIdentifier => rfl

theorem encode_eq {k : ExtensionKind} {v : k.Value} (fits : Der.fits (k.draft v).encode = true) :
    ExtensionValue.encode v
      = match k.misfit? v with
        | none => .ok (k.draft v).encode
        | some name => .error (.input (.dnsName name)) := by
  rw [ExtensionValue.encode, element_eq]
  cases k.misfit? v with
  | none => exact withinLimit_eq_ok.mpr ⟨rfl, fits⟩
  | some name => rfl

/-- Whatever the kind, a value survives the way through its bytes. -/
theorem roundTrip (k : ExtensionKind) (v : k.Value) : k.RoundTrip v where
  decode _ written := ExtensionValue.decode_encode written
  more _ _ written more := ExtensionValue.decode_encode_append written more
  encode := encode_eq

/-- The empty use of a key survives, and of three names the first one that is not ASCII is told. -/
theorem roundTrip_sample :
    (∃ b, ExtensionValue.encode KeyUsage.none = .ok b
      ∧ ExtensionValue.decode KeyUsage b = .ok KeyUsage.none
      ∧ ExtensionValue.decode KeyUsage (b ++ [0]) = .error .malformed)
    ∧ ExtensionValue.encode (SubjectAltName.mk ["a", "é", "ü"])
      = .error (.input (.dnsName "é")) := by
  have use := roundTrip keyUsage KeyUsage.none
  have written := use.encode (by decide +kernel)
  have names := (roundTrip subjectAltName ⟨["a", "é", "ü"]⟩).encode (by decide +kernel)
  have first : misfit? subjectAltName ⟨["a", "é", "ü"]⟩ = some "é" := by decide +kernel
  rw [first] at names
  exact ⟨⟨_, written, use.decode _ written, use.more _ [0] written (by decide)⟩, names⟩

end ExtensionKind

end CertAuthority
