import CertAuthority.Certificate.Tbs
import CertAuthority.Proofs.Calendar
import CertAuthority.Proofs.Extension.Listing
import CertAuthority.Proofs.Key
import CertAuthority.Proofs.Name

namespace CertAuthority

namespace Der

/-- A context-specific element with a number. -/
structure Element.Numbered (number : UInt8) (e : Element) : Prop where
  known : Tag.isKnown e.tag = true
  context : Tag.isContext e.tag = true
  number_eq : Tag.number e.tag = number

/-- An optional field is found in front of fields with greater numbers. -/
theorem takeContext_optional {number : UInt8} {field : Option Element} {rest : List Element}
    (own : ∀ e ∈ field, e.Numbered number)
    (later : ∀ e ∈ rest, Tag.isContext e.tag = true → number < Tag.number e.tag) :
    takeContext number (field.toList ++ rest) = (field, rest) := by
  cases field with
  | some e => exact takeContext_same (own e rfl).context (own e rfl).number_eq
  | none =>
    cases rest with
    | nil => rfl
    | cons e rest => exact takeContext_other (later e (by simp))

/-- Taking a field adds none. -/
theorem mem_of_takeContext {number : UInt8} {es : List Element} {e : Element}
    (h : e ∈ (takeContext number es).2) : e ∈ es := by
  induction es with
  | nil => exact h
  | cons x es ih =>
    rw [takeContext] at h
    split at h
    next =>
      split at h
      next => exact List.mem_cons_of_mem x h
      next =>
        split at h
        next => exact List.mem_cons_of_mem x (ih h)
        next => exact h
    next => exact h

end Der

namespace Version

/-- The field of a version, if it has one. -/
def tagged (v : Version) : Option Der.Element :=
  if v = v1 then none else some (.explicit 0 (.integer v.number))

theorem field_eq (v : Version) : v.field = v.tagged.toList := by cases v <;> rfl

theorem ofNumber?_number (v : Version) : ofNumber? v.number = some v := by cases v <;> rfl

theorem tagged_numbered (v : Version) : ∀ e ∈ v.tagged, e.Numbered 0 := by
  have tag : Der.Tag.isKnown (Der.Tag.contextConstructed 0) = true
      ∧ Der.Tag.isContext (Der.Tag.contextConstructed 0) = true
      ∧ Der.Tag.number (Der.Tag.contextConstructed 0) = 0 := by decide
  intro e he
  unfold tagged at he
  split at he
  next => cases he
  next =>
    cases Option.some.inj he
    exact ⟨tag.1, tag.2.1, tag.2.2⟩

theorem ofField?_tagged {v : Version} (fits : ∀ e ∈ v.tagged, e.Fits) :
    ofField? v.tagged = some v := by
  unfold tagged at fits ⊢
  split
  next h =>
    rw [h]
    rfl
  next h =>
    have limit := fits (.explicit 0 (.integer v.number)) (by rw [if_neg h]; rfl)
    have only : (Der.Element.explicit 0 (.integer v.number)).only? = some (.integer v.number) :=
      Der.Element.only?_explicit (by decide) ⟨rfl, Der.Element.fits_of_explicit limit⟩
    rw [ofField?, only, Option.bind_eq_bind, Option.bind_some, Der.Element.natural?_integer,
      Option.bind_eq_bind, Option.bind_some, ofNumber?_number]

end Version

namespace TbsCertificate

/-- Signed fields that are read back: each of them is, in the form in which it is written. -/
structure Readable (t : TbsCertificate) : Prop where
  serial : Der.isIntegerContent t.serial = true ∧ t.serial.length ≤ SerialNumber.maxReadSize
  algorithm : t.algorithm.Readable
  issuer : t.issuer.Readable
  notBefore : t.notBefore.isSound = true
  notAfter : t.notAfter.isSound = true
  subject : t.subject.Readable
  publicKeyInfo : t.publicKeyInfo.Readable
  issuerUniqueId : ∀ id ∈ t.issuerUniqueId, id.Readable
  subjectUniqueId : ∀ id ∈ t.subjectUniqueId, id.Readable
  extensions : ∀ es ∈ t.extensions, ∀ e ∈ es, e.Readable

theorem validity?_validityElement {t : TbsCertificate} (h : t.Readable)
    (fits : t.validityElement.Fits) :
    validity? t.validityElement = some (t.notBefore, t.notAfter) := by
  have parts : t.validityElement.sequence? = some [t.notBefore.element, t.notAfter.element] := by
    apply Der.Element.sequence?_sequence _ fits
    intro x hx
    rcases List.mem_cons.mp hx with rfl | hx
    · exact t.notBefore.element_known
    · cases List.mem_singleton.mp hx
      exact t.notAfter.element_known
  have first := Time.ofElement?_element h.notBefore
  have last := Time.ofElement?_element h.notAfter
  rw [validity?, parts]
  simp [first, last]

def required (t : TbsCertificate) : List Der.Element :=
  [⟨Der.Tag.integer, t.serial⟩, t.algorithm.element, t.issuer.element, t.validityElement,
    t.subject.element, t.publicKeyInfo.element]

def extensionsField (es : List Extension) : Der.Element := .explicit 3 (Extension.elements es)

theorem extensionsField_numbered (es : List Extension) : (extensionsField es).Numbered 3 := by
  have tag : Der.Tag.isKnown (Der.Tag.contextConstructed 3) = true
      ∧ Der.Tag.isContext (Der.Tag.contextConstructed 3) = true
      ∧ Der.Tag.number (Der.Tag.contextConstructed 3) = 3 := by decide
  exact ⟨tag.1, tag.2.1, tag.2.2⟩

theorem uniqueField_numbered (id : Der.BitString) :
    (uniqueField 1 id).Numbered 1 ∧ (uniqueField 2 id).Numbered 2 := by
  have one : Der.Tag.isKnown (Der.Tag.context 1) = true
      ∧ Der.Tag.isContext (Der.Tag.context 1) = true
      ∧ Der.Tag.number (Der.Tag.context 1) = 1 := by decide
  have two : Der.Tag.isKnown (Der.Tag.context 2) = true
      ∧ Der.Tag.isContext (Der.Tag.context 2) = true
      ∧ Der.Tag.number (Der.Tag.context 2) = 2 := by decide
  exact ⟨⟨one.1, one.2.1, one.2.2⟩, ⟨two.1, two.2.1, two.2.2⟩⟩

def lastFields (t : TbsCertificate) : List Der.Element := (t.extensions.map extensionsField).toList

def subjectFields (t : TbsCertificate) : List Der.Element :=
  (t.subjectUniqueId.map (uniqueField 2)).toList ++ t.lastFields

def issuerFields (t : TbsCertificate) : List Der.Element :=
  (t.issuerUniqueId.map (uniqueField 1)).toList ++ t.subjectFields

def fields (t : TbsCertificate) : List Der.Element :=
  t.version.tagged.toList ++ (t.required ++ t.issuerFields)

theorem element_eq (t : TbsCertificate) : t.element = .sequence t.fields := by
  have optional {α β : Type} (f : α → β) (o : Option α) : o.toList.map f = (o.map f).toList := by
    cases o <;> rfl
  rw [element, Version.field_eq, optional, optional, optional, List.append_assoc, List.append_assoc,
    List.append_assoc]
  rfl

theorem extensionsField_mem {t : TbsCertificate} {es : List Extension}
    (h : t.extensions = some es) : extensionsField es ∈ t.fields := by
  have last : extensionsField es ∈ t.lastFields := by simp [lastFields, h]
  exact List.mem_append_right _ (List.mem_append_right _ (List.mem_append_right _
    (List.mem_append_right _ last)))

theorem lastFields_numbered {t : TbsCertificate} {e : Der.Element} (h : e ∈ t.lastFields) :
    e.Numbered 3 := by
  obtain ⟨es, -, rfl⟩ := Option.map_eq_some_iff.mp (Option.mem_toList.mp h)
  exact extensionsField_numbered es

theorem subjectFields_numbered {t : TbsCertificate} {e : Der.Element} (h : e ∈ t.subjectFields) :
    e.Numbered 2 ∨ e.Numbered 3 := by
  rcases List.mem_append.mp h with h | h
  · obtain ⟨id, -, rfl⟩ := Option.map_eq_some_iff.mp (Option.mem_toList.mp h)
    exact Or.inl (uniqueField_numbered id).2
  · exact Or.inr (lastFields_numbered h)

theorem issuerFields_numbered {t : TbsCertificate} {e : Der.Element} (h : e ∈ t.issuerFields) :
    e.Numbered 1 ∨ e.Numbered 2 ∨ e.Numbered 3 := by
  rcases List.mem_append.mp h with h | h
  · obtain ⟨id, -, rfl⟩ := Option.map_eq_some_iff.mp (Option.mem_toList.mp h)
    exact Or.inl (uniqueField_numbered id).1
  · exact Or.inr (subjectFields_numbered h)

theorem required_known {t : TbsCertificate} {e : Der.Element} (h : e ∈ t.required) :
    Der.Tag.isKnown e.tag = true ∧ ¬ Der.Tag.isContext e.tag = true := by
  have integer : Der.Tag.isKnown Der.Tag.integer = true
      ∧ ¬ Der.Tag.isContext Der.Tag.integer = true := by
    decide
  have sequence : Der.Tag.isKnown Der.Tag.sequence = true
      ∧ ¬ Der.Tag.isContext Der.Tag.sequence = true := by decide
  simp only [required, List.mem_cons, List.not_mem_nil, or_false] at h
  rcases h with rfl | rfl | rfl | rfl | rfl | rfl
  · exact integer
  · exact sequence
  · exact sequence
  · exact sequence
  · exact sequence
  · exact sequence

theorem fields_known {t : TbsCertificate} {e : Der.Element} (h : e ∈ t.fields) :
    Der.Tag.isKnown e.tag = true := by
  rcases List.mem_append.mp h with h | h
  · exact (t.version.tagged_numbered e (Option.mem_toList.mp h)).known
  rcases List.mem_append.mp h with h | h
  · exact (required_known h).1
  rcases issuerFields_numbered h with h | h | h
  · exact h.known
  · exact h.known
  · exact h.known

theorem takeVersion (t : TbsCertificate) :
    Der.takeContext 0 t.fields = (t.version.tagged, t.required ++ t.issuerFields) := by
  apply Der.takeContext_optional t.version.tagged_numbered
  -- What stands behind is of another class or has a greater number.
  intro e he context
  rcases List.mem_append.mp he with he | he
  · exact absurd context (required_known he).2
  rcases issuerFields_numbered he with h | h | h
  · rw [h.number_eq]; decide
  · rw [h.number_eq]; decide
  · rw [h.number_eq]; decide

theorem takeIssuerId (t : TbsCertificate) :
    Der.takeContext 1 t.issuerFields = (t.issuerUniqueId.map (uniqueField 1), t.subjectFields) := by
  apply Der.takeContext_optional
  · intro e he
    obtain ⟨id, -, rfl⟩ := Option.map_eq_some_iff.mp he
    exact (uniqueField_numbered id).1
  · intro e he _
    rcases subjectFields_numbered he with h | h
    · rw [h.number_eq]; decide
    · rw [h.number_eq]; decide

theorem takeSubjectId (t : TbsCertificate) :
    Der.takeContext 2 t.subjectFields = (t.subjectUniqueId.map (uniqueField 2), t.lastFields) := by
  apply Der.takeContext_optional
  · intro e he
    obtain ⟨id, -, rfl⟩ := Option.map_eq_some_iff.mp he
    exact (uniqueField_numbered id).2
  · intro e he _
    rw [(lastFields_numbered he).number_eq]
    decide

theorem takeExtensions (t : TbsCertificate) :
    Der.takeContext 3 t.lastFields = (t.extensions.map extensionsField, []) := by
  have fields : t.lastFields = (t.extensions.map extensionsField).toList ++ [] := by
    rw [List.append_nil, lastFields]
  rw [fields]
  apply Der.takeContext_optional
  · intro e he
    obtain ⟨es, -, rfl⟩ := Option.map_eq_some_iff.mp he
    exact extensionsField_numbered es
  · simp

theorem uniqueId?_uniqueField {number : UInt8} {id : Der.BitString} (h : id.Readable) :
    uniqueId? number (uniqueField number id) = some id := by
  rw [uniqueId?, uniqueField, Der.Element.content?_of_tag, Option.bind_some]
  exact Der.BitString.ofContent?_content h

theorem mapM_of_inverse {α β : Type} (write : α → β) (read : β → Option α) {value : Option α}
    (h : ∀ a ∈ value, read (write a) = some a) : (value.map write).mapM read = some value := by
  cases value with
  | none => rfl
  | some a => simp [h a rfl]

theorem ofElements?_extensionsField {es : List Extension} (h : ∀ e ∈ es, e.Readable)
    (fits : (extensionsField es).Fits) :
    (extensionsField es).only?.bind Extension.ofElements? = some es := by
  have inner := Der.Element.fits_of_explicit fits
  have only : (extensionsField es).only? = some (Extension.elements es) :=
    Der.Element.only?_explicit (by decide) ⟨rfl, inner⟩
  rw [only, Option.bind_some]
  exact Extension.ofElements?_elements h inner

theorem content?_serial {b : Bytes}
    (h : Der.isIntegerContent b = true ∧ b.length ≤ SerialNumber.maxReadSize) :
    SerialNumber.content? ⟨Der.Tag.integer, b⟩ = some b := by
  rw [SerialNumber.content?, Der.Element.content?_of_tag]
  exact if_pos h

theorem ofElement?_element {t : TbsCertificate} (h : t.Readable) (fits : t.element.Fits) :
    ofElement? t.element = some t := by
  rw [element_eq] at fits ⊢
  have parts := Der.Element.sequence?_sequence (fun e => fields_known (t := t)) fits
  have small {e : Der.Element} (he : e ∈ t.fields) : e.Fits :=
    Der.Element.fits_of_mem_sequence fits he
  have required {e : Der.Element} (he : e ∈ t.required) : e.Fits :=
    small (List.mem_append_right _ (List.mem_append_left _ he))
  have version := Version.ofField?_tagged (v := t.version) fun e he =>
    small (List.mem_append_left _ (Option.mem_toList.mpr he))
  have serial := content?_serial h.serial
  have algorithm := AlgorithmIdentifier.ofElement?_element h.algorithm
    (required (by simp [TbsCertificate.required]))
  have issuer := Name.ofElement?_element h.issuer (required (by simp [TbsCertificate.required]))
  have validity := validity?_validityElement h (required (by simp [TbsCertificate.required]))
  have subject := Name.ofElement?_element h.subject (required (by simp [TbsCertificate.required]))
  have key := SubjectPublicKeyInfo.ofElement?_element h.publicKeyInfo
    (required (by simp [TbsCertificate.required]))
  have issuerId := mapM_of_inverse (uniqueField 1) (uniqueId? 1) fun id hid =>
    uniqueId?_uniqueField (h.issuerUniqueId id hid)
  have subjectId := mapM_of_inverse (uniqueField 2) (uniqueId? 2) fun id hid =>
    uniqueId?_uniqueField (h.subjectUniqueId id hid)
  have extensions := mapM_of_inverse extensionsField (·.only?.bind Extension.ofElements?)
    fun es hes =>
      ofElements?_extensionsField (h.extensions es hes) (small (extensionsField_mem hes))
  rw [ofElement?, parts, Option.bind_eq_bind, Option.bind_some, takeVersion]
  simp only [TbsCertificate.required, List.cons_append, List.nil_append, takeIssuerId,
    takeSubjectId, takeExtensions, Option.bind_eq_bind, validity, version, serial, algorithm,
    issuer, subject, key, issuerId, subjectId, extensions, Option.bind_some, if_true]

/-- The fields in the element of signed fields, without the version. -/
def fieldsIn? (e : Der.Element) : Option (List Der.Element) :=
  e.sequence?.map fun fields => (Der.takeContext 0 fields).2

theorem fieldsIn?_element {t : TbsCertificate} (fits : t.element.Fits) :
    fieldsIn? t.element = some (t.required ++ t.issuerFields) := by
  rw [element_eq] at fits ⊢
  have parts := Der.Element.sequence?_sequence (fun e => fields_known (t := t)) fits
  rw [fieldsIn?, parts, Option.map_some, takeVersion]

theorem readable_of_fieldsIn? {e : Der.Element} {fields : List Der.Element}
    (h : fieldsIn? e = some fields) :
    ∀ field ∈ fields, field.Readable ∧ field.encode <:+: e.encode := by
  obtain ⟨all, parts, rfl⟩ := Option.map_eq_some_iff.mp h
  obtain ⟨rfl, readable⟩ := Der.Element.of_sequence? parts
  intro field mem
  have mem' := Der.mem_of_takeContext mem
  exact ⟨readable field mem', Der.Element.infix_of_mem_sequence mem'⟩

/-- Signed fields that were read, each from the field in its place behind the version. -/
structure ReadFrom (fields : List Der.Element) (t : TbsCertificate) : Prop where
  serial : fields[0]?.bind SerialNumber.content? = some t.serial
  algorithm : fields[1]?.bind AlgorithmIdentifier.ofElement? = some t.algorithm
  subject : fields[4]?.bind Name.ofElement? = some t.subject
  publicKeyInfo : fields[5]?.bind SubjectPublicKeyInfo.ofElement? = some t.publicKeyInfo
  extensions : ∃ field : Option Der.Element,
    (field.mapM fun e => e.only?.bind Extension.ofElements?) = some t.extensions

theorem readFrom_of_ofElement? {e : Der.Element} {t : TbsCertificate} (h : ofElement? e = some t) :
    ∃ fields, fieldsIn? e = some fields ∧ ReadFrom fields t := by
  obtain ⟨fields, parts, h⟩ := Option.bind_eq_some_iff.mp h
  split at h
  next taken fields' found =>
  split at h
  next serial algorithm issuer validity subject key rest =>
    dsimp only at h
    obtain ⟨⟨notBefore, notAfter⟩, -, h⟩ := Option.bind_eq_some_iff.mp h
    obtain ⟨version, -, h⟩ := Option.bind_eq_some_iff.mp h
    obtain ⟨serial', hn, h⟩ := Option.bind_eq_some_iff.mp h
    obtain ⟨algorithm', ha, h⟩ := Option.bind_eq_some_iff.mp h
    obtain ⟨issuer', -, h⟩ := Option.bind_eq_some_iff.mp h
    obtain ⟨subject', hs, h⟩ := Option.bind_eq_some_iff.mp h
    obtain ⟨key', hk, h⟩ := Option.bind_eq_some_iff.mp h
    obtain ⟨issuerId, -, h⟩ := Option.bind_eq_some_iff.mp h
    obtain ⟨subjectId, -, h⟩ := Option.bind_eq_some_iff.mp h
    obtain ⟨extensions, he, h⟩ := Option.bind_eq_some_iff.mp h
    split at h
    next =>
      cases Option.some.inj h
      have found' : fieldsIn? e
          = some (serial :: algorithm :: issuer :: validity :: subject :: key :: rest) := by
        rw [fieldsIn?, parts, Option.map_some, found]
      exact ⟨_, found', hn, ha, hs, hk, _, he⟩
    next => cases h
  next => cases h

theorem extensions_readable_of_ofElement? {e : Der.Element} {t : TbsCertificate}
    (h : ofElement? e = some t) : ∀ es ∈ t.extensions, ∀ x ∈ es, x.Readable := by
  obtain ⟨_, -, readFrom⟩ := readFrom_of_ofElement? h
  obtain ⟨field, read⟩ := readFrom.extensions
  cases field with
  | none =>
    rw [← Option.some.inj read]
    simp
  | some e =>
    obtain ⟨es, inner, same⟩ := Option.map_eq_some_iff.mp read
    rw [← same]
    rintro es ⟨rfl⟩
    obtain ⟨list, -, elements⟩ := Option.bind_eq_some_iff.mp inner
    exact Extension.readable_of_ofElements? elements

end TbsCertificate

namespace SignedCertificate

/-- A certificate that is read back: its signed fields, its algorithm and its signature are. -/
structure Readable (c : SignedCertificate) : Prop where
  tbs : c.tbs.Readable
  algorithm : c.algorithm.Readable
  signature : c.signature.Readable

theorem ofElement?_element {c : SignedCertificate} (h : c.Readable) (fits : c.element.Fits) :
    ofElement? c.element = some c := by
  have parts : c.element.sequence?
      = some [c.tbs.element, c.algorithm.element, c.signature.element] := by
    apply Der.Element.sequence?_sequence _ fits
    intro x hx
    simp only [List.mem_cons, List.not_mem_nil, or_false] at hx
    rcases hx with rfl | rfl | rfl
    · rfl
    · rfl
    · rfl
  have tbs := TbsCertificate.ofElement?_element h.tbs
    (Der.Element.fits_of_mem_sequence fits (by simp))
  have algorithm := AlgorithmIdentifier.ofElement?_element h.algorithm
    (Der.Element.fits_of_mem_sequence fits (by simp))
  have signature := Der.BitString.ofElement?_element h.signature
  rw [ofElement?, parts]
  simp [tbs, algorithm, signature]

theorem decode?_encode {c : SignedCertificate} (h : c.Readable) (fits : Der.fits c.encode = true) :
    decode? c.encode = some c := by
  have small := Der.Element.fits_of_encode fits
  have whole := Der.Element.ofBytes?_encode (e := c.element) ⟨rfl, small⟩
  rw [decode?, encode, whole, Option.bind_some]
  exact ofElement?_element h small

/-- The bytes of the signed fields, as they stand in the bytes of a certificate. -/
def tbsBytes? (der : Bytes) : Option Bytes := do
  let whole ← Der.Element.ofBytes? der
  let (_, rest) ← Der.Element.read whole.content
  some (whole.content.take (whole.content.length - rest.length))

theorem tbsBytes?_of_parts {e : Der.Element} {es : List Der.Element}
    (first : e.Readable) (whole : (Der.Element.sequence (e :: es)).Readable) :
    tbsBytes? (Der.Element.sequence (e :: es)).encode = some e.encode := by
  have content : (Der.Element.sequence (e :: es)).content
      = e.encode ++ Der.Element.encodeAll es := Der.Element.encodeAll_cons e es
  rw [tbsBytes?, Der.Element.ofBytes?_encode whole, Option.bind_eq_bind, Option.bind_some, content,
    Der.Element.read_encode first, Option.bind_eq_bind, Option.bind_some]
  simp

/-- The bytes in a certificate are those of the fields that were encoded into it. -/
theorem tbsBytes?_encode {c : SignedCertificate} (fits : Der.fits c.encode = true) :
    tbsBytes? c.encode = some c.tbs.encode := by
  have small := Der.Element.fits_of_encode fits
  exact tbsBytes?_of_parts ⟨rfl, Der.Element.fits_of_mem_sequence small (by simp)⟩ ⟨rfl, small⟩

/-- The signed fields in the bytes of a certificate, without the version. -/
def fieldsIn? (der : Bytes) : Option (List Der.Element) := do
  TbsCertificate.fieldsIn? (← Der.Element.ofBytes? (← tbsBytes? der))

def field? (der : Bytes) (place : Nat) : Option Der.Element := (fieldsIn? der).bind (·[place]?)

def issuerField? (der : Bytes) : Option Der.Element := field? der 2

def subjectField? (der : Bytes) : Option Der.Element := field? der 4

theorem fieldsIn?_encode {c : SignedCertificate} (fits : Der.fits c.encode = true) :
    fieldsIn? c.encode = some (c.tbs.required ++ c.tbs.issuerFields) := by
  have small := Der.Element.fits_of_mem_sequence (Der.Element.fits_of_encode fits)
    (e := c.tbs.element) (by simp)
  rw [fieldsIn?, tbsBytes?_encode fits, Option.bind_eq_bind, Option.bind_some,
    TbsCertificate.encode, Der.Element.ofBytes?_encode ⟨rfl, small⟩, Option.bind_eq_bind,
    Option.bind_some]
  exact TbsCertificate.fieldsIn?_element small

theorem issuerField?_encode {c : SignedCertificate} (fits : Der.fits c.encode = true) :
    issuerField? c.encode = some c.tbs.issuer.element := by
  rw [issuerField?, field?, fieldsIn?_encode fits]
  rfl

theorem subjectField?_encode {c : SignedCertificate} (fits : Der.fits c.encode = true) :
    subjectField? c.encode = some c.tbs.subject.element := by
  rw [subjectField?, field?, fieldsIn?_encode fits]
  rfl

/-- A field of the signed fields stands in the bytes of the certificate. -/
theorem readable_of_field? {der : Bytes} {place : Nat} {field : Der.Element}
    (h : field? der place = some field) : field.Readable ∧ field.encode <:+: der := by
  obtain ⟨fields, found, place'⟩ := Option.bind_eq_some_iff.mp h
  obtain ⟨bytes, cut, found⟩ := Option.bind_eq_some_iff.mp found
  obtain ⟨e, read, found⟩ := Option.bind_eq_some_iff.mp found
  obtain ⟨whole, hw, cut⟩ := Option.bind_eq_some_iff.mp cut
  obtain ⟨⟨first, rest⟩, -, cut⟩ := Option.bind_eq_some_iff.mp cut
  obtain ⟨written, -⟩ := Der.Element.encode_of_ofBytes? hw
  obtain ⟨same, -⟩ := Der.Element.encode_of_ofBytes? read
  have inside : e.encode <:+: der := by
    rw [same, ← Option.some.inj cut, ← written]
    exact (List.take_prefix _ _).isInfix.trans (Der.Element.content_suffix whole).isInfix
  obtain ⟨readable, part⟩ :=
    TbsCertificate.readable_of_fieldsIn? found field (List.mem_of_getElem? place')
  exact ⟨readable, part.trans inside⟩

/-- The signed fields of a certificate that was read have been read from those in its bytes. -/
theorem readFrom_of_decode? {der : Bytes} {c : SignedCertificate} (h : decode? der = some c) :
    ∃ fields, fieldsIn? der = some fields ∧ TbsCertificate.ReadFrom fields c.tbs := by
  obtain ⟨e, whole, h⟩ := Option.bind_eq_some_iff.mp h
  obtain ⟨parts, hp, h⟩ := Option.bind_eq_some_iff.mp h
  obtain ⟨written, readable⟩ := Der.Element.encode_of_ofBytes? whole
  obtain ⟨framed, each⟩ := Der.Element.of_sequence? hp
  split at h
  next tbs algorithm signature =>
    rw [framed] at written readable
    obtain ⟨t, ht, h⟩ := Option.bind_eq_some_iff.mp h
    obtain ⟨a, -, h⟩ := Option.bind_eq_some_iff.mp h
    obtain ⟨b, -, h⟩ := Option.bind_eq_some_iff.mp h
    cases Option.some.inj h
    obtain ⟨fields, found, readFrom⟩ := TbsCertificate.readFrom_of_ofElement? ht
    have first := each tbs (by simp)
    refine ⟨fields, ?_, readFrom⟩
    rw [fieldsIn?, ← written, tbsBytes?_of_parts first readable, Option.bind_eq_bind,
      Option.bind_some, Der.Element.ofBytes?_encode first, Option.bind_eq_bind, Option.bind_some,
      found]
  next => cases h

theorem subjectField?_of_decode? {der : Bytes} {c : SignedCertificate} (h : decode? der = some c) :
    ∃ subject, subjectField? der = some subject ∧ Name.ofElement? subject = some c.tbs.subject := by
  obtain ⟨fields, found, readFrom⟩ := readFrom_of_decode? h
  obtain ⟨subject, place, read⟩ := Option.bind_eq_some_iff.mp readFrom.subject
  exact ⟨subject, by rw [subjectField?, field?, found, Option.bind_some, place], read⟩

end SignedCertificate

end CertAuthority
