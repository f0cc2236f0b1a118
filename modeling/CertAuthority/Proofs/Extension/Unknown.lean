import CertAuthority.Proofs.Der.Oid
import CertAuthority.Proofs.Extension.Value

namespace CertAuthority

/-- What is kept of values is what was to be kept of the parts that they were read from. -/
theorem filterMap_of_forall₂ {α β γ : Type} {R : α → β → Prop} {keep : α → Option γ}
    {keep' : β → Option γ} (step : ∀ a b, R a b → keep' b = keep a) {parts : List α}
    {values : List β} (h : List.Forall₂ R parts values) :
    values.filterMap keep' = parts.filterMap keep := by
  induction h with
  | nil => rfl
  | cons hab _ ih => rw [List.filterMap_cons, List.filterMap_cons, step _ _ hab, ih]

namespace Purpose

/-- The arcs of the identifier of a purpose. -/
def path : Purpose → ArcPath
  | serverAuth => ⟨1, 3, [6, 1, 5, 5, 7, 3, 1], by decide⟩
  | clientAuth => ⟨1, 3, [6, 1, 5, 5, 7, 3, 2], by decide⟩
  | codeSigning => ⟨1, 3, [6, 1, 5, 5, 7, 3, 3], by decide⟩
  | emailProtection => ⟨1, 3, [6, 1, 5, 5, 7, 3, 4], by decide⟩
  | timeStamping => ⟨1, 3, [6, 1, 5, 5, 7, 3, 8], by decide⟩
  | ocspSigning => ⟨1, 3, [6, 1, 5, 5, 7, 3, 9], by decide⟩

def ofPath? (p : ArcPath) : Option Purpose := all.find? (·.path = p)

theorem content_oid (p : Purpose) : p.oid.content = p.path.content := by cases p <;> decide

/-- The purpose of an identifier that was read is that of its arcs. -/
theorem ofOid?_of_ofContent? {p : ArcPath} {o : Oid} (h : Oid.ofContent? p.content = some o) :
    ofOid? o = ofPath? p := by
  have same (q : Purpose) : q.oid = o ↔ q.path = p := by
    have octets := Oid.content_of_ofContent? h
    constructor
    · rintro rfl
      apply ArcPath.content_injective
      rw [← content_oid, octets]
    · rintro rfl
      have content : q.oid.content = o.content := (content_oid q).trans octets.symm
      cases o
      cases hq : q.oid
      rw [hq] at content
      cases content
      rfl
  simp only [ofOid?, ofPath?, same]

end Purpose

namespace ExtendedKeyUsage

theorem mapM_paths (paths : List ArcPath) :
    ((paths.map (·.element)).mapM Oid.ofElement?).map (·.filterMap Purpose.ofOid?)
      = if ∀ p ∈ paths, p.IsReadable then some (paths.filterMap Purpose.ofPath?) else none := by
  have each : (paths.map (·.element)).mapM Oid.ofElement?
      = paths.mapM fun p => Oid.ofContent? p.content := List.mapM_map
  rw [each]
  split
  next readable =>
    obtain ⟨oids, listed⟩ := Der.exists_mapM fun p hp =>
      (ArcPath.ofContent?_isSome_iff p).mpr (readable p hp)
    have kept : oids.filterMap Purpose.ofOid? = paths.filterMap Purpose.ofPath? :=
      filterMap_of_forall₂ (fun p o h => Purpose.ofOid?_of_ofContent? h)
        (Der.forall₂_of_mapM listed)
    rw [listed, Option.map_some, kept]
  next unreadable =>
    cases listed : paths.mapM fun p => Oid.ofContent? p.content with
    | none => rfl
    | some oids =>
      refine absurd (fun p hp => ?_) unreadable
      obtain ⟨o, -, ho⟩ := Der.exists_of_mapM_mem listed p hp
      exact (ArcPath.ofContent?_isSome_iff p).mp (Option.isSome_of_eq_some ho)

/-- Of identifiers that can all be read the purposes that are modelled are kept, in their order and
as often as they are listed. One that cannot be read spoils the list. -/
theorem decode_paths {paths : List ArcPath} {b : Bytes}
    (h : withinLimit (Der.Element.sequence (paths.map (·.element))).encode = .ok b) :
    ExtensionValue.decode ExtendedKeyUsage b
      = if ∀ p ∈ paths, p.IsReadable then .ok ⟨paths.filterMap Purpose.ofPath?⟩
        else .error .malformed := by
  have readable := (readable_of_withinLimit rfl h).2
  have parts : (Der.Element.sequence (paths.map (·.element))).sequence?
      = some (paths.map (·.element)) := by
    apply Der.Element.sequence?_sequence _ readable.fits
    intro x hx
    obtain ⟨p, -, rfl⟩ := List.mem_map.mp hx
    rfl
  have kept := mapM_paths paths
  have element : ExtensionValue.ofElement? (Der.Element.sequence (paths.map (·.element)))
      = (((paths.map (·.element)).mapM Oid.ofElement?).map (·.filterMap Purpose.ofOid?)).map
          ExtendedKeyUsage.mk := by
    change ExtendedKeyUsage.ofElement? _ = _
    rw [ExtendedKeyUsage.ofElement?, parts, Option.bind_eq_bind, Option.bind_some, Option.map_map]
    cases (paths.map (·.element)).mapM Oid.ofElement? with
    | none => rfl
    | some oids => rfl
  rw [ExtensionValue.decode_of_withinLimit rfl h, element, kept]
  split
  next => rfl
  next => rfl

end ExtendedKeyUsage

namespace GeneralName

/-- The tags of the forms that are read. -/
def tags : List UInt8 :=
  [Der.Tag.contextConstructed 0, Der.Tag.context 1, dnsTag, Der.Tag.contextConstructed 4,
    Der.Tag.contextConstructed 5, Der.Tag.context 6, Der.Tag.context 7, Der.Tag.context 8]

theorem ascii?_eq_some {make : Bytes → GeneralName} {b : Bytes} {n : GeneralName} :
    ascii? make b = some n ↔ Der.isAscii b = true ∧ make b = n := by
  unfold ascii?
  split
  next h => simp [h]
  next h => simp [h]

theorem dnsText?_of_other? {b : Bytes} {n : GeneralName} (h : other? b = some n) :
    n.dnsText? = none := by
  obtain ⟨parts, -, h⟩ := Option.bind_eq_some_iff.mp h
  split at h
  next =>
    obtain ⟨form, -, h⟩ := Option.bind_eq_some_iff.mp h
    obtain ⟨value, -, h⟩ := Option.bind_eq_some_iff.mp h
    cases Option.some.inj h
    rfl
  next => cases h

theorem dnsText?_of_partner? {b : Bytes} {n : GeneralName} (h : partner? b = some n) :
    n.dnsText? = none := by
  obtain ⟨parts, -, h⟩ := Option.bind_eq_some_iff.mp h
  split at h
  next =>
    obtain ⟨assigner, -, h⟩ := Option.bind_eq_some_iff.mp h
    obtain ⟨party, -, h⟩ := Option.bind_eq_some_iff.mp h
    obtain ⟨text, -, h⟩ := Option.bind_eq_some_iff.mp h
    cases Option.some.inj h
    rfl
  next => cases h

theorem tags_known : ∀ tag ∈ tags, Der.Tag.isKnown tag = true := by decide +kernel

theorem known_of_ofElement? {e : Der.Element} {n : GeneralName} (h : ofElement? e = some n) :
    Der.Tag.isKnown e.tag = true := by
  refine tags_known e.tag ?_
  by_contra missing
  simp only [tags, List.mem_cons, List.not_mem_nil, or_false, not_or] at missing
  simp [ofElement?, missing] at h

/-- A form that is not that of a DNS name has no text to keep. -/
theorem dnsText?_of_tag_ne {e : Der.Element} {n : GeneralName} (h : ofElement? e = some n)
    (other : e.tag ≠ dnsTag) : n.dnsText? = none := by
  unfold ofElement? at h
  rw [if_neg other] at h
  split at h
  next => exact dnsText?_of_other? h
  split at h
  next => rw [← (ascii?_eq_some.mp h).2]; rfl
  split at h
  next =>
    obtain ⟨name, -, rfl⟩ := Option.map_eq_some_iff.mp h
    rfl
  split at h
  next => exact dnsText?_of_partner? h
  split at h
  next => rw [← (ascii?_eq_some.mp h).2]; rfl
  split at h
  next => rw [← Option.some.inj h]; rfl
  split at h
  next =>
    obtain ⟨id, -, rfl⟩ := Option.map_eq_some_iff.mp h
    rfl
  next => cases h

/-- Of a form that is read, the octets of a DNS name are kept, and nothing of any other. -/
theorem dnsText?_of_ofElement? {e : Der.Element} {n : GeneralName} (h : ofElement? e = some n) :
    n.dnsText?.map Der.utf8 = e.content? dnsTag := by
  by_cases dns : e.tag = dnsTag
  · have form : ¬ dnsTag = Der.Tag.contextConstructed 0 := by decide
    have mail : ¬ dnsTag = Der.Tag.context 1 := by decide
    rw [ofElement?, dns, if_neg form, if_neg mail, if_pos rfl] at h
    obtain ⟨ascii, rfl⟩ := ascii?_eq_some.mp h
    rw [Der.Element.content?, if_pos dns]
    exact Der.utf8Text?_of_isAscii ascii
  · rw [dnsText?_of_tag_ne h dns, Der.Element.content?, if_neg dns]
    rfl

end GeneralName

namespace SubjectAltName

/-- Of forms that are all read the DNS names are kept, in their order. -/
theorem decode_forms {forms : List Der.Element} {b : Bytes}
    (h : withinLimit (Der.Element.sequence forms).encode = .ok b)
    (accepted : ∀ e ∈ forms, (GeneralName.ofElement? e).isSome = true) :
    ∃ s, ExtensionValue.decode SubjectAltName b = .ok s
      ∧ s.names.map Der.utf8 = forms.filterMap (·.content? GeneralName.dnsTag) := by
  have readable := (readable_of_withinLimit rfl h).2
  have parts : Der.Element.readAll (Der.Element.encodeAll forms) = some forms := by
    apply Der.Element.sequence?_sequence _ readable.fits
    intro e he
    obtain ⟨n, hn⟩ := Option.isSome_iff_exists.mp (accepted e he)
    exact GeneralName.known_of_ofElement? hn
  obtain ⟨names, listed⟩ := Der.exists_mapM accepted
  have element : ExtensionValue.ofElement? (Der.Element.sequence forms)
      = some (SubjectAltName.mk (names.filterMap (·.dnsText?))) := by
    change SubjectAltName.ofElement? _ = _
    rw [SubjectAltName.ofElement?, Der.Element.sequence, Der.Element.content?_of_tag,
      Option.bind_eq_bind, Option.bind_some, GeneralName.readAll, parts]
    simp only [Option.bind_eq_bind, Option.bind_some, listed]
  refine ⟨⟨names.filterMap (·.dnsText?)⟩, ?_, ?_⟩
  · rw [ExtensionValue.decode_of_withinLimit rfl h, element]
    rfl
  · have kept (e : Der.Element) (n : GeneralName) (h : GeneralName.ofElement? e = some n) :
        n.dnsText?.map Der.utf8 = e.content? GeneralName.dnsTag :=
      GeneralName.dnsText?_of_ofElement? h
    rw [List.map_filterMap]
    exact filterMap_of_forall₂ kept (Der.forall₂_of_mapM listed)

end SubjectAltName

namespace Extension

/-- What is not modelled does not disturb the rest. A list of identifiers comes to the purposes
among them, unless one of them cannot be read, and a list of names that can be read comes to the DNS
names among them. -/
theorem unknown_skipped (paths : List ArcPath) (forms : List Der.Element) :
    (∀ b, withinLimit (Der.Element.sequence (paths.map (·.element))).encode = .ok b →
        ExtensionValue.decode ExtendedKeyUsage b
          = if ∀ p ∈ paths, p.IsReadable then .ok ⟨paths.filterMap Purpose.ofPath?⟩
            else .error .malformed)
    ∧ ∀ b, withinLimit (Der.Element.sequence forms).encode = .ok b →
      (∀ e ∈ forms, (GeneralName.ofElement? e).isSome = true) →
        ∃ s, ExtensionValue.decode SubjectAltName b = .ok s
          ∧ s.names.map Der.utf8 = forms.filterMap (·.content? GeneralName.dnsTag) :=
  ⟨fun _ written => ExtendedKeyUsage.decode_paths written,
    fun _ written accepted => SubjectAltName.decode_forms written accepted⟩

/-- Two purposes, one of them twice, between identifiers of others. -/
def samplePaths : List ArcPath :=
  [Purpose.clientAuth.path, ⟨1, 3, [6, 1, 4, 1, 311, 10, 3, 4], by decide⟩,
    Purpose.serverAuth.path, ⟨2, 5, [29, 37, 0], by decide⟩, Purpose.clientAuth.path]

/-- Three DNS names between names of all other forms. -/
def sampleForms : List Der.Element :=
  [⟨0x82, [97]⟩, ⟨0xa0, [6, 3, 0x2a, 3, 4, 0xa0, 2, 0x0c, 0]⟩, ⟨0x81, [97, 64, 98]⟩, ⟨0x82, []⟩,
    ⟨0xa4, [0x30, 11, 0x31, 9, 0x30, 7, 6, 3, 0x55, 4, 3, 0x0c, 0]⟩, ⟨0xa5, [0xa1, 3, 0x13, 1, 65]⟩,
    ⟨0x86, [58]⟩, ⟨0x87, [127, 0, 0, 1]⟩, ⟨0x88, [0x2a, 3, 4]⟩, ⟨0x82, [97]⟩]

theorem unknown_skipped_sample :
    ExtensionValue.decode ExtendedKeyUsage
        (Der.Element.sequence (samplePaths.map (·.element))).encode
      = .ok ⟨[.clientAuth, .serverAuth, .clientAuth]⟩
    ∧ ∃ s, ExtensionValue.decode SubjectAltName (Der.Element.sequence sampleForms).encode = .ok s
        ∧ s.names.map Der.utf8 = [[97], [], [97]] := by
  obtain ⟨purposes, names⟩ := unknown_skipped samplePaths sampleForms
  have purposes := purposes _ (withinLimit_eq_ok.mpr ⟨rfl, by decide +kernel⟩)
  have names := names _ (withinLimit_eq_ok.mpr ⟨rfl, by decide +kernel⟩) (by decide +kernel)
  rw [if_pos (by decide +kernel)] at purposes
  exact ⟨purposes, names⟩

/-- The identifier 1.2.3 is written in two octets, too few to be read, and a list with it comes to
nothing rather than to no purpose. -/
theorem not_skipped_sample : ¬ ∀ (paths : List ArcPath) (b : Bytes),
    withinLimit (Der.Element.sequence (paths.map (·.element))).encode = .ok b →
      ExtensionValue.decode ExtendedKeyUsage b = .ok ⟨paths.filterMap Purpose.ofPath?⟩ := by
  intro skipped
  have written : withinLimit (Der.Element.sequence
      ([⟨1, 2, [3], by decide⟩].map ArcPath.element)).encode = .ok [0x30, 4, 6, 2, 0x2a, 3] := by
    decide +kernel
  have refused := ExtendedKeyUsage.decode_paths written
  rw [if_neg (by decide +kernel), skipped _ _ written] at refused
  cases refused

end Extension

end CertAuthority
