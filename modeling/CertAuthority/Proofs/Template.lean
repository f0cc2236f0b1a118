import CertAuthority.Proofs.Extension.Listing
import CertAuthority.Template

namespace CertAuthority.Template

section

variable {α : Type} [ExtensionValue α] {value : Option α} {critical : Bool} {es : List Extension}

theorem optional_eq_ok (h : optional value critical = .ok es) :
    value = none ∧ es = []
      ∨ ∃ a b, value = some a ∧ ExtensionValue.encode a = .ok b
        ∧ es = [⟨ExtensionValue.oid α, critical, b⟩] := by
  cases value with
  | none => exact Or.inl ⟨rfl, (Except.ok.inj h).symm⟩
  | some a =>
    obtain ⟨e, he, rfl⟩ := map_eq_ok.mp h
    obtain ⟨b, hb, rfl⟩ := map_eq_ok.mp he
    exact Or.inr ⟨a, b, rfl, hb, rfl⟩

theorem mem_optional (h : optional value critical = .ok es) :
    ∀ e ∈ es, e.oid = ExtensionValue.oid α ∧ e.critical = critical := by
  intro e he
  rcases optional_eq_ok h with ⟨-, rfl⟩ | ⟨a, b, -, -, rfl⟩
  · simp at he
  · cases List.mem_singleton.mp he
    exact ⟨rfl, rfl⟩

theorem kind_optional (h : optional value critical = .ok es) :
    es.map (fun e => (e.oid, e.critical))
      = if value.isSome then [(ExtensionValue.oid α, critical)] else [] := by
  rcases optional_eq_ok h with ⟨rfl, rfl⟩ | ⟨a, b, rfl, -, rfl⟩
  · rfl
  · rfl

/-- A value is found in its section, or there is none behind all sections. -/
theorem find_optional [LawfulExtensionValue α] (h : optional value critical = .ok es)
    {sections : List (Oid × List Extension)} (separate : Extension.Separate sections)
    (mem : (ExtensionValue.oid α, es) ∈ sections) (rest : List Extension)
    (free : value.isSome = false → ∀ e ∈ rest, e.oid ≠ ExtensionValue.oid α) :
    Extension.find α (sections.flatMap (·.2) ++ rest) = .ok value := by
  have found := separate.find? mem rest
  rcases optional_eq_ok h with ⟨rfl, rfl⟩ | ⟨a, b, rfl, hb, rfl⟩
  · rw [Extension.find, found fun _ => free rfl]
    rfl
  · rw [Extension.find, found fun empty => by simp at empty]
    show (ExtensionValue.decode α b).map some = _
    rw [ExtensionValue.decode_encode hb]
    rfl

end

/-- A kind of extension: its identifier, whether it must be understood, and whether a template asks
for it. -/
structure Kind where
  oid : Oid
  critical : Bool
  wanted : Bool
deriving DecidableEq

/-- The kinds of extension that are understood, in the order in which they are written. -/
def kinds (t : Template) (authorityKeyId : Option Bytes) : List Kind :=
  [⟨ExtensionValue.oid BasicConstraints, true, t.constrained⟩,
    ⟨ExtensionValue.oid KeyUsage, true, !t.keyUsage.isEmpty⟩,
    ⟨ExtensionValue.oid ExtendedKeyUsage, false, !t.purposes.isEmpty⟩,
    ⟨ExtensionValue.oid SubjectAltName, false, !t.dnsNames.isEmpty⟩,
    ⟨ExtensionValue.oid SubjectKeyIdentifier, false, true⟩,
    ⟨ExtensionValue.oid AuthorityKeyIdentifier, false, authorityKeyId.isSome⟩]

theorem kinds_nodup (t : Template) (authorityKeyId : Option Bytes) :
    ((t.kinds authorityKeyId).map (·.oid)).Nodup := by
  show [ExtensionValue.oid BasicConstraints, ExtensionValue.oid KeyUsage,
    ExtensionValue.oid ExtendedKeyUsage, ExtensionValue.oid SubjectAltName,
    ExtensionValue.oid SubjectKeyIdentifier, ExtensionValue.oid AuthorityKeyIdentifier].Nodup
  decide

/-- Whether no further extension is of a kind that is understood but not asked for. Such a one
would be taken for the template's own. -/
def Undisturbed (t : Template) (authorityKeyId : Option Bytes) : Prop :=
  ∀ e ∈ t.extensions, ∀ kind ∈ t.kinds authorityKeyId, e.oid = kind.oid → kind.wanted = true

instance (t : Template) (authorityKeyId : Option Bytes) :
    Decidable (t.Undisturbed authorityKeyId) :=
  inferInstanceAs (Decidable (∀ e ∈ t.extensions, ∀ kind ∈ t.kinds authorityKeyId,
    e.oid = kind.oid → kind.wanted = true))

/-- What the extensions of a template say. -/
def profile (t : Template) (subjectKeyId : Bytes) (authorityKeyId : Option Bytes) : Profile where
  basicConstraints := t.basicConstraints
  keyUsage := t.keyUsage
  purposes := t.purposes
  dnsNames := t.dnsNames
  subjectKeyId := some subjectKeyId
  authorityKeyId := authorityKeyId.filter (!·.isEmpty)

/-- The extensions of a template, kind by kind. -/
structure Sections (t : Template) (subjectKeyId : Bytes) (authorityKeyId : Option Bytes) where
  constraints : List Extension
  usage : List Extension
  purposes : List Extension
  names : List Extension
  subject : List Extension
  authority : List Extension
  constraints_ok : optional t.basicConstraints true = .ok constraints
  usage_ok : optional (when (!t.keyUsage.isEmpty) t.keyUsage) true = .ok usage
  purposes_ok :
    optional (when (!t.purposes.isEmpty) (ExtendedKeyUsage.mk t.purposes)) false = .ok purposes
  names_ok : optional (when (!t.dnsNames.isEmpty) (SubjectAltName.mk t.dnsNames)) false = .ok names
  subject_ok : optional (some (SubjectKeyIdentifier.mk subjectKeyId)) false = .ok subject
  authority_ok : optional (authorityKeyId.map AuthorityKeyIdentifier.mk) false = .ok authority

namespace Sections

variable {t : Template} {subjectKeyId : Bytes} {authorityKeyId : Option Bytes}

/-- The sections with their identifiers, in the order in which they are written. -/
def listed (s : Sections t subjectKeyId authorityKeyId) : List (Oid × List Extension) :=
  [(ExtensionValue.oid BasicConstraints, s.constraints),
    (ExtensionValue.oid KeyUsage, s.usage),
    (ExtensionValue.oid ExtendedKeyUsage, s.purposes),
    (ExtensionValue.oid SubjectAltName, s.names),
    (ExtensionValue.oid SubjectKeyIdentifier, s.subject),
    (ExtensionValue.oid AuthorityKeyIdentifier, s.authority)]

theorem separate (s : Sections t subjectKeyId authorityKeyId) : Extension.Separate s.listed where
  tagged := by
    simp only [listed, List.forall_mem_cons, List.not_mem_nil, false_imp_iff, implies_true,
      and_true]
    exact ⟨fun e he => (mem_optional s.constraints_ok e he).1,
      fun e he => (mem_optional s.usage_ok e he).1,
      fun e he => (mem_optional s.purposes_ok e he).1,
      fun e he => (mem_optional s.names_ok e he).1,
      fun e he => (mem_optional s.subject_ok e he).1,
      fun e he => (mem_optional s.authority_ok e he).1⟩
  distinct := t.kinds_nodup authorityKeyId

end Sections

theorem exists_sections {t : Template} {subjectKeyId : Bytes} {authorityKeyId : Option Bytes}
    {es : List Extension} (h : t.toExtensions subjectKeyId authorityKeyId = .ok es) :
    ∃ s : Sections t subjectKeyId authorityKeyId,
      es = s.listed.flatMap (·.2) ++ t.extensions := by
  obtain ⟨constraints, hc, h⟩ := bind_eq_ok.mp h
  obtain ⟨usage, hu, h⟩ := bind_eq_ok.mp h
  obtain ⟨purposes, hp, h⟩ := bind_eq_ok.mp h
  obtain ⟨names, hn, h⟩ := bind_eq_ok.mp h
  obtain ⟨subject, hs, h⟩ := bind_eq_ok.mp h
  obtain ⟨authority, ha, h⟩ := bind_eq_ok.mp h
  refine ⟨⟨constraints, usage, purposes, names, subject, authority, hc, hu, hp, hn, hs, ha⟩, ?_⟩
  cases Except.ok.inj h
  simp [Sections.listed]

theorem when_isSome {α : Type} (wanted : Bool) (value : α) :
    (when wanted value).isSome = wanted := by
  cases wanted <;> rfl

theorem basicConstraints_isSome (t : Template) : t.basicConstraints.isSome = t.constrained := by
  unfold basicConstraints
  cases t.constrained <;> rfl

/-- The extensions of a template are of the kinds that it asks for, each once, and the further ones
stand behind them. -/
theorem kinds_of_toExtensions {t : Template} {subjectKeyId : Bytes} {authorityKeyId : Option Bytes}
    {es : List Extension} (h : t.toExtensions subjectKeyId authorityKeyId = .ok es) :
    es.map (fun e => (e.oid, e.critical))
      = ((t.kinds authorityKeyId).filter (·.wanted)).map (fun kind => (kind.oid, kind.critical))
        ++ t.extensions.map (fun e => (e.oid, e.critical)) := by
  obtain ⟨s, rfl⟩ := exists_sections h
  have step (wanted : Bool) (kind : Kind) (kinds : List Kind) :
      (if wanted then kind :: kinds else kinds).map (fun kind => (kind.oid, kind.critical))
        = (if wanted then [(kind.oid, kind.critical)] else [])
          ++ kinds.map (fun kind => (kind.oid, kind.critical)) := by
    cases wanted <;> rfl
  rw [List.map_append]
  congr 1
  simp only [kinds, List.filter_cons, step, List.filter_nil, List.map_nil, Sections.listed,
    List.flatMap_cons, List.flatMap_nil, List.map_append, kind_optional s.constraints_ok,
    kind_optional s.usage_ok, kind_optional s.purposes_ok, kind_optional s.names_ok,
    kind_optional s.subject_ok, kind_optional s.authority_ok, basicConstraints_isSome, when_isSome,
    Option.isSome_map, Option.isSome_some, if_true, List.map_cons, List.cons_append,
    List.nil_append]

/-- The extensions of a template are understood as what it asks for. -/
theorem ofExtensions_toExtensions {t : Template} {subjectKeyId : Bytes}
    {authorityKeyId : Option Bytes} {es : List Extension}
    (h : t.toExtensions subjectKeyId authorityKeyId = .ok es)
    (undisturbed : t.Undisturbed authorityKeyId) :
    Profile.ofExtensions es = .ok (t.profile subjectKeyId authorityKeyId) := by
  obtain ⟨s, rfl⟩ := exists_sections h
  have free {oid : Oid} (critical wanted : Bool)
      (kind : ⟨oid, critical, wanted⟩ ∈ t.kinds authorityKeyId) (unwanted : wanted = false) :
      ∀ e ∈ t.extensions, e.oid ≠ oid := by
    intro e he same
    have := undisturbed e he _ kind same
    simp [unwanted] at this
  have constraints := find_optional s.constraints_ok s.separate (by simp [Sections.listed])
    t.extensions fun none => free true t.constrained (by simp [kinds])
      (basicConstraints_isSome t ▸ none)
  have usage := find_optional s.usage_ok s.separate (by simp [Sections.listed])
    t.extensions fun none => free true _ (by simp [kinds]) (when_isSome _ _ ▸ none)
  have purposes := find_optional s.purposes_ok s.separate (by simp [Sections.listed])
    t.extensions fun none => free false _ (by simp [kinds]) (when_isSome _ _ ▸ none)
  have names := find_optional s.names_ok s.separate (by simp [Sections.listed])
    t.extensions fun none => free false _ (by simp [kinds]) (when_isSome _ _ ▸ none)
  have subject := find_optional s.subject_ok s.separate (by simp [Sections.listed])
    t.extensions fun none => by simp at none
  have authority := find_optional s.authority_ok s.separate (by simp [Sections.listed])
    t.extensions fun none => free false _ (by simp [kinds]) (Option.isSome_map ▸ none)
  rw [Profile.ofExtensions, constraints, ok_bind, usage, ok_bind, purposes, ok_bind, names, ok_bind,
    subject, ok_bind, authority, ok_bind]
  have keyUsage : (when (!t.keyUsage.isEmpty) t.keyUsage).getD KeyUsage.none = t.keyUsage := by
    cases empty : t.keyUsage.isEmpty with
    | false => rfl
    | true => exact (KeyUsage.eq_none_of_isEmpty empty).symm
  have listed {α β : Type} (values : List α) (wrap : List α → β) (unwrap : β → List α)
      (inverse : unwrap (wrap values) = values) :
      ((when (!values.isEmpty) (wrap values)).map unwrap).getD [] = values := by
    cases values with
    | nil => rfl
    | cons a rest => exact inverse
  rw [keyUsage, listed t.purposes ExtendedKeyUsage.mk (·.purposes) rfl,
    listed t.dnsNames SubjectAltName.mk (·.names) rfl, Option.map_map]
  cases authorityKeyId with
  | none => rfl
  | some id => rfl

end CertAuthority.Template
