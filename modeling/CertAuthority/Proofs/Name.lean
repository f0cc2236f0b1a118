import CertAuthority.DistinguishedName
import CertAuthority.Proofs.Der.Primitive

namespace CertAuthority

namespace Attribute

structure Readable (a : Attribute) : Prop where
  oid : a.oid.Readable
  known : Der.Tag.isKnown a.value.tag = true

theorem ofElement?_element {a : Attribute} (h : a.Readable) (fits : a.element.Fits) :
    ofElement? a.element = some a := by
  have parts : a.element.sequence? = some [a.oid.element, a.value] := by
    apply Der.Element.sequence?_sequence _ fits
    intro e he
    simp only [List.mem_cons, List.not_mem_nil, or_false] at he
    rcases he with rfl | rfl
    · rfl
    · exact h.known
  rw [ofElement?, parts]
  simp only [Option.bind_eq_bind, Option.bind_some, Oid.ofElement?_element h.oid]

theorem of_ofElement? {e : Der.Element} {a : Attribute} (h : ofElement? e = some a) :
    a.element = e ∧ a.Readable := by
  obtain ⟨parts, hp, h⟩ := Option.bind_eq_some_iff.mp h
  obtain ⟨he, readable⟩ := Der.Element.of_sequence? hp
  split at h
  next oid value =>
    obtain ⟨o, ho, h⟩ := Option.bind_eq_some_iff.mp h
    cases Option.some.inj h
    obtain ⟨hoid, hro⟩ := Oid.element_of_ofElement? ho
    exact ⟨by rw [he, element, hoid], hro, (readable value (by simp)).known⟩
  next => simp at h

theorem precedes_trans {a b c : Attribute} (hab : a.precedes b = true) (hbc : b.precedes c = true) :
    a.precedes c = true := by
  unfold precedes at hab hbc ⊢
  rw [decide_eq_true_eq] at hab hbc ⊢
  have octets : Trans (α := UInt8) (β := UInt8) (γ := UInt8) (· < ·) (· < ·) (· < ·) :=
    ⟨UInt8.lt_trans⟩
  exact List.lt_trans hab hbc

end Attribute

namespace RelativeName

/-- A relative name that is read back: its attributes are, and they stand in order. -/
structure Readable (r : RelativeName) : Prop where
  attributes : ∀ a ∈ r.attributes, a.Readable
  sorted : r.attributes.Pairwise fun a b => a.precedes b = true

theorem sort?_of_sorted {as : List Attribute} (h : as.Pairwise fun a b => a.precedes b = true) :
    sort? as = some as := by
  induction as with
  | nil => rfl
  | cons a rest ih =>
    obtain ⟨first, later⟩ := List.pairwise_cons.mp h
    rw [sort?, ih later, Option.bind_some]
    cases rest with
    | nil => rfl
    | cons b rest => rw [insert?, if_pos (first b (by simp))]

theorem insert?_perm {a : Attribute} {as bs : List Attribute} (h : insert? a as = some bs) :
    bs.Perm (a :: as) := by
  induction as generalizing bs with
  | nil =>
    cases Option.some.inj h
    exact .refl _
  | cons b rest ih =>
    simp only [insert?] at h
    split at h
    next =>
      cases Option.some.inj h
      exact .refl _
    next =>
      split at h
      next =>
        obtain ⟨tail, ht, he⟩ := Option.map_eq_some_iff.mp h
        subst bs
        exact ((ih ht).cons b).trans (.swap a b rest)
      next => simp at h

theorem insert?_sorted {a : Attribute} {as bs : List Attribute}
    (sorted : as.Pairwise fun a b => a.precedes b = true) (h : insert? a as = some bs) :
    bs.Pairwise fun a b => a.precedes b = true := by
  induction as generalizing bs with
  | nil =>
    cases Option.some.inj h
    exact List.pairwise_singleton _ _
  | cons b rest ih =>
    obtain ⟨first, later⟩ := List.pairwise_cons.mp sorted
    simp only [insert?] at h
    split at h
    next hab =>
      cases Option.some.inj h
      refine List.pairwise_cons.mpr ⟨?_, sorted⟩
      intro x hx
      rcases List.mem_cons.mp hx with rfl | hx
      · exact hab
      · exact Attribute.precedes_trans hab (first x hx)
    next =>
      split at h
      next hba =>
        obtain ⟨tail, ht, he⟩ := Option.map_eq_some_iff.mp h
        subst bs
        refine List.pairwise_cons.mpr ⟨?_, ih later ht⟩
        intro x hx
        rcases List.mem_cons.mp ((insert?_perm ht).mem_iff.mp hx) with rfl | hx
        · exact hba
        · exact first x hx
      next => simp at h

/-- Attributes that were put in order stand in order, and they are the same. -/
theorem sort?_spec {as bs : List Attribute} (h : sort? as = some bs) :
    (bs.Pairwise fun a b => a.precedes b = true) ∧ bs.Perm as := by
  induction as generalizing bs with
  | nil =>
    cases Option.some.inj h
    exact ⟨List.Pairwise.nil, .refl _⟩
  | cons a rest ih =>
    obtain ⟨tail, ht, hi⟩ := Option.bind_eq_some_iff.mp h
    obtain ⟨sorted, same⟩ := ih ht
    exact ⟨insert?_sorted sorted hi, (insert?_perm hi).trans (same.cons a)⟩

theorem ofElement?_element {r : RelativeName} (h : r.Readable) (fits : r.element.Fits) :
    ofElement? r.element = some r := by
  have parts : r.element.children? Der.Tag.set = some (r.attributes.map (·.element)) := by
    apply Der.Element.children?_of_tag _ fits
    intro e he
    obtain ⟨a, -, rfl⟩ := List.mem_map.mp he
    rfl
  have each : (r.attributes.map (·.element)).mapM Attribute.ofElement? = some r.attributes := by
    apply Der.mapM_map_of_inverse
    intro a ha
    exact Attribute.ofElement?_element (h.attributes a ha)
      (Der.Element.fits_of_mem (List.mem_map_of_mem ha) fits)
  rw [ofElement?, parts, Option.bind_eq_bind, Option.bind_some, each, Option.bind_eq_bind,
    Option.bind_some, sort?_of_sorted h.sorted]
  rfl

/-- What was read as a relative name is a set of its attributes, in whatever order. -/
theorem of_ofElement? {e : Der.Element} {r : RelativeName} (h : ofElement? e = some r) :
    r.Readable ∧ ∃ members, e.children? Der.Tag.set = some members
      ∧ (r.attributes.map (·.element)).Perm members := by
  obtain ⟨members, parts, h⟩ := Option.bind_eq_some_iff.mp h
  obtain ⟨attributes, read, h⟩ := Option.bind_eq_some_iff.mp h
  obtain ⟨sorted, hs, he⟩ := Option.map_eq_some_iff.mp h
  subst r
  obtain ⟨order, same⟩ := sort?_spec hs
  refine ⟨⟨?_, order⟩, members, parts, ?_⟩
  · intro a hm
    obtain ⟨x, -, hx⟩ := Der.exists_of_mem_mapM read a (same.mem_iff.mp hm)
    exact (Attribute.of_ofElement? hx).2
  · have written : members = attributes.map (·.element) :=
      Der.eq_map_of_mapM (fun _ _ hx => (Attribute.of_ofElement? hx).1.symm) read
    rw [written]
    exact same.map _

/-- A set is as long in one order as in another. -/
theorem element_readable {e : Der.Element} {r : RelativeName} (h : ofElement? e = some r)
    (readable : e.Readable) : r.element.Readable := by
  obtain ⟨-, members, parts, same⟩ := of_ofElement? h
  obtain ⟨whole, -⟩ := Der.Element.of_children? parts
  refine ⟨rfl, ?_⟩
  have length : (Der.Element.encodeAll (r.attributes.map (·.element))).length
      = (Der.Element.encodeAll members).length := (same.flatMap_right _).length_eq
  have fits := readable.fits
  rw [whole] at fits
  exact length.trans_le fits

/-- A relative name is written as it was read exactly if its set was in order. -/
theorem element_eq_iff {e : Der.Element} {r : RelativeName} (h : ofElement? e = some r) :
    r.element = e ↔ Der.Element.Ascending ((e.children? Der.Tag.set).getD []) := by
  obtain ⟨readable, members, parts, same⟩ := of_ofElement? h
  obtain ⟨whole, known⟩ := Der.Element.of_children? parts
  have ascending : Der.Element.Ascending (r.attributes.map (·.element)) := by
    apply List.pairwise_map.mpr
    exact readable.sorted.imp of_decide_eq_true
  rw [parts, Option.getD_some]
  constructor
  · intro eq
    have octets : Der.Element.encodeAll (r.attributes.map (·.element))
        = Der.Element.encodeAll members := by
      rw [whole] at eq
      exact congrArg Der.Element.content eq
    rwa [← Der.Element.eq_of_encodeAll (fun x hx => known x (same.mem_iff.mp hx)) known octets]
  · intro order
    rw [element, ascending.eq_of_perm order same, whole]

end RelativeName

namespace Name

def Readable (n : Name) : Prop := ∀ r ∈ n.path, r.Readable

theorem ofElement?_element {n : Name} (h : n.Readable) (fits : n.element.Fits) :
    ofElement? n.element = some n := by
  have parts : n.element.sequence? = some (n.path.map (·.element)) := by
    apply Der.Element.sequence?_sequence _ fits
    intro e he
    obtain ⟨r, -, rfl⟩ := List.mem_map.mp he
    rfl
  have each : (n.path.map (·.element)).mapM RelativeName.ofElement? = some n.path := by
    apply Der.mapM_map_of_inverse
    intro r hr
    exact RelativeName.ofElement?_element (h r hr)
      (Der.Element.fits_of_mem_sequence fits (List.mem_map_of_mem hr))
  rw [ofElement?, parts, Option.bind_eq_bind, Option.bind_some, each]
  rfl

/-- Whether the relative names in the element of a name stand in the order of sets. -/
def InOrder (e : Der.Element) : Prop :=
  ∀ part ∈ e.sequence?.getD [], Der.Element.Ascending ((part.children? Der.Tag.set).getD [])

instance (e : Der.Element) : Decidable (InOrder e) :=
  inferInstanceAs (Decidable (∀ part ∈ e.sequence?.getD [], _))

theorem readable_of_ofElement? {e : Der.Element} {n : Name} (h : ofElement? e = some n) :
    n.Readable := by
  obtain ⟨parts, -, h⟩ := Option.bind_eq_some_iff.mp h
  obtain ⟨path, hp, h⟩ := Option.bind_eq_some_iff.mp h
  cases Option.some.inj h
  intro r hr
  obtain ⟨x, -, hx⟩ := Der.exists_of_mem_mapM hp r hr
  exact (RelativeName.of_ofElement? hx).1

/-- A name is written as it was read exactly if its sets were in order. -/
theorem element_eq_iff {e : Der.Element} {n : Name} (h : ofElement? e = some n) :
    n.element = e ↔ InOrder e := by
  obtain ⟨parts, hp, h⟩ := Option.bind_eq_some_iff.mp h
  obtain ⟨path, read, h⟩ := Option.bind_eq_some_iff.mp h
  cases Option.some.inj h
  obtain ⟨whole, known⟩ := Der.Element.of_sequence? hp
  have each : path.map RelativeName.element = parts
      ↔ ∀ part ∈ parts, ∀ r ∈ RelativeName.ofElement? part, r.element = part :=
    Der.map_eq_iff_of_mapM read
  have ordered : InOrder e ↔ ∀ part ∈ parts, ∀ r ∈ RelativeName.ofElement? part,
      r.element = part := by
    rw [InOrder, hp, Option.getD_some]
    constructor
    · intro order part hm r hr
      exact (RelativeName.element_eq_iff hr).mpr (order part hm)
    · intro same part hm
      obtain ⟨r, -, hr⟩ := Der.exists_of_mapM_mem read part hm
      exact (RelativeName.element_eq_iff hr).mp (same part hm r hr)
  rw [ordered, ← each]
  constructor
  · intro eq
    rw [whole] at eq
    apply Der.Element.eq_of_encodeAll _ known (congrArg Der.Element.content eq)
    intro x hx
    obtain ⟨r, hr, rfl⟩ := List.mem_map.mp hx
    obtain ⟨part, hm, hr⟩ := Der.exists_of_mem_mapM read r hr
    exact RelativeName.element_readable hr (known part hm)
  · intro same
    rw [element, same, whole]

end Name

namespace DistinguishedName

theorem organizationOid_readable : organizationOid.Readable := by decide

theorem commonNameOid_readable : commonNameOid.Readable := by decide

theorem organizationOid_ne_commonNameOid : organizationOid ≠ commonNameOid := by decide

theorem single_readable {oid : Oid} (h : oid.Readable) (text : String) :
    (single oid text).Readable := by
  refine ⟨?_, List.pairwise_singleton _ _⟩
  intro a ha
  rw [single, List.mem_singleton] at ha
  subst a
  exact ⟨h, rfl⟩

theorem toName_readable (d : DistinguishedName) : d.toName.Readable := by
  intro r hr
  rcases List.mem_append.mp hr with hr | hr
  · obtain ⟨text, -, rfl⟩ := List.mem_map.mp hr
    exact single_readable organizationOid_readable text
  · split at hr
    next => simp at hr
    next =>
      rw [List.mem_singleton] at hr
      subst r
      exact single_readable commonNameOid_readable _

theorem text?_utf8 (oid : Oid) (text : String) :
    text? ⟨oid, ⟨Der.Tag.utf8String, Der.utf8 text⟩⟩ = some text := by
  rw [text?, if_pos rfl, Der.utf8Text?_utf8]

theorem texts_singles (oid wanted : Oid) (texts' : List String) :
    texts ⟨texts'.map (single oid)⟩ wanted = if oid = wanted then texts' else [] := by
  induction texts' with
  | nil => simp [texts, Name.attributes]
  | cons text rest ih =>
    have tail : texts ⟨(text :: rest).map (single oid)⟩ wanted
        = texts ⟨[single oid text]⟩ wanted ++ texts ⟨rest.map (single oid)⟩ wanted := by
      simp [texts, Name.attributes]
    have head : texts ⟨[single oid text]⟩ wanted = if oid = wanted then [text] else [] := by
      by_cases h : oid = wanted
      · simp [texts, Name.attributes, single, h, text?_utf8]
      · simp [texts, Name.attributes, single, h]
    rw [tail, head, ih]
    by_cases h : oid = wanted <;> simp [h]

theorem texts_append (path path' : List RelativeName) (wanted : Oid) :
    texts ⟨path ++ path'⟩ wanted = texts ⟨path⟩ wanted ++ texts ⟨path'⟩ wanted := by
  simp [texts, Name.attributes]

/-- Organizations in their order and the common name are read back from the name. -/
theorem ofName_toName (d : DistinguishedName) : ofName d.toName = d := by
  have common : (if d.commonName.isEmpty then [] else [single commonNameOid d.commonName])
      = (if d.commonName.isEmpty then [] else [d.commonName]).map (single commonNameOid) := by
    split <;> rfl
  have organizations : texts d.toName organizationOid = d.organization := by
    rw [toName, texts_append, texts_singles, common, texts_singles, if_pos rfl,
      if_neg organizationOid_ne_commonNameOid.symm, List.append_nil]
  have names : texts d.toName commonNameOid
      = if d.commonName.isEmpty then [] else [d.commonName] := by
    rw [toName, texts_append, texts_singles, common, texts_singles, if_pos rfl,
      if_neg organizationOid_ne_commonNameOid, List.nil_append]
  rw [ofName, organizations, names]
  cases d with
  | mk organization commonName =>
    by_cases h : commonName.isEmpty
    · have empty : commonName = "" := by simpa using h
      simp [empty]
    · simp [h]

end DistinguishedName

end CertAuthority
