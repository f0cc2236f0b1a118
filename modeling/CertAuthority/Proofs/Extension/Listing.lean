import CertAuthority.Proofs.Extension.Value

namespace CertAuthority.Extension

/-- An extension that is read back: its identifier is. -/
def Readable (e : Extension) : Prop := e.oid.Readable

instance (e : Extension) : Decidable e.Readable := inferInstanceAs (Decidable e.oid.Readable)

theorem ofElement?_element {e : Extension} (h : e.Readable) (fits : e.element.Fits) :
    ofElement? e.element = some e := by
  have oid := Oid.ofElement?_element h
  obtain ⟨id, critical, value⟩ := e
  have parts : (Extension.mk id critical value).element.sequence?
      = some (id.element :: (if critical then [.boolean true] else []) ++ [.octets value]) := by
    apply Der.Element.sequence?_sequence _ fits
    intro x hx
    rcases List.mem_cons.mp hx with rfl | hx
    · rfl
    rcases List.mem_append.mp hx with hx | hx
    · split at hx
      next =>
        rw [List.mem_singleton.mp hx]
        rfl
      next => simp at hx
    · rw [List.mem_singleton.mp hx]
      rfl
  rw [ofElement?, parts]
  cases critical with
  | false => simp [show Oid.ofElement? id.element = some id from oid, Der.Element.octets?_octets]
  | true =>
    simp [show Oid.ofElement? id.element = some id from oid, Der.Element.octets?_octets,
      Der.Element.boolean?_boolean]

theorem ofElements?_elements {es : List Extension} (h : ∀ e ∈ es, e.Readable)
    (fits : (elements es).Fits) : ofElements? (elements es) = some es := by
  have parts : (elements es).sequence? = some (es.map (·.element)) := by
    apply Der.Element.sequence?_sequence _ fits
    intro x hx
    obtain ⟨e, -, rfl⟩ := List.mem_map.mp hx
    rfl
  rw [ofElements?, parts]
  apply Der.mapM_map_of_inverse
  intro e he
  exact ofElement?_element (h e he) (Der.Element.fits_of_mem_sequence fits (List.mem_map_of_mem he))

theorem readable_of_ofElement? {e : Der.Element} {x : Extension} (h : ofElement? e = some x) :
    x.Readable := by
  obtain ⟨parts, -, h⟩ := Option.bind_eq_some_iff.mp h
  split at h
  next =>
    obtain ⟨id, read, h⟩ := Option.bind_eq_some_iff.mp h
    obtain ⟨octets, -, h⟩ := Option.bind_eq_some_iff.mp h
    cases Option.some.inj h
    exact (Oid.element_of_ofElement? read).2
  next =>
    obtain ⟨id, read, h⟩ := Option.bind_eq_some_iff.mp h
    obtain ⟨critical, -, h⟩ := Option.bind_eq_some_iff.mp h
    obtain ⟨octets, -, h⟩ := Option.bind_eq_some_iff.mp h
    cases Option.some.inj h
    exact (Oid.element_of_ofElement? read).2
  next => cases h

theorem readable_of_ofElements? {e : Der.Element} {es : List Extension}
    (h : ofElements? e = some es) : ∀ x ∈ es, x.Readable := by
  obtain ⟨parts, -, h⟩ := Option.bind_eq_some_iff.mp h
  intro x hx
  obtain ⟨part, -, read⟩ := Der.exists_of_mem_mapM h x hx
  exact readable_of_ofElement? read

/-- Extensions kind by kind: all those of one section have its identifier, which no other section
has. -/
structure Separate (sections : List (Oid × List Extension)) : Prop where
  tagged : ∀ s ∈ sections, ∀ e ∈ s.2, e.oid = s.1
  distinct : (sections.map (·.1)).Nodup

namespace Separate

variable {first : Oid × List Extension} {sections : List (Oid × List Extension)}

theorem of_cons (h : Separate (first :: sections)) : Separate sections :=
  ⟨fun s hs => h.tagged s (List.mem_cons_of_mem _ hs), (List.nodup_cons.mp h.distinct).2⟩

theorem oid_ne (h : Separate (first :: sections)) :
    ∀ e ∈ sections.flatMap (·.2), e.oid ≠ first.1 := by
  intro e he same
  obtain ⟨s, hs, hes⟩ := List.mem_flatMap.mp he
  have tag := h.tagged s (List.mem_cons_of_mem _ hs) e hes
  have other := (List.nodup_cons.mp h.distinct).1
  exact other (List.mem_map.mpr ⟨s, hs, tag.symm.trans same⟩)

/-- The first extension of a kind is the first one of its section, unless that is empty and others
of the kind follow behind all sections. -/
theorem find? (h : Separate sections) {s : Oid × List Extension} (hs : s ∈ sections)
    (rest : List Extension) (free : s.2 = [] → ∀ e ∈ rest, e.oid ≠ s.1) :
    (sections.flatMap (·.2) ++ rest).find? (·.oid = s.1) = s.2.head? := by
  induction sections with
  | nil => simp at hs
  | cons first sections ih =>
    rw [List.flatMap_cons, List.append_assoc]
    by_cases same : s = first
    · subst same
      cases found : s.2 with
      | nil =>
        rw [List.nil_append, List.head?_nil, List.find?_eq_none]
        intro e he
        rcases List.mem_append.mp he with he | he
        · simpa using h.oid_ne e he
        · simpa using free found e he
      | cons e es =>
        have tag := h.tagged s (by simp) e (by simp [found])
        rw [List.cons_append, List.find?_cons_of_pos (by simpa using tag), List.head?_cons]
    · have later : s ∈ sections := (List.mem_cons.mp hs).resolve_left same
      -- The first section is of another kind, so it has nothing to be found.
      have absent : first.2.find? (·.oid = s.1) = none := by
        rw [List.find?_eq_none]
        intro e he
        have tag := h.tagged first (by simp) e he
        have other : first.1 ≠ s.1 := fun he =>
          (List.nodup_cons.mp h.distinct).1 (List.mem_map.mpr ⟨s, later, he.symm⟩)
        simpa [tag] using other
      rw [List.find?_append, absent, Option.none_or]
      exact ih h.of_cons later

end Separate

end CertAuthority.Extension
