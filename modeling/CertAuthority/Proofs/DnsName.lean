import CertAuthority.Proofs.Extension.Value
import CertAuthority.Proofs.Text.Joined

namespace CertAuthority

namespace Field

/-- The labels of a name. No dash stands before the first or behind the last, and the last has two
characters or more. -/
structure HasLabels (name : List Char) (labels : List (List Char)) : Prop where
  joined : name = ['.'].intercalate labels
  present : labels ≠ []
  spelled : ∀ l ∈ labels, l ≠ [] ∧ ∀ c ∈ l, Text.IsLabelChar c
  first : ∀ l ∈ labels.head?, l.head? ≠ some '-'
  last : ∀ l ∈ labels.getLast?, l.getLast? ≠ some '-' ∧ 2 ≤ l.length

/-- A DNS name: labels, behind a wildcard or not. -/
def IsDnsName (s : String) : Prop :=
  ∃ name labels, (s.toList = name ∨ s.toList = '*' :: '.' :: name) ∧ HasLabels name labels

section

variable {name : List Char} {labels : List (List Char)}

theorem HasLabels.isJoined (h : HasLabels name labels) : Text.IsJoined '.' Text.IsLabelChar name :=
  ⟨labels, h.joined, h.present, h.spelled⟩

theorem not_isLabelChar_dot : ¬ Text.IsLabelChar '.' := by
  rw [Text.IsLabelChar]
  decide

/-- A name can be cut into labels in one way only. -/
theorem exists_hasLabels_iff_splitOn :
    (∃ labels, HasLabels name labels) ↔ HasLabels name (name.splitOn '.') := by
  constructor
  · rintro ⟨labels, h⟩
    have whole : ∀ l ∈ labels, '.' ∉ l :=
      fun l hl dot => not_isLabelChar_dot ((h.spelled l hl).2 '.' dot)
    have same : name.splitOn '.' = labels := by
      rw [h.joined, List.splitOn_intercalate '.' whole h.present]
    rwa [same]
  · exact fun h => ⟨_, h⟩

theorem head?_ne_of_splitOn (start : name.head? ≠ some '.') :
    (∀ l ∈ (name.splitOn '.').head?, l.head? ≠ some '-') ↔ name.head? ≠ some '-' := by
  obtain ⟨first, later, split⟩ := List.exists_cons_of_ne_nil (List.splitOn_ne_nil '.' name)
  have found : (name.splitOn '.').head? = some first := by rw [split]; rfl
  have same := Text.head?_of_splitOn found
  rw [if_neg start] at same
  rw [found, ← same]
  simp

theorem hasLabels_splitOn_iff : HasLabels name (name.splitOn '.')
    ↔ Text.IsJoined '.' Text.IsLabelChar name ∧ name.head? ≠ some '-' ∧ name.getLast? ≠ some '-'
      ∧ 2 ≤ (Text.lastLabel name).length := by
  have ends (joined : Text.IsJoined '.' Text.IsLabelChar name) :
      ((∀ l ∈ (name.splitOn '.').head?, l.head? ≠ some '-') ↔ name.head? ≠ some '-')
        ∧ (Text.lastLabel name).getLast? = name.getLast? := by
    obtain ⟨-, outer, -⟩ := (Text.isJoined_iff not_isLabelChar_dot).mp joined
    obtain ⟨start, stop⟩ := Text.hasOuter_char_eq_false_iff.mp outer
    refine ⟨head?_ne_of_splitOn start, ?_⟩
    rw [Text.getLast?_lastLabel, if_neg stop]
  constructor
  · intro h
    obtain ⟨first, last⟩ := ends h.isJoined
    obtain ⟨dash, long⟩ := h.last _ (Text.getLast?_splitOn name)
    exact ⟨h.isJoined, first.mp h.first, last ▸ dash, long⟩
  · rintro ⟨joined, start, stop, long⟩
    obtain ⟨first, last⟩ := ends joined
    refine ⟨(List.intercalate_splitOn '.').symm, List.splitOn_ne_nil '.' name,
      (Text.isJoined_iff_splitOn not_isLabelChar_dot).mp joined, first.mpr start, ?_⟩
    intro l hl
    cases Option.some.inj ((Text.getLast?_splitOn name).symm.trans hl)
    exact ⟨last ▸ stop, long⟩

theorem exists_hasLabels_iff : (∃ labels, HasLabels name labels)
    ↔ name ≠ [] ∧ Text.hasOuter (fun c => c = '-' || c = '.') name = false
      ∧ Text.hasDouble '.' name = false ∧ name.all Text.isSlugChar = true
      ∧ 2 ≤ (Text.lastLabel name).length := by
  have outer : Text.hasOuter (fun c => c = '-' || c = '.') name = false
      ↔ (name.head? ≠ some '-' ∧ name.getLast? ≠ some '-')
        ∧ Text.hasOuter (· = '.') name = false := by
    rw [Text.hasOuter_or, Bool.or_eq_false_iff, Text.hasOuter_char_eq_false_iff]
  have chars : name.all Text.isSlugChar = true ↔ ∀ c ∈ name, c = '.' ∨ Text.IsLabelChar c := by
    rw [List.all_eq_true]
    exact forall₂_congr fun c _ => Text.isSlugChar_iff
  rw [exists_hasLabels_iff_splitOn, hasLabels_splitOn_iff, Text.isJoined_iff not_isLabelChar_dot,
    outer, chars]
  tauto

theorem HasLabels.head?_ne_star (h : HasLabels name labels) : name.head? ≠ some '*' := by
  intro star
  obtain ⟨-, -, -, chars⟩ := (Text.isJoined_iff not_isLabelChar_dot).mp h.isJoined
  have wrong := chars '*' (List.mem_of_mem_head? star)
  rw [Text.IsLabelChar] at wrong
  exact absurd wrong (by decide)

theorem withoutWildcard_of_ne {cs : List Char} (h : cs.head? ≠ some '*') :
    Text.withoutWildcard cs = cs := by
  unfold Text.withoutWildcard
  split
  next => simp at h
  next => rfl

theorem isDnsName_iff {s : String} :
    IsDnsName s ↔ ∃ labels, HasLabels (Text.withoutWildcard s.toList) labels := by
  -- A star is no character of a label, so only a wildcard is ever taken off.
  constructor
  · rintro ⟨name, labels, plain | wild, h⟩
    · rw [plain, withoutWildcard_of_ne h.head?_ne_star]
      exact ⟨labels, h⟩
    · rw [wild]
      exact ⟨labels, h⟩
  · rintro ⟨labels, h⟩
    refine ⟨_, labels, ?_, h⟩
    unfold Text.withoutWildcard
    split
    next wild => exact Or.inr wild
    next => exact Or.inl rfl

theorem brokenRule?_dnsName {s : String} : dnsName.brokenRule? s = none ↔ IsDnsName s := by
  rw [isDnsName_iff, exists_hasLabels_iff, brokenRule?_eq_none]
  simp only [checks, unbroken_cons, unbroken_nil, and_true]
  rw [List.isEmpty_eq_false_iff, Bool.not_eq_false', decide_eq_false_iff_not, not_lt]

end

/-- Accepted names are ASCII, so a listing of them can be written. -/
theorem element_of_dnsNames {ss : List String} (passed : ∀ s ∈ ss, dnsName.check s = .ok ()) :
    SubjectAltName.element ⟨ss⟩ = .ok (SubjectAltName.draft ⟨ss⟩) :=
  SubjectAltName.element_of_ascii fun s hs =>
    Der.isAscii_utf8 (ascii_of_dnsName (check_eq_ok_iff.mp (passed s hs)))

/-- Six octets frame each name, and six the whole listing. -/
theorem fits_draft {ss : List String}
    (room : (ss.map (·.utf8ByteSize + 6)).sum + 6 ≤ Der.lengthLimit) :
    Der.fits (SubjectAltName.draft ⟨ss⟩).encode = true := by
  have content : (Der.Element.encodeAll (ss.map SubjectAltName.dnsElement)).length
      ≤ (ss.map (·.utf8ByteSize + 6)).sum := by
    induction ss with
    | nil => exact Nat.le_refl 0
    | cons s ss ih =>
      rw [List.map_cons, List.sum_cons] at room
      have size : (SubjectAltName.dnsElement s).content.length ≤ s.utf8ByteSize := by
        simp [SubjectAltName.dnsElement, Der.utf8]
      have first := Der.Element.encode_length_le_of_content size (by omega)
      have later := ih (by omega)
      rw [List.map_cons, Der.Element.encodeAll_cons, List.length_append, List.map_cons,
        List.sum_cons]
      omega
  have whole := Der.Element.encode_length_le_of_content (e := SubjectAltName.draft ⟨ss⟩) content
    (by omega)
  exact decide_eq_true (whole.trans room)

/-- Which DNS names are taken, for which name a list is refused, and that alternative names can be
written of every list that is not, as far as the limit on lengths allows. -/
structure DnsNameCheckIff : Prop where
  name : dnsName.Accepts IsDnsName
  list : ∀ ss, dnsName.checkAll ss = .ok () ↔ ∀ s ∈ ss, dnsName.check s = .ok ()
  first : ∀ ss, dnsName.checkAll ss ≠ .ok () → ∃ front s rest e, ss = front ++ s :: rest
    ∧ (∀ x ∈ front, dnsName.check x = .ok ()) ∧ dnsName.check s = .error e
    ∧ dnsName.checkAll ss = .error e
  element : ∀ ss, dnsName.checkAll ss = .ok () →
    SubjectAltName.element ⟨ss⟩ = .ok (SubjectAltName.draft ⟨ss⟩)
  encoded : ∀ ss, dnsName.checkAll ss = .ok () → ExtensionValue.encode (SubjectAltName.mk ss)
    = withinLimit (SubjectAltName.draft ⟨ss⟩).encode
  written : ∀ ss, dnsName.checkAll ss = .ok () →
    ((∃ b, ExtensionValue.encode (SubjectAltName.mk ss) = .ok b
        ∧ ExtensionValue.decode SubjectAltName b = .ok ⟨ss⟩)
      ↔ Der.fits (SubjectAltName.draft ⟨ss⟩).encode = true)
  room : ∀ ss : List String, (ss.map (·.utf8ByteSize + 6)).sum + 6 ≤ Der.lengthLimit →
    Der.fits (SubjectAltName.draft ⟨ss⟩).encode = true

section

variable {ss : List String} (passed : dnsName.checkAll ss = .ok ())

include passed

theorem encode_of_dnsNames : ExtensionValue.encode (SubjectAltName.mk ss)
    = withinLimit (SubjectAltName.draft ⟨ss⟩).encode := by
  have listing : ExtensionValue.element (SubjectAltName.mk ss) = .ok (SubjectAltName.draft ⟨ss⟩) :=
    element_of_dnsNames (checkAll_eq_ok_iff.mp passed)
  rw [ExtensionValue.encode, listing, ok_bind]

theorem written_iff_fits : (∃ b, ExtensionValue.encode (SubjectAltName.mk ss) = .ok b
      ∧ ExtensionValue.decode SubjectAltName b = .ok ⟨ss⟩)
    ↔ Der.fits (SubjectAltName.draft ⟨ss⟩).encode = true := by
  constructor
  · rintro ⟨b, written, -⟩
    rw [encode_of_dnsNames passed] at written
    exact (withinLimit_eq_ok.mp written).1 ▸ (withinLimit_eq_ok.mp written).2
  · intro fits
    have written := (encode_of_dnsNames passed).trans (withinLimit_eq_ok.mpr ⟨rfl, fits⟩)
    exact ⟨_, written, ExtensionValue.decode_encode written⟩

end

theorem dnsName_check_iff : DnsNameCheckIff where
  name := accepts_of_rules fun _ => brokenRule?_dnsName
  list _ := checkAll_eq_ok_iff
  first _ refused := checkAll_first (mt checkAll_eq_ok_iff.mpr refused)
  element _ passed := element_of_dnsNames (checkAll_eq_ok_iff.mp passed)
  encoded _ passed := encode_of_dnsNames passed
  written _ passed := written_iff_fits passed
  room _ short := fits_draft short

/-- Some room of the limit is taken by the frame around each name. -/
theorem utf8ByteSize_lt_of_written {ss : List String} (passed : dnsName.checkAll ss = .ok ())
    {b : Bytes} (written : ExtensionValue.encode (SubjectAltName.mk ss) = .ok b) {s : String}
    (mem : s ∈ ss) : s.utf8ByteSize < Der.lengthLimit := by
  rw [encode_of_dnsNames passed] at written
  have fits := Der.Element.fits_of_encode (withinLimit_eq_ok.mp written).2
  have listed : SubjectAltName.dnsElement s ∈ ss.map SubjectAltName.dnsElement :=
    List.mem_map_of_mem mem
  have framed := (SubjectAltName.dnsElement s).content_length_add_two_le
  have size : (SubjectAltName.dnsElement s).content.length = s.utf8ByteSize := by
    simp [SubjectAltName.dnsElement, Der.utf8]
  have inside := (Der.Element.length_le_encodeAll listed).trans fits
  omega

/-- A label of as many letters. -/
def letters (n : Nat) : String := String.ofList (List.replicate n 'a')

theorem utf8ByteSize_letters (n : Nat) : (letters n).utf8ByteSize = n := by
  induction n with
  | zero => rfl
  | succ n ih =>
    have one : (String.singleton 'a').utf8ByteSize = 1 := rfl
    rw [letters] at ih ⊢
    rw [List.replicate_succ, String.ofList_cons, String.utf8ByteSize_append, ih, one, Nat.add_comm]

theorem isDnsName_letters {n : Nat} (two : 2 ≤ n) : IsDnsName (letters n) := by
  have letter : Text.IsLabelChar 'a' := by
    rw [Text.IsLabelChar]
    decide
  have only : ∀ c ∈ List.replicate n 'a', c = 'a' := fun c hc => List.eq_of_mem_replicate hc
  refine ⟨_, [List.replicate n 'a'], Or.inl String.toList_ofList, ?_, by simp, ?_, ?_, ?_⟩
  · simp
  · intro l hl
    cases List.mem_singleton.mp hl
    refine ⟨?_, fun c hc => only c hc ▸ letter⟩
    rw [Ne, List.replicate_eq_nil_iff]
    omega
  · rintro l ⟨rfl⟩ dash
    exact absurd (only _ (List.mem_of_mem_head? dash)) (by decide)
  · intro l hl
    cases Option.some.inj hl
    refine ⟨fun dash => ?_, two.trans_eq List.length_replicate.symm⟩
    exact absurd (only _ (List.mem_of_mem_getLast? dash)) (by decide)

/-- A name of one label that fills the limit is taken, but it cannot be written. -/
theorem not_written_letters :
    dnsName.checkAll [letters Der.lengthLimit] = .ok ()
      ∧ ¬ ∃ b, ExtensionValue.encode (SubjectAltName.mk [letters Der.lengthLimit]) = .ok b := by
  have passed : dnsName.checkAll [letters Der.lengthLimit] = .ok () := by
    refine checkAll_eq_ok_iff.mpr fun s hs => ?_
    rw [List.mem_singleton.mp hs]
    exact check_eq_ok_iff.mpr (brokenRule?_dnsName.mpr (isDnsName_letters (by decide)))
  refine ⟨passed, ?_⟩
  rintro ⟨b, written⟩
  have small := utf8ByteSize_lt_of_written passed written (List.mem_singleton_self _)
  rw [utf8ByteSize_letters] at small
  exact Nat.lt_irrefl _ small

end Field

end CertAuthority
