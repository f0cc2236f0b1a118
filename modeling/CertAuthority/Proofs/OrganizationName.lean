import CertAuthority.Proofs.CommonName

namespace CertAuthority

namespace Text

/-- The number that digits spell, behind a minus or without. -/
def Spells (cs : List Char) (n : Int) : Prop :=
  (Numeral.IsNumeral cs ∧ n = Numeral.value cs)
    ∨ ∃ ds, cs = '-' :: ds ∧ Numeral.IsNumeral ds ∧ n = -Numeral.value ds

/-- The numbers of 64 bits with a sign. -/
def IsMachineSized (n : Int) : Prop := -2 ^ 63 ≤ n ∧ n < 2 ^ 63

section

variable {cs ds : List Char} {n m : Int}

theorem spells_minus_cons :
    Spells ('-' :: ds) n ↔ Numeral.IsNumeral ds ∧ n = -Numeral.value ds := by
  have sign : ¬ Numeral.IsNumeral ('-' :: ds) := by
    rintro ⟨-, digits⟩
    exact absurd (digits '-' (List.mem_cons_self ..)) (by decide)
  simp [Spells, sign]

theorem spells_of_ne_minus (h : ∀ ds, cs ≠ '-' :: ds) :
    Spells cs n ↔ Numeral.IsNumeral cs ∧ n = Numeral.value cs := by
  simp [Spells, h]

theorem Spells.unique (hn : Spells cs n) (hm : Spells cs m) : n = m := by
  rcases hn with ⟨digits, rfl⟩ | ⟨ds, rfl, -, rfl⟩
  · rcases hm with ⟨-, rfl⟩ | ⟨ds, rfl, -⟩
    · rfl
    · exact absurd (digits.2 '-' (List.mem_cons_self ..)) (by decide)
  · exact (spells_minus_cons.mp hm).2.symm

theorem any_magnitude {p : Nat → Bool} {q : Int → Prop} {f : Nat → Int}
    (same : ∀ k, p k = true ↔ q (f k)) : (isMachineInteger.magnitude? cs).any p = true
      ↔ ∃ n, (Numeral.IsNumeral cs ∧ n = f (Numeral.value cs)) ∧ q n := by
  simp only [Option.any_eq_true, isMachineInteger.magnitude?, Numeral.ofDigits?_ten_eq_some_iff,
    same]
  constructor
  · rintro ⟨_, ⟨digits, rfl⟩, small⟩
    exact ⟨_, ⟨digits, rfl⟩, small⟩
  · rintro ⟨_, ⟨digits, rfl⟩, small⟩
    exact ⟨_, ⟨digits, rfl⟩, small⟩

/-- Without a plus in front, numbers are told exactly if they fit in 64 bits. -/
theorem isMachineInteger_iff (plain : '+' ∉ cs) :
    isMachineInteger cs = true ↔ ∃ n, Spells cs n ∧ IsMachineSized n := by
  have below (k : Nat) : decide (k ≤ 2 ^ 63) = true ↔ IsMachineSized (-k) := by
    rw [decide_eq_true_eq, IsMachineSized]
    omega
  have above (k : Nat) : decide (k < 2 ^ 63) = true ↔ IsMachineSized k := by
    rw [decide_eq_true_eq, IsMachineSized]
    omega
  unfold isMachineInteger
  split
  next ds =>
    simp only [spells_minus_cons]
    exact any_magnitude below
  next => simp at plain
  next minus _ =>
    simp only [spells_of_ne_minus minus]
    exact any_magnitude above

end

end Text

namespace Field

/-- Two characters or more, all of them of labels or dots, between letters or digits. -/
structure IsSlug (s : String) : Prop where
  long : 2 ≤ s.length
  spelled : ∀ c ∈ s.toList, Text.IsLabelChar c ∨ c = '.'
  first : ∀ c ∈ s.toList.head?, c.isAlphanum = true
  last : ∀ c ∈ s.toList.getLast?, c.isAlphanum = true

/-- Words joined by single spaces, of two characters or more. -/
def IsLongTitle (s : String) : Prop := IsTitle s ∧ 2 ≤ s.length

def IsNumber (s : String) : Prop := ∃ n, Text.Spells s.toList n

section

variable {s : String}

theorem isSlug_iff : IsSlug s ↔ ¬ Text.byteSize s.toList < 2 ∧ s.toList.any Char.isUpper = false
    ∧ s.toList.all Text.isSlugChar = true
    ∧ Text.hasOuter (fun c => c = ' ' || c = '-' || c = '.') s.toList = false := by
  have spelled : s.toList.all Text.isSlugChar = true
      ↔ ∀ c ∈ s.toList, Text.IsLabelChar c ∨ c = '.' := by
    rw [List.all_eq_true]
    exact forall₂_congr fun c _ => Text.isSlugChar_iff.trans or_comm
  have size (chars : s.toList.all Text.isSlugChar = true) :
      Text.byteSize s.toList = s.length := by
    rw [← String.length_toList]
    refine Text.byteSize_of_printable fun c hc => ?_
    have char := Text.isNameChar_of_isSlugChar (List.all_eq_true.mp chars c hc)
    exact (Text.printable_of_isNameChar char).2
  -- The rule on capital letters refuses nothing that the one on characters would not.
  have lower (chars : s.toList.all Text.isSlugChar = true) :
      s.toList.any Char.isUpper = false := by
    rw [List.any_eq_false]
    intro c hc
    rw [Text.isUpper_of_isSlugChar (List.all_eq_true.mp chars c hc)]
    exact Bool.false_ne_true
  have outer (chars : s.toList.all Text.isSlugChar = true) :
      Text.hasOuter (fun c => c = ' ' || c = '-' || c = '.') s.toList = false
        ↔ (∀ c ∈ s.toList.head?, c.isAlphanum = true)
          ∧ ∀ c ∈ s.toList.getLast?, c.isAlphanum = true := by
    rw [Text.hasOuter_congr fun c hc => Text.isOuter_of_isSlugChar (List.all_eq_true.mp chars c hc),
      Text.hasOuter_eq_false_iff]
    simp only [Bool.not_eq_false']
  constructor
  · intro slug
    have chars := spelled.mpr slug.spelled
    rw [size chars, not_lt]
    exact ⟨slug.long, lower chars, chars, (outer chars).mpr ⟨slug.first, slug.last⟩⟩
  · rintro ⟨long, -, chars, ends⟩
    rw [size chars, not_lt] at long
    obtain ⟨first, last⟩ := (outer chars).mp ends
    exact ⟨long, spelled.mp chars, first, last⟩

theorem isLongTitle_iff : IsLongTitle s
    ↔ IsTitle s ∧ ¬ Text.byteSize (Text.trimWhile Text.isBlank s.toList) < 2 := by
  refine and_congr_right fun title => ?_
  obtain ⟨-, chars⟩ := isTitle_iff.mp title
  have printable : ∀ c ∈ s.toList, ' ' ≤ c ∧ c ≤ '~' :=
    fun c hc => Text.printable_of_isNameChar (List.all_eq_true.mp chars c hc)
  -- The only blanks of a title are its spaces, and none of these is cut off.
  have outer : Text.hasOuter Text.isBlank s.toList = false := by
    rw [Text.hasOuter_congr fun c hc => Text.isBlank_of_printable (printable c hc)]
    exact ((Text.isJoined_iff Text.not_isWordChar_space).mp title).2.1
  rw [Text.trimWhile_of_hasOuter outer, Text.byteSize_of_printable fun c hc => (printable c hc).2,
    String.length_toList, not_lt]

theorem brokenRule?_organizationId : organizationId.brokenRule? s = none
    ↔ IsSlug s ∧ Text.isMachineInteger s.toList = false := by
  rw [isSlug_iff, brokenRule?_eq_none]
  simp only [checks, unbroken_cons, unbroken_nil, and_true, decide_eq_false_iff_not,
    Bool.or_eq_false_iff, Bool.not_eq_false']
  tauto

theorem brokenRule?_organizationName : organizationName.brokenRule? s = none
    ↔ IsLongTitle s ∧ Text.isMachineInteger s.toList = false := by
  rw [isLongTitle_iff, isTitle_iff, brokenRule?_eq_none]
  simp only [checks, List.cons_append, unbroken_cons, unbroken_append, unbroken_nil, and_true,
    decide_eq_false_iff_not, Bool.not_eq_false']
  tauto

theorem IsSlug.plus_notMem (h : IsSlug s) : '+' ∉ s.toList := by
  intro plus
  have char := h.spelled '+' plus
  rw [Text.IsLabelChar] at char
  exact absurd char (by decide)

theorem IsTitle.plus_notMem (h : IsTitle s) : '+' ∉ s.toList := by
  obtain ⟨-, chars⟩ := isTitle_iff.mp h
  intro plus
  exact absurd (List.all_eq_true.mp chars '+' plus) (by decide)

/-- A slug is a number if it is all digits. -/
theorem IsSlug.isNumber_iff (h : IsSlug s) :
    IsNumber s ↔ ∀ c ∈ s.toList, c.isDigit = true := by
  have filled : s.toList ≠ [] := by
    rw [← List.length_pos_iff, String.length_toList]
    exact Nat.lt_of_lt_of_le Nat.zero_lt_two h.long
  have unsigned : ∀ ds, s.toList ≠ '-' :: ds := by
    intro ds signed
    have letter := h.first '-' (by rw [signed]; rfl)
    exact absurd letter (by decide)
  have spelled (n : Int) := Text.spells_of_ne_minus (n := n) unsigned
  simp only [IsNumber, spelled, exists_and_left, exists_eq, and_true, Numeral.IsNumeral]
  exact and_iff_right filled

end

/-- What a field makes of a text that has to be of a shape and no number: it refuses numbers, but
only those that fit in 64 bits. -/
structure RefusesNumber (f : Field) (shape : String → Prop) (s : String) : Prop where
  taken : f.check s = .ok ()
    ↔ shape s ∧ ¬ ∃ n, Text.Spells s.toList n ∧ Text.IsMachineSized n
  refused : f.check s ≠ .ok () → ∃ r, f.check s = .error (.input (.rule f s r))
  agrees : (f.check s = .ok () ↔ shape s ∧ ¬ IsNumber s)
    ↔ (shape s → ∀ n, Text.Spells s.toList n → Text.IsMachineSized n)

theorem refusesNumber_of_rules {f : Field} {shape : String → Prop}
    (plain : ∀ s, shape s → '+' ∉ s.toList)
    (rules : ∀ s, f.brokenRule? s = none ↔ shape s ∧ Text.isMachineInteger s.toList = false)
    (s : String) : f.RefusesNumber shape s := by
  have accepts : f.Accepts fun s =>
      shape s ∧ ¬ ∃ n, Text.Spells s.toList n ∧ Text.IsMachineSized n := by
    refine accepts_of_rules fun s => (rules s).trans (and_congr_right fun shaped => ?_)
    rw [← Bool.not_eq_true, Text.isMachineInteger_iff (plain s shaped)]
  refine ⟨accepts.taken s, fun other => accepts.refused s (mt (accepts.taken s).mpr other), ?_⟩
  rw [accepts.taken s]
  constructor
  · intro same shaped n spelled
    by_contra large
    have unseen : ¬ ∃ m, Text.Spells s.toList m ∧ Text.IsMachineSized m := by
      rintro ⟨m, other, sized⟩
      exact large (spelled.unique other ▸ sized)
    exact (same.mp ⟨shaped, unseen⟩).2 ⟨n, spelled⟩
  · intro sized
    refine and_congr_right fun shaped => not_congr ⟨?_, ?_⟩
    · rintro ⟨n, spelled, -⟩
      exact ⟨n, spelled⟩
    · rintro ⟨n, spelled⟩
      exact ⟨n, spelled, sized shaped n spelled⟩

/-- Whether a text is taken as the id or as a name of an organization. -/
structure OrganizationRefusesNumber (s : String) : Prop where
  id : organizationId.RefusesNumber IsSlug s
  digits : IsSlug s → (IsNumber s ↔ ∀ c ∈ s.toList, c.isDigit = true)
  name : organizationName.RefusesNumber IsLongTitle s

theorem organization_refusesNumber (s : String) : OrganizationRefusesNumber s where
  id := refusesNumber_of_rules (fun _ slug => slug.plus_notMem)
    (fun _ => brokenRule?_organizationId) s
  digits slug := slug.isNumber_iff
  name := refusesNumber_of_rules (fun _ title => title.1.plus_notMem)
    (fun _ => brokenRule?_organizationName) s

/-- The first numbers that are too long for 64 bits are taken. -/
theorem not_refused_sample :
    (organizationId.check "9223372036854775808" = .ok ()
        ∧ (∀ c ∈ "9223372036854775808".toList, c.isDigit = true)
        ∧ ¬ organizationId.Accepts fun s => IsSlug s ∧ ¬ ∀ c ∈ s.toList, c.isDigit = true)
      ∧ organizationName.check "-9223372036854775809" = .ok ()
        ∧ IsNumber "-9223372036854775809"
        ∧ ¬ organizationName.Accepts fun s => IsLongTitle s ∧ ¬ IsNumber s := by
  have id : organizationId.check "9223372036854775808" = .ok () := by decide +kernel
  have name : organizationName.check "-9223372036854775809" = .ok () := by decide +kernel
  have digits : ∀ c ∈ "9223372036854775808".toList, c.isDigit = true :=
    List.all_eq_true.mp (by decide +kernel)
  have behind : Numeral.IsNumeral "9223372036854775809".toList :=
    ⟨by decide, List.all_eq_true.mp (by decide +kernel)⟩
  have number : IsNumber "-9223372036854775809" := ⟨_, Or.inr ⟨_, rfl, behind, rfl⟩⟩
  refine ⟨⟨id, digits, fun law => ?_⟩, name, number, fun law => ?_⟩
  · exact ((law.taken _).mp id).2 digits
  · exact ((law.taken _).mp name).2 number

end Field

end CertAuthority
