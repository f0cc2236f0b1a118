import CertAuthority.Proofs.Text.Joined
import CertAuthority.Proofs.Text.Numeral

namespace CertAuthority

namespace Text

/-- Spaces are in order exactly if they separate words. -/
theorem isJoined_space_iff {p : Char → Prop} {cs : List Char} (apart : ¬ p ' ') :
    IsJoined ' ' p cs
      ↔ Field.Unbroken (Field.spacing cs) ∧ ∀ c ∈ cs, c = ' ' ∨ p c := by
  rw [isJoined_iff apart]
  simp [Field.spacing, and_assoc]

theorem not_isWordChar_space : ¬ IsWordChar ' ' := by
  rw [IsWordChar]
  decide

theorem isClientNameChar_iff {c : Char} :
    isClientNameChar c = true ↔ c = ' ' ∨ IsWordChar c ∨ c = '@' := by
  rw [isClientNameChar, Bool.or_eq_true, isNameChar_iff, decide_eq_true_eq, or_assoc]

end Text

namespace Field

/-- Words joined by single spaces. -/
def IsTitle (s : String) : Prop := Text.IsJoined ' ' Text.IsWordChar s.toList

def IsAuthorityName (s : String) : Prop := IsTitle s ∧ ¬ Numeral.IsNumeral s.toList

/-- Words joined by single spaces, of which the words can be addresses. -/
def IsClientName (s : String) : Prop :=
  Text.IsJoined ' ' (fun c => Text.IsWordChar c ∨ c = '@') s.toList

section

variable {s : String}

theorem isTitle_iff : IsTitle s ↔ Unbroken (spacing s.toList)
    ∧ s.toList.all Text.isNameChar = true := by
  rw [IsTitle, Text.isJoined_space_iff Text.not_isWordChar_space, List.all_eq_true]
  exact and_congr_right fun _ => forall₂_congr fun c _ => Text.isNameChar_iff.symm

theorem isClientName_iff : IsClientName s ↔ Unbroken (spacing s.toList)
    ∧ s.toList.all Text.isClientNameChar = true := by
  have apart : ¬ (Text.IsWordChar ' ' ∨ ' ' = '@') :=
    not_or.mpr ⟨Text.not_isWordChar_space, by decide⟩
  rw [IsClientName, Text.isJoined_space_iff apart, List.all_eq_true]
  exact and_congr_right fun _ => forall₂_congr fun c _ => Text.isClientNameChar_iff.symm

theorem IsTitle.toList_ne_nil (h : IsTitle s) : s.toList ≠ [] :=
  ((Text.isJoined_iff Text.not_isWordChar_space).mp h).1

theorem brokenRule?_caCommonName : caCommonName.brokenRule? s = none ↔ IsAuthorityName s := by
  have digits : IsTitle s → (s.toList.all Char.isDigit = false ↔ ¬ Numeral.IsNumeral s.toList) := by
    intro title
    rw [← Bool.not_eq_true, List.all_eq_true, Numeral.IsNumeral,
      and_iff_right title.toList_ne_nil]
  rw [IsAuthorityName, ← and_congr_right digits, isTitle_iff, brokenRule?_eq_none]
  simp only [checks, unbroken_append, unbroken_cons, unbroken_nil, and_true, Bool.not_eq_false']
  tauto

theorem brokenRule?_clientCommonName :
    clientCommonName.brokenRule? s = none ↔ IsClientName s := by
  rw [isClientName_iff, brokenRule?_eq_none]
  simp [checks]

theorem IsTitle.isClientName (h : IsTitle s) : IsClientName s := by
  obtain ⟨words, joined, present, spelled⟩ := h
  refine ⟨words, joined, present, fun w hw => ?_⟩
  obtain ⟨filled, chars⟩ := spelled w hw
  exact ⟨filled, fun c hc => Or.inl (chars c hc)⟩

end

/-- Which common names are taken, and that what an authority can be called a client can be, too. -/
structure CommonNameCheckIff : Prop where
  authority : caCommonName.Accepts IsAuthorityName
  client : clientCommonName.Accepts IsClientName
  weaker : ∀ s, caCommonName.check s = .ok () → clientCommonName.check s = .ok ()

theorem commonName_check_iff : CommonNameCheckIff where
  authority := accepts_of_rules fun _ => brokenRule?_caCommonName
  client := accepts_of_rules fun _ => brokenRule?_clientCommonName
  weaker s passed := by
    have name := brokenRule?_caCommonName.mp (check_eq_ok_iff.mp passed)
    exact check_eq_ok_iff.mpr (brokenRule?_clientCommonName.mpr name.1.isClientName)

end Field

end CertAuthority
