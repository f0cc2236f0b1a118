import CertAuthority.Proofs.Fault
import CertAuthority.Text.Rules
import Mathlib.Data.Char
import Mathlib.Order.Basic

namespace CertAuthority

namespace Text

theorem isUpper_iff {c : Char} : c.isUpper = true ↔ 65 ≤ c.toNat ∧ c.toNat ≤ 90 :=
  decide_eq_true_iff

theorem isLower_iff {c : Char} : c.isLower = true ↔ 97 ≤ c.toNat ∧ c.toNat ≤ 122 :=
  Bool.and_eq_true_iff.trans (and_congr decide_eq_true_iff decide_eq_true_iff)

theorem isDigit_iff {c : Char} : c.isDigit = true ↔ 48 ≤ c.toNat ∧ c.toNat ≤ 57 :=
  Bool.and_eq_true_iff.trans (and_congr decide_eq_true_iff decide_eq_true_iff)

theorem isAlphanum_eq (c : Char) : c.isAlphanum = (c.isUpper || c.isLower || c.isDigit) := rfl

/-- The characters of a label: lower case letters, digits and dashes. -/
def IsLabelChar (c : Char) : Prop := c.isLower = true ∨ c.isDigit = true ∨ c = '-'

/-- The characters of a word: letters, digits, underscores, dots and dashes. -/
def IsWordChar (c : Char) : Prop := c.isAlphanum = true ∨ c = '_' ∨ c = '.' ∨ c = '-'

theorem isSlugChar_iff {c : Char} : isSlugChar c = true ↔ c = '.' ∨ IsLabelChar c := by
  simp only [isSlugChar, Bool.or_eq_true, decide_eq_true_eq, IsLabelChar]
  tauto

theorem isNameChar_iff {c : Char} : isNameChar c = true ↔ c = ' ' ∨ IsWordChar c := by
  simp only [isNameChar, Bool.or_eq_true, decide_eq_true_eq, IsWordChar]
  tauto

theorem printable_of_isNameChar {c : Char} (h : isNameChar c = true) : ' ' ≤ c ∧ c ≤ '~' := by
  have range : 32 ≤ c.toNat ∧ c.toNat ≤ 126 := by
    simp only [isNameChar, isAlphanum_eq, Bool.or_eq_true, decide_eq_true_eq, isUpper_iff,
      isLower_iff, isDigit_iff] at h
    obtain (((((upper | lower) | digit) | rfl) | rfl) | rfl) | rfl := h
    · omega
    · omega
    · omega
    all_goals decide
  exact range

theorem isNameChar_of_isSlugChar {c : Char} (h : isSlugChar c = true) : isNameChar c = true := by
  simp only [isSlugChar, Bool.or_eq_true] at h
  obtain ((lower | digit) | dash) | dot := h
  · simp [isNameChar, isAlphanum_eq, lower]
  · simp [isNameChar, isAlphanum_eq, digit]
  · simp [isNameChar, dash]
  · simp [isNameChar, dot]

theorem forall_of_withoutWildcard {p : Char → Prop} {cs : List Char} (star : p '*') (dot : p '.')
    (h : ∀ c ∈ withoutWildcard cs, p c) : ∀ c ∈ cs, p c := by
  unfold withoutWildcard at h
  split at h
  next rest => simpa [star, dot] using h
  next => exact h

theorem hasOuter_eq_false_iff {p : Char → Bool} {cs : List Char} : hasOuter p cs = false
    ↔ (∀ c ∈ cs.head?, p c = false) ∧ ∀ c ∈ cs.getLast?, p c = false := by
  rw [hasOuter, Bool.or_eq_false_iff, Option.any_eq_false, Option.any_eq_false]
  exact Iff.rfl

theorem hasOuter_congr {p q : Char → Bool} {cs : List Char} (h : ∀ c ∈ cs, p c = q c) :
    hasOuter p cs = hasOuter q cs := by
  have edge (c? : Option Char) (found : ∀ c ∈ c?, c ∈ cs) : c?.any p = c?.any q := by
    cases c? with
    | none => rfl
    | some c => exact h c (found c rfl)
  rw [hasOuter, hasOuter, edge _ fun c hc => List.mem_of_mem_head? hc,
    edge _ fun c hc => List.mem_of_getLast? hc]

theorem hasOuter_char_eq_false_iff {x : Char} {cs : List Char} :
    hasOuter (· = x) cs = false ↔ cs.head? ≠ some x ∧ cs.getLast? ≠ some x := by
  have other (c? : Option Char) : (∀ c ∈ c?, decide (c = x) = false) ↔ c? ≠ some x := by
    cases c? <;> simp
  rw [hasOuter_eq_false_iff, other, other]

theorem hasOuter_or (p q : Char → Bool) (cs : List Char) :
    hasOuter (fun c => p c || q c) cs = (hasOuter p cs || hasOuter q cs) := by
  have either (c? : Option Char) : c?.any (fun c => p c || q c) = (c?.any p || c?.any q) := by
    cases c? <;> rfl
  rw [hasOuter, hasOuter, hasOuter, either, either, Bool.or_assoc, Bool.or_assoc,
    Bool.or_left_comm (cs.head?.any q)]

theorem byteSize_of_printable {cs : List Char} (h : ∀ c ∈ cs, c ≤ '~') :
    byteSize cs = cs.length := by
  induction cs with
  | nil => rfl
  | cons c cs ih =>
    obtain ⟨first, later⟩ := List.forall_mem_cons.mp h
    have small : c.val.toNat ≤ 126 := first
    have single : c.utf8Size = 1 := by
      rw [Char.utf8Size_eq_one_iff, UInt32.le_iff_toNat_le]
      exact Nat.le_succ_of_le small
    have rest := ih later
    unfold byteSize at rest ⊢
    rw [List.map_cons, List.foldr_cons, single, rest, List.length_cons, Nat.add_comm]

theorem trimWhile_of_hasOuter {p : Char → Bool} {cs : List Char} (h : hasOuter p cs = false) :
    trimWhile p cs = cs := by
  obtain ⟨start, stop⟩ := hasOuter_eq_false_iff.mp h
  have front : cs.dropWhile p = cs := by
    cases cs with
    | nil => rfl
    | cons c cs => exact List.dropWhile_cons_of_neg (by simp [start c rfl])
  have back : cs.reverse.dropWhile p = cs.reverse := by
    cases flipped : cs.reverse with
    | nil => rfl
    | cons c rest =>
      have last : cs.getLast? = some c := by rw [← List.head?_reverse, flipped]; rfl
      exact List.dropWhile_cons_of_neg (by simp [stop c last])
  rw [trimWhile, front, back, List.reverse_reverse]

/-- Of the characters of a slug, letters and digits are those that can stand at its ends. -/
theorem isOuter_of_isSlugChar {c : Char} (h : isSlugChar c = true) :
    (c = ' ' || c = '-' || c = '.') = !c.isAlphanum := by
  have inner (letter : c.isAlphanum = true) : (c = ' ' || c = '-' || c = '.') = !c.isAlphanum := by
    have apart (x : Char) (hx : x.isAlphanum = false) : decide (c = x) = false :=
      decide_eq_false fun same => Bool.false_ne_true (hx.symm.trans (same ▸ letter))
    rw [apart ' ' rfl, apart '-' rfl, apart '.' rfl, letter]
    rfl
  rcases isSlugChar_iff.mp h with rfl | lower | digit | rfl
  · decide
  · exact inner (by simp [isAlphanum_eq, lower])
  · exact inner (by simp [isAlphanum_eq, digit])
  · decide

theorem isUpper_of_isSlugChar {c : Char} (h : isSlugChar c = true) : c.isUpper = false := by
  rw [← Bool.not_eq_true, isUpper_iff]
  simp only [isSlugChar, Bool.or_eq_true, decide_eq_true_eq, isLower_iff, isDigit_iff] at h
  obtain ((lower | digit) | rfl) | rfl := h
  · omega
  · omega
  · decide
  · decide

theorem isBlank_of_printable {c : Char} (h : ' ' ≤ c ∧ c ≤ '~') : isBlank c = decide (c = ' ') := by
  have low : 32 ≤ c.toNat := h.1
  have high : c.toNat ≤ 126 := h.2
  have same : c = ' ' ↔ c.toNat = 32 := by
    rw [← Char.toNat_inj]
    rfl
  rw [Bool.eq_iff_iff]
  simp only [isBlank, same, Bool.or_eq_true, Bool.and_eq_true, decide_eq_true_eq]
  omega

end Text

namespace Field

theorem check_decides (f : Field) (s : String) :
    Decides (f.check s) (f.brokenRule? s = none) := by
  unfold check
  cases h : f.brokenRule? s with
  | none => exact Or.inl ⟨rfl, (), rfl⟩
  | some r => exact Or.inr ⟨by simp, _, rfl⟩

theorem checkAll_cons (f : Field) (s : String) (ss : List String) :
    f.checkAll (s :: ss) = f.check s >>= fun _ => f.checkAll ss := by
  rw [checkAll]
  cases f.check s <;> rfl

theorem checkAll_decides (f : Field) (ss : List String) :
    Decides (f.checkAll ss) (∀ s ∈ ss, f.brokenRule? s = none) := by
  induction ss with
  | nil => exact Or.inl ⟨by simp, (), rfl⟩
  | cons s ss ih =>
    rw [checkAll_cons]
    exact ((f.check_decides s).bind fun _ _ => ih).iff (by rw [List.forall_mem_cons])

/-- A field takes the texts of a language and refuses all others for a rule of its own. -/
structure Accepts (f : Field) (language : String → Prop) : Prop where
  taken : ∀ s, f.check s = .ok () ↔ language s
  refused : ∀ s, ¬ language s → ∃ r, f.check s = .error (.input (.rule f s r))

theorem check_eq_ok_iff {f : Field} {s : String} :
    f.check s = .ok () ↔ f.brokenRule? s = none := by
  unfold check
  cases f.brokenRule? s <;> simp

theorem accepts_of_rules {f : Field} {language : String → Prop}
    (h : ∀ s, f.brokenRule? s = none ↔ language s) : f.Accepts language where
  taken s := check_eq_ok_iff.trans (h s)
  refused s other := by
    obtain ⟨r, broken⟩ := Option.ne_none_iff_exists'.mp (mt (h s).mp other)
    exact ⟨r, by rw [check, broken]⟩

theorem checkAll_eq_ok_iff {f : Field} {ss : List String} :
    f.checkAll ss = .ok () ↔ ∀ s ∈ ss, f.check s = .ok () := by
  constructor
  · intro passed s hs
    exact check_eq_ok_iff.mpr ((f.checkAll_decides ss).of_ok passed s hs)
  · intro passed
    obtain ⟨_, whole⟩ :=
      (f.checkAll_decides ss).exists_ok fun s hs => check_eq_ok_iff.mp (passed s hs)
    exact whole

/-- Texts that are not all taken are refused for the first that is not. -/
theorem checkAll_first {f : Field} {ss : List String} (h : ¬ ∀ s ∈ ss, f.check s = .ok ()) :
    ∃ front s rest e, ss = front ++ s :: rest ∧ (∀ x ∈ front, f.check x = .ok ())
      ∧ f.check s = .error e ∧ f.checkAll ss = .error e := by
  induction ss with
  | nil => simp at h
  | cons s ss ih =>
    rw [checkAll_cons]
    cases first : f.check s with
    | error e => exact ⟨[], s, ss, e, rfl, by simp, first, rfl⟩
    | ok =>
      rw [List.forall_mem_cons, not_and] at h
      obtain ⟨front, x, rest, e, rfl, passed, refused, whole⟩ := ih (h first)
      refine ⟨s :: front, x, rest, e, rfl, ?_, refused, whole⟩
      exact List.forall_mem_cons.mpr ⟨first, passed⟩

/-- No rule of a list is broken. -/
def Unbroken (checks : List (Bool × Rule)) : Prop := ∀ check ∈ checks, check.1 = false

@[simp]
theorem unbroken_nil : Unbroken [] := List.forall_mem_nil _

@[simp]
theorem unbroken_cons {b : Bool} {r : Rule} {checks : List (Bool × Rule)} :
    Unbroken ((b, r) :: checks) ↔ b = false ∧ Unbroken checks := List.forall_mem_cons

@[simp]
theorem unbroken_append {checks more : List (Bool × Rule)} :
    Unbroken (checks ++ more) ↔ Unbroken checks ∧ Unbroken more := List.forall_mem_append

theorem brokenRule?_eq_none {f : Field} {s : String} :
    f.brokenRule? s = none ↔ Unbroken (f.checks s.toList) := by
  simp [brokenRule?, Unbroken]

/-- The id of an organization has at least two octets, is spelled with the characters of a slug and
starts with no dot. -/
theorem organizationId_spec {s : String} (h : organizationId.brokenRule? s = none) :
    ¬ Text.byteSize s.toList < 2 ∧ (∀ c ∈ s.toList, Text.isSlugChar c = true)
      ∧ s.toList.head? ≠ some '.' := by
  have rules := brokenRule?_eq_none.mp h
  simp only [checks, unbroken_cons] at rules
  obtain ⟨short, -, -, slug, -⟩ := rules
  simp only [Bool.or_eq_false_iff, Bool.not_eq_false', List.all_eq_true] at slug
  refine ⟨of_decide_eq_false short, slug.1, ?_⟩
  intro dot
  simp [Text.hasOuter, dot] at slug

theorem ascii_of_dnsName {s : String} (h : dnsName.brokenRule? s = none) :
    ∀ c ∈ s.toList, c ≤ '~' := by
  have rules := brokenRule?_eq_none.mp h
  simp only [checks, unbroken_cons] at rules
  obtain ⟨-, -, -, slug, -⟩ := rules
  refine Text.forall_of_withoutWildcard (p := (· ≤ '~')) (by decide) (by decide) ?_
  intro c hc
  have char : Text.isSlugChar c = true := by
    rw [Bool.not_eq_false', List.all_eq_true] at slug
    exact slug c hc
  exact (Text.printable_of_isNameChar (Text.isNameChar_of_isSlugChar char)).2

end Field

end CertAuthority
