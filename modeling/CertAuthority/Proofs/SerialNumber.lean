import CertAuthority.Proofs.Certificate.Contents
import CertAuthority.Proofs.Text.Numeral

namespace CertAuthority

namespace SerialNumber

theorem parse_decimal (n : SerialNumber) : parse (Numeral.decimal n) 10 = .ok n := by
  have plain : ∀ c ∈ Numeral.digits 10 n, c ≠ '_' ∧ c ≠ '+' :=
    Numeral.forall_mem_digits (by decide) (by decide) n
  have text : (Numeral.decimal n).toList = Numeral.digits 10 n := String.toList_ofList
  have spelled : Numeral.ofDigits? 10 (Numeral.digits 10 n) = some n :=
    Numeral.ofDigits?_digits (by decide) (by decide) n
  have kept : (Numeral.digits 10 n).filter (· ≠ '_') = Numeral.digits 10 n :=
    List.filter_eq_self.mpr fun c hc => by simpa using (plain c hc).1
  rw [parse, text]
  cases digits : Numeral.digits 10 n with
  | nil => exact absurd digits (Numeral.digits_ne_nil 10 n)
  | cons c rest =>
    rw [digits] at plain spelled kept
    have first := plain c (by simp)
    have read : ofDigits? 10 (c :: rest) = some n := by
      rw [ofDigits?]
      · rw [kept, spelled]
      · simp
      · intro tail h
        exact first.1 (List.cons.inj h).1
    rw [if_neg (by simp), if_neg (by decide)]
    simp only [List.cons.injEq, first.2, false_and, imp_self, implies_true, read]

theorem decimal_injective : Function.Injective Numeral.decimal := by
  intro m n h
  have read := parse_decimal m
  rw [h, parse_decimal n] at read
  exact (Except.ok.inj read).symm

/-- Digits and underscores in any order, and the values of the digits among them. -/
inductive Spells (base : Nat) : List Char → List Nat → Prop
  | nil : Spells base [] []
  | underscore {cs : List Char} {ds : List Nat} (later : Spells base cs ds) :
      Spells base ('_' :: cs) ds
  | digit {c : Char} {d : Nat} {cs : List Char} {ds : List Nat} (first : Numeral.IsDigit base c d)
      (later : Spells base cs ds) : Spells base (c :: cs) (d :: ds)

/-- A text of a number in a base: at most one plus sign, a digit, then digits and underscores. Each
digit counts by its place among the digits. -/
def IsWritten (base : Nat) (text : String) (n : Nat) : Prop :=
  ∃ sign c d cs ds, text.toList = sign ++ c :: cs ∧ (sign = [] ∨ sign = ['+'])
    ∧ Numeral.IsDigit base c d ∧ Spells base cs ds ∧ Nat.ofDigits base (d :: ds).reverse = n

section

variable {base : Nat}

theorem ne_of_isDigit (limit : base ≤ 36) {c : Char} {d : Nat} (h : Numeral.IsDigit base c d) :
    c ≠ '_' ∧ c ≠ '+' := by
  have digit : ∀ d < 36, (Numeral.digitChar d ≠ '_' ∧ Numeral.digitChar d ≠ '+')
      ∧ (Numeral.digitChar d).toUpper ≠ '_' ∧ (Numeral.digitChar d).toUpper ≠ '+' := by decide
  obtain ⟨small, rfl | rfl⟩ := h
  · exact (digit d (by omega)).1
  · exact (digit d (by omega)).2

theorem spells_iff (limit : base ≤ 36) {cs : List Char} {ds : List Nat} :
    Spells base cs ds ↔ List.Forall₂ (Numeral.IsDigit base) (cs.filter (· ≠ '_')) ds := by
  constructor
  · intro h
    induction h with
    | nil => exact .nil
    | underscore _ ih => exact ih
    | digit first _ ih =>
      rw [List.filter_cons_of_pos (by simpa using (ne_of_isDigit limit first).1)]
      exact .cons first ih
  · intro h
    induction cs generalizing ds with
    | nil =>
      cases h
      exact .nil
    | cons c cs ih =>
      by_cases gap : c = '_'
      · subst gap
        exact .underscore (ih h)
      · rw [List.filter_cons_of_pos (by simpa using gap)] at h
        cases h with
        | cons first later => exact .digit first (ih later)

theorem ofDigits?_eq_some_iff (limit : base ≤ 36) {cs : List Char} {n : Nat} :
    ofDigits? base cs = some n ↔ ∃ c d rest ds, cs = c :: rest ∧ Numeral.IsDigit base c d
      ∧ Spells base rest ds ∧ Nat.ofDigits base (d :: ds).reverse = n := by
  unfold ofDigits?
  split
  next => simp
  next =>
    constructor
    · intro h
      cases h
    · rintro ⟨c, d, rest, ds, same, digit, -⟩
      cases same
      exact absurd rfl (ne_of_isDigit limit digit).1
  next filled leading =>
    rw [Numeral.ofDigits?_eq_some_iff limit]
    obtain ⟨c, rest, rfl⟩ := List.exists_cons_of_ne_nil filled
    have first : c ≠ '_' := fun h => leading rest (by rw [h])
    rw [List.filter_cons_of_pos (by simpa using first)]
    constructor
    · rintro ⟨-, ds, digits, value⟩
      cases digits with
      | cons digit later =>
        exact ⟨c, _, rest, _, rfl, digit, (spells_iff limit).mpr later, value⟩
    · rintro ⟨c, d, rest, ds, same, digit, later, value⟩
      cases same
      exact ⟨by simp, d :: ds, .cons digit ((spells_iff limit).mp later), value⟩

def unsigned : List Char → List Char
  | '+' :: rest => rest
  | cs => cs

theorem isWritten_iff (limit : base ≤ 36) (text : String) (n : Nat) :
    IsWritten base text n ↔ ofDigits? base (unsigned text.toList) = some n := by
  rw [ofDigits?_eq_some_iff limit]
  constructor
  · rintro ⟨sign, c, d, cs, ds, whole, rfl | rfl, digit, later, value⟩
    · have plain : unsigned text.toList = c :: cs := by
        rw [whole, List.nil_append, unsigned]
        intro rest h
        exact (ne_of_isDigit limit digit).2 (List.cons.inj h).1
      exact ⟨c, d, cs, ds, plain, digit, later, value⟩
    · have plus : unsigned text.toList = c :: cs := by rw [whole]; rfl
      exact ⟨c, d, cs, ds, plus, digit, later, value⟩
  · rintro ⟨c, d, cs, ds, stripped, digit, later, value⟩
    unfold unsigned at stripped
    split at stripped
    next rest whole =>
      rw [stripped] at whole
      exact ⟨['+'], c, d, cs, ds, whole, Or.inr rfl, digit, later, value⟩
    next => exact ⟨[], c, d, cs, ds, stripped, Or.inl rfl, digit, later, value⟩

theorem IsWritten.unique (limit : base ≤ 36) {text : String} {m n : Nat}
    (hm : IsWritten base text m) (hn : IsWritten base text n) : m = n := by
  rw [isWritten_iff limit] at hm hn
  exact Option.some.inj (hm.symm.trans hn)

/-- What reading a text in a base comes to: the number that is written, or that there is none. -/
theorem parse_cases (text : String) (base : Nat) :
    (∃ n, parse text base = .ok n ∧ 2 ≤ base ∧ base ≤ 36 ∧ IsWritten base text n)
      ∨ ((∃ e, parse text base = .error (.input e))
        ∧ ∀ n, 2 ≤ base → base ≤ 36 → ¬ IsWritten base text n) := by
  unfold parse
  split
  next empty =>
    refine Or.inr ⟨⟨_, rfl⟩, fun n _ _ written => ?_⟩
    obtain ⟨sign, c, d, cs, ds, whole, -⟩ := written
    rw [whole] at empty
    simp at empty
  next =>
    split
    next => exact Or.inr ⟨⟨_, rfl⟩, fun n valid limit _ => by omega⟩
    next inside =>
      have limit : base ≤ 36 := by omega
      simp only
      split
      next n read => exact Or.inl ⟨n, rfl, by omega, limit, (isWritten_iff limit text n).mpr read⟩
      next unread =>
        refine Or.inr ⟨⟨_, rfl⟩, fun n _ _ written => ?_⟩
        have read := (isWritten_iff limit text n).mp written
        cases read.symm.trans unread

theorem parse_eq_ok_iff {text : String} {n : Nat} :
    parse text base = .ok n ↔ 2 ≤ base ∧ base ≤ 36 ∧ IsWritten base text n := by
  rcases parse_cases text base with ⟨m, read, valid, limit, written⟩ | ⟨⟨e, failed⟩, none⟩
  · rw [read]
    constructor
    · intro same
      cases Except.ok.inj same
      exact ⟨valid, limit, written⟩
    · rintro ⟨-, -, other⟩
      rw [written.unique limit other]
  · rw [failed]
    constructor
    · intro never
      cases never
    · rintro ⟨valid, limit, written⟩
      exact absurd written (none n valid limit)

end

/-- Serial numbers and their texts: which texts are read and as what number, how the others are
refused, and what is known of the decimal text of each number. -/
structure ParseIffWritten : Prop where
  read : ∀ text base n, parse text base = .ok n ↔ 2 ≤ base ∧ base ≤ 36 ∧ IsWritten base text n
  refused : ∀ text base, (∃ n, parse text base = .ok n) ∨ ∃ e, parse text base = .error (.input e)
  restored : ∀ n, parse (Numeral.decimal n) 10 = .ok n
  leading : ∀ n, (Numeral.decimal n).toList.head? = some '0' ↔ n = 0
  distinct : ∀ m n, Numeral.decimal m = Numeral.decimal n ↔ m = n

/-- A text is read exactly if it is written in digits of a base that has digits, as the number that
they spell, and the decimal text of a number is its own. -/
theorem parse_iff_written : ParseIffWritten where
  read _ _ _ := parse_eq_ok_iff
  refused text base := by
    rcases parse_cases text base with ⟨n, read, -⟩ | ⟨failed, -⟩
    · exact Or.inl ⟨n, read⟩
    · exact Or.inr failed
  restored := parse_decimal
  leading n := by
    rw [Numeral.decimal, String.toList_ofList]
    exact Numeral.head?_digits_eq_zero_iff (by decide) (by decide) n
  distinct _ _ := decimal_injective.eq_iff

/-- Underscores count for nothing, and capitals and other letters for the same. -/
example : parse "+fF_0_" 16 = .ok 0xff0 := by decide

end SerialNumber

end CertAuthority
