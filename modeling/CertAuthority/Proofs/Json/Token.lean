import CertAuthority.Json.Printer
import CertAuthority.Json.Token
import CertAuthority.Proofs.Text.Numeral

namespace CertAuthority.Json

/-- Whether a part of a string is read back as it was written. A control character is read back as
its unit, unless it has an escape of its own. -/
def Piece.isReadable : Piece → Bool
  | .char c => !(c < ' ') || ['\x08', '\x0c', '\n', '\r', '\t'].contains c
  | .unit n => n < 0x10000

/-- Whether a number has the digits that reading asks for, and no zeros in front. -/
def Number.isReadable (n : Number) : Bool :=
  n.whole ≠ [] && n.whole.all Char.isDigit && (n.whole.head? ≠ some '0' || n.whole = ['0'])
    && n.fraction.all Char.isDigit
    && n.exponent.all fun (_, ds) => ds ≠ [] && ds.all Char.isDigit

mutual

/-- Whether all strings and numbers in a value are read back as they were written. -/
def isReadable : Json → Bool
  | null => true
  | bool _ => true
  | number n => n.isReadable
  | string pieces => pieces.all (·.isReadable)
  | array items => areReadable items
  | object members => areReadableMembers members

def areReadable : List Json → Bool
  | [] => true
  | j :: rest => isReadable j && areReadable rest

def areReadableMembers : List (List Piece × Json) → Bool
  | [] => true
  | (key, j) :: rest => key.all (·.isReadable) && isReadable j && areReadableMembers rest

end

namespace Token

theorem escapeUnit_eq {n : Nat} (h : n < 0x10000) :
    escapeUnit n = ['\\', 'u', Numeral.digitChar (n / 4096), Numeral.digitChar (n / 256 % 16),
      Numeral.digitChar (n / 16 % 16), Numeral.digitChar (n % 16)] := by
  have one {m : Nat} (small : m < 16) : Numeral.digits 16 m = [Numeral.digitChar m] := by
    rw [Numeral.digits, if_pos (Or.inr small)]
  have more {m : Nat} (large : 16 ≤ m) :
      Numeral.digits 16 m = Numeral.digits 16 (m / 16) ++ [Numeral.digitChar (m % 16)] := by
    rw [Numeral.digits, if_neg (by omega)]
  unfold escapeUnit
  by_cases h1 : n < 16
  · rw [one h1, show n / 4096 = 0 by omega, show n / 256 % 16 = 0 by omega,
      show n / 16 % 16 = 0 by omega, show n % 16 = n by omega]
    rfl
  by_cases h2 : n < 256
  · rw [more (by omega), one (show n / 16 < 16 by omega), show n / 4096 = 0 by omega,
      show n / 256 % 16 = 0 by omega, show n / 16 % 16 = n / 16 by omega]
    rfl
  by_cases h3 : n < 4096
  · rw [more (by omega), more (show 16 ≤ n / 16 by omega), one (show n / 16 / 16 < 16 by omega),
      Nat.div_div_eq_div_mul, show n / 4096 = 0 by omega, show n / 256 % 16 = n / 256 by omega]
    rfl
  · rw [more (by omega), more (show 16 ≤ n / 16 by omega), more (show 16 ≤ n / 16 / 16 by omega),
      one (show n / 16 / 16 / 16 < 16 by omega), show n / 16 / 16 / 16 = n / 4096 by omega,
      show n / 16 / 16 % 16 = n / 256 % 16 by omega]
    rfl

theorem readString_unit {n : Nat} (h : n < 0x10000) (rest : List Char) :
    readString (escapeUnit n ++ rest)
      = (readString rest).map fun (pieces, rest) => (.unit n :: pieces, rest) := by
  have digit {d : Nat} (small : d < 16) := Numeral.digitValue?_digitChar d (by omega)
  have value : Numeral.ofDigits? 16 [Numeral.digitChar (n / 4096),
      Numeral.digitChar (n / 256 % 16), Numeral.digitChar (n / 16 % 16),
      Numeral.digitChar (n % 16)] = some n := by
    have whole : (((n / 4096) * 16 + n / 256 % 16) * 16 + n / 16 % 16) * 16 + n % 16 = n := by
      omega
    simp [Numeral.ofDigits?, digit (show n / 4096 < 16 by omega),
      digit (show n / 256 % 16 < 16 by omega), digit (show n / 16 % 16 < 16 by omega),
      digit (show n % 16 < 16 by omega), show n / 4096 < 16 by omega,
      Nat.mod_lt, whole]
  rw [escapeUnit_eq h]
  simp only [List.cons_append, List.nil_append]
  rw [readString, value]

theorem readString_cons {c : Char} (quote : c ≠ '"') (escape : c ≠ '\\') (control : ¬ c < ' ')
    (rest : List Char) : readString (c :: rest)
      = (readString rest).map fun (pieces, rest) => (.char c :: pieces, rest) := by
  rw [readString]
  · rw [if_neg (by simp [control, escape])]
  · exact quote
  · exact fun _ _ _ _ _ h _ => escape h
  · exact fun _ _ h _ => escape h

theorem readString_piece {p : Piece} (h : p.isReadable = true) (rest : List Char) :
    readString (renderPiece p ++ rest)
      = (readString rest).map fun (pieces, rest) => (p :: pieces, rest) := by
  cases p with
  | unit n => exact readString_unit (of_decide_eq_true h) rest
  | char c =>
    rw [renderPiece, escape]
    split
    next hc => subst c; rfl
    next quote =>
    split
    next hc => subst c; rfl
    next back =>
    split
    next hc => subst c; rfl
    next backspace =>
    split
    next hc => subst c; rfl
    next page =>
    split
    next hc => subst c; rfl
    next feed =>
    split
    next hc => subst c; rfl
    next carriage =>
    split
    next hc => subst c; rfl
    next tab =>
      -- No control character is left.
      have control : ¬ c < ' ' := by
        intro low
        simp [Piece.isReadable, low, backspace, page, feed, carriage, tab] at h
      rw [if_neg control]
      exact readString_cons quote back control rest

theorem readString_pieces {pieces : List Piece} (h : pieces.all (·.isReadable) = true)
    (rest : List Char) :
    readString (pieces.flatMap renderPiece ++ '"' :: rest) = some (pieces, rest) := by
  induction pieces with
  | nil => rfl
  | cons p pieces ih =>
    obtain ⟨first, later⟩ := Bool.and_eq_true_iff.mp (List.all_cons ▸ h)
    rw [List.flatMap_cons, List.append_assoc, readString_piece first, ih later]
    rfl

theorem read_renderString {pieces : List Piece} (h : pieces.all (·.isReadable) = true)
    (rest : List Char) : read (renderString pieces ++ rest) = some (.string pieces, rest) := by
  have text : renderString pieces ++ rest
      = '"' :: (pieces.flatMap renderPiece ++ '"' :: rest) := by
    simp [renderString]
  rw [text, read, readString_pieces h]
  rfl

/-- Whether a text that follows a number cannot be taken for a part of it. -/
def Ends (rest : List Char) : Prop :=
  ∀ c ∈ rest.head?, c.isDigit = false ∧ c ≠ '.' ∧ c ≠ 'e' ∧ c ≠ 'E'

theorem ends_nil : Ends [] := by simp [Ends]

theorem ends_cons {c : Char} (h : c.isDigit = false ∧ c ≠ '.' ∧ c ≠ 'e' ∧ c ≠ 'E')
    (rest : List Char) : Ends (c :: rest) := by
  simpa [Ends] using h

theorem readDigits_append {ds : List Char} (some_digit : ds ≠ [])
    (digits : ds.all Char.isDigit = true) {rest : List Char}
    (stop : ∀ c ∈ rest.head?, c.isDigit = false) :
    readDigits (ds ++ rest) = some (ds, rest) := by
  have all : ∀ c ∈ ds, c.isDigit = true := List.all_eq_true.mp digits
  have taken : rest.takeWhile Char.isDigit = [] ∧ rest.dropWhile Char.isDigit = rest := by
    cases rest with
    | nil => exact ⟨rfl, rfl⟩
    | cons c rest => simp [stop c rfl]
  rw [readDigits, List.takeWhile_append_of_pos all, List.dropWhile_append_of_pos all, taken.1,
    taken.2, List.append_nil]
  cases ds with
  | nil => exact absurd rfl some_digit
  | cons => rfl

theorem readFraction_append {ds : List Char} (digits : ds.all Char.isDigit = true)
    {rest : List Char} (stop : ∀ c ∈ rest.head?, c.isDigit = false ∧ c ≠ '.') :
    readFraction ((if ds.isEmpty then [] else '.' :: ds) ++ rest) = some (ds, rest) := by
  cases ds with
  | cons d ds => exact readDigits_append (by simp) digits fun c hc => (stop c hc).1
  | nil =>
    cases rest with
    | nil => rfl
    | cons c rest =>
      have other := (stop c rfl).2
      simp [readFraction, other]

theorem exponentSign_append (negative : Bool) {ds : List Char} (some_digit : ds ≠ [])
    (digits : ds.all Char.isDigit = true) (rest : List Char) :
    exponentSign (renderSign negative ++ ds ++ rest) = (negative, ds ++ rest) := by
  cases negative with
  | true => rfl
  | false =>
    cases ds with
    | nil => exact absurd rfl some_digit
    | cons d ds =>
      have digit : d.isDigit = true := List.all_eq_true.mp digits d List.mem_cons_self
      show exponentSign (d :: (ds ++ rest)) = _
      unfold exponentSign
      split
      next h => cases h; cases digit
      next h => cases h; cases digit
      next => rfl

/-- An exponent as it stands behind a number. -/
def exponentText : Option (Bool × List Char) → List Char
  | none => []
  | some (negative, ds) => 'e' :: (renderSign negative ++ ds)

theorem readExponent_append {e : Option (Bool × List Char)}
    (digits : e.all (fun (_, ds) => ds ≠ [] && ds.all Char.isDigit) = true) {rest : List Char}
    (ends : Ends rest) : readExponent (exponentText e ++ rest) = some (e, rest) := by
  match e with
  | none =>
    cases rest with
    | nil => rfl
    | cons c rest =>
      obtain ⟨-, -, lower, upper⟩ := ends c rfl
      simp [exponentText, readExponent, lower, upper]
  | some (negative, ds) =>
    simp only [Option.all_some, Bool.and_eq_true, decide_eq_true_eq] at digits
    show readExponent ('e' :: (renderSign negative ++ ds ++ rest)) = _
    rw [readExponent, if_pos (Or.inl rfl), exponentSign_append negative digits.1 digits.2]
    dsimp only
    rw [readDigits_append digits.1 digits.2 fun c hc => (ends c hc).1]
    rfl

theorem readMagnitude_append {n : Number} (h : n.isReadable = true) {rest : List Char}
    (ends : Ends rest) :
    readMagnitude n.negative (n.whole ++ (if n.fraction.isEmpty then [] else '.' :: n.fraction)
      ++ exponentText n.exponent ++ rest) = some (.number n, rest) := by
  simp only [Number.isReadable, Bool.and_eq_true, Bool.or_eq_true, decide_eq_true_eq] at h
  obtain ⟨⟨⟨⟨some_digit, digits⟩, zeros⟩, fraction⟩, exponent⟩ := h
  have exponent_ends : ∀ c ∈ (exponentText n.exponent ++ rest).head?,
      c.isDigit = false ∧ c ≠ '.' := by
    cases hn : n.exponent with
    | none => exact fun c hc => ⟨(ends c hc).1, (ends c hc).2.1⟩
    | some e => rintro c ⟨rfl⟩; exact ⟨rfl, by decide⟩
  have fraction_ends : ∀ c ∈ ((if n.fraction.isEmpty then [] else '.' :: n.fraction)
      ++ (exponentText n.exponent ++ rest)).head?, c.isDigit = false := by
    cases hn : n.fraction with
    | nil => exact fun c hc => (exponent_ends c hc).1
    | cons => rintro c ⟨rfl⟩; rfl
  have no_zeros : ¬ (n.whole.head? = some '0' ∧ n.whole ≠ ['0']) := by tauto
  simp only [List.append_assoc, readMagnitude, readDigits_append some_digit digits fraction_ends,
    Option.bind_eq_bind, Option.bind_some, readFraction_append fraction exponent_ends,
    readExponent_append exponent ends, if_neg no_zeros]

theorem read_of_digit {c : Char} (h : c.isDigit = true) (cs : List Char) :
    read (c :: cs) = readMagnitude false (c :: cs) := by
  unfold read
  split
  all_goals first
    | rfl
    | next heq => cases heq; cases h

theorem read_renderNumber {n : Number} (h : n.isReadable = true) {rest : List Char}
    (ends : Ends rest) : read (renderNumber n ++ rest) = some (.number n, rest) := by
  have magnitude := readMagnitude_append h ends
  have text : renderNumber n = renderSign n.negative ++ (n.whole
      ++ (if n.fraction.isEmpty then [] else '.' :: n.fraction) ++ exponentText n.exponent) := by
    cases exponent : n.exponent with
    | none => simp [renderNumber, exponentText, exponent]
    | some e => simp [renderNumber, exponentText, exponent]
  rw [text, List.append_assoc]
  cases negative : n.negative with
  | true =>
    rw [negative] at magnitude
    exact magnitude
  | false =>
    rw [negative] at magnitude
    cases whole : n.whole with
    | nil => simp [Number.isReadable, whole] at h
    | cons d ds =>
      have digit : d.isDigit = true := by
        simp only [Number.isReadable, whole, List.all_cons, Bool.and_eq_true] at h
        exact h.1.1.1.2.1
      rw [whole] at magnitude
      exact (read_of_digit digit _).trans magnitude

/-- No token begins with a space. -/
theorem readAll_of_read {cs rest : List Char} {t : Token} (h : read cs = some (t, rest)) :
    readAll cs = (readAll rest).map (t :: ·) := by
  cases cs with
  | nil => cases h
  | cons c cs =>
    have visible : ¬ isSpace c = true := by
      intro space
      simp only [isSpace, Bool.or_eq_true, decide_eq_true_eq] at space
      obtain ((rfl | rfl) | rfl) | rfl := space <;> cases h
    rw [readAll, if_neg visible]
    split
    next none => rw [none] at h; cases h
    next read => rw [read] at h; cases h; rfl

theorem readAll_space {c : Char} (h : isSpace c = true) (cs : List Char) :
    readAll (c :: cs) = readAll cs := by
  rw [readAll, if_pos h]

end Token

end CertAuthority.Json
