import CertAuthority.Json.Basic

namespace CertAuthority.Json

inductive Token
  | openBrace
  | closeBrace
  | openBracket
  | closeBracket
  | colon
  | comma
  | null
  | bool (b : Bool)
  | number (n : Number)
  | string (pieces : List Piece)
deriving DecidableEq, Repr

namespace Token

def isSpace (c : Char) : Bool := c = ' ' || c = '\n' || c = '\r' || c = '\t'

/-- What a character behind a backslash stands for. -/
def short? : Char → Option Char
  | '"' => some '"'
  | '\\' => some '\\'
  | '/' => some '/'
  | 'b' => some '\x08'
  | 'f' => some '\x0c'
  | 'n' => some '\n'
  | 'r' => some '\r'
  | 't' => some '\t'
  | _ => none

/-- Reads a string behind its opening quote. -/
def readString : List Char → Option (List Piece × List Char)
  | [] => none
  | '"' :: rest => some ([], rest)
  | '\\' :: 'u' :: a :: b :: c :: d :: rest =>
    match Numeral.ofDigits? 16 [a, b, c, d] with
    | some n => (readString rest).map fun (pieces, rest) => (.unit n :: pieces, rest)
    | none => none
  | '\\' :: c :: rest =>
    match short? c with
    | some c => (readString rest).map fun (pieces, rest) => (.char c :: pieces, rest)
    | none => none
  | c :: rest =>
    if c < ' ' ∨ c = '\\' then none
    else (readString rest).map fun (pieces, rest) => (.char c :: pieces, rest)

/-- Reads digits, of which there must be at least one. -/
def readDigits (cs : List Char) : Option (List Char × List Char) :=
  match cs.takeWhile Char.isDigit with
  | [] => none
  | ds => some (ds, cs.dropWhile Char.isDigit)

def readFraction : List Char → Option (List Char × List Char)
  | '.' :: rest => readDigits rest
  | cs => some ([], cs)

/-- Takes the sign of an exponent off: whether it is a minus. -/
def exponentSign : List Char → Bool × List Char
  | '+' :: rest => (false, rest)
  | '-' :: rest => (true, rest)
  | cs => (false, cs)

def readExponent : List Char → Option (Option (Bool × List Char) × List Char)
  | c :: rest =>
    if c = 'e' ∨ c = 'E' then
      let (negative, rest) := exponentSign rest
      (readDigits rest).map fun (ds, rest) => (some (negative, ds), rest)
    else some (none, c :: rest)
  | [] => some (none, [])

/-- Reads a number behind its sign. A zero stands in front of no other digit. -/
def readMagnitude (negative : Bool) (cs : List Char) : Option (Token × List Char) := do
  let (whole, rest) ← readDigits cs
  let (fraction, rest) ← readFraction rest
  let (exponent, rest) ← readExponent rest
  if whole.head? = some '0' ∧ whole ≠ ['0'] then none
  else some (.number ⟨negative, whole, fraction, exponent⟩, rest)

def read : List Char → Option (Token × List Char)
  | '{' :: rest => some (.openBrace, rest)
  | '}' :: rest => some (.closeBrace, rest)
  | '[' :: rest => some (.openBracket, rest)
  | ']' :: rest => some (.closeBracket, rest)
  | ':' :: rest => some (.colon, rest)
  | ',' :: rest => some (.comma, rest)
  | '"' :: rest => (readString rest).map fun (pieces, rest) => (.string pieces, rest)
  | 'n' :: 'u' :: 'l' :: 'l' :: rest => some (.null, rest)
  | 't' :: 'r' :: 'u' :: 'e' :: rest => some (.bool true, rest)
  | 'f' :: 'a' :: 'l' :: 's' :: 'e' :: rest => some (.bool false, rest)
  | '-' :: rest => readMagnitude true rest
  | cs => readMagnitude false cs

theorem readDigits_length {cs ds rest : List Char} (h : readDigits cs = some (ds, rest)) :
    rest.length < cs.length := by
  have hsplit :=
    congrArg List.length (List.takeWhile_append_dropWhile (p := Char.isDigit) (l := cs))
  rw [List.length_append] at hsplit
  unfold readDigits at h
  split at h
  · cases h
  · rename_i ds' hne
    simp only [Option.some.injEq, Prod.mk.injEq] at h
    obtain ⟨rfl, rfl⟩ := h
    have : 0 < (cs.takeWhile Char.isDigit).length := by
      cases hd : cs.takeWhile Char.isDigit with
      | nil => exact absurd hd (by simpa using hne)
      | cons => simp
    omega

theorem readFraction_length {cs ds rest : List Char} (h : readFraction cs = some (ds, rest)) :
    rest.length ≤ cs.length := by
  unfold readFraction at h
  split at h
  · have := readDigits_length h
    simp only [List.length_cons]
    omega
  · simp only [Option.some.injEq, Prod.mk.injEq] at h
    simp [h.2]

theorem exponentSign_length (cs : List Char) : (exponentSign cs).2.length ≤ cs.length := by
  unfold exponentSign
  split <;> simp

theorem readExponent_length {cs rest : List Char} {e : Option (Bool × List Char)}
    (h : readExponent cs = some (e, rest)) : rest.length ≤ cs.length := by
  unfold readExponent at h
  split at h
  · rename_i c r
    split at h
    · obtain ⟨⟨ds, rest'⟩, hd, heq⟩ := Option.map_eq_some_iff.mp h
      have hlt := readDigits_length hd
      have hle := exponentSign_length r
      cases heq
      exact Nat.le_succ_of_le (Nat.le_trans (Nat.le_of_lt hlt) hle)
    · simp only [Option.some.injEq, Prod.mk.injEq] at h
      simp [← h.2]
  · simp only [Option.some.injEq, Prod.mk.injEq] at h
    simp [← h.2]

theorem readMagnitude_length {negative : Bool} {cs rest : List Char} {t : Token}
    (h : readMagnitude negative cs = some (t, rest)) : rest.length < cs.length := by
  simp only [readMagnitude, Option.bind_eq_bind, Option.bind_eq_some_iff] at h
  obtain ⟨⟨whole, r1⟩, h1, ⟨fraction, r2⟩, h2, ⟨exponent, r3⟩, h3, h4⟩ := h
  have hw := readDigits_length h1
  have hf := readFraction_length h2
  have he := readExponent_length h3
  dsimp only at hf he h4
  split at h4
  · cases h4
  · cases h4
    omega

theorem readString_length {cs rest : List Char} {pieces : List Piece}
    (h : readString cs = some (pieces, rest)) : rest.length < cs.length := by
  fun_induction readString cs generalizing pieces with
  | case1 => cases h
  | case2 => cases h; simp
  | case3 a b c d r n hn ih =>
    obtain ⟨⟨p, q⟩, hp, heq⟩ := Option.map_eq_some_iff.mp h
    cases heq
    have := ih hp
    simp only [List.length_cons]
    omega
  | case4 => cases h
  | case5 c r _ c' hc ih =>
    obtain ⟨⟨p, q⟩, hp, heq⟩ := Option.map_eq_some_iff.mp h
    cases heq
    have := ih hp
    simp only [List.length_cons]
    omega
  | case6 => cases h
  | case7 => cases h
  | case8 c r _ _ _ _ ih =>
    obtain ⟨⟨p, q⟩, hp, heq⟩ := Option.map_eq_some_iff.mp h
    cases heq
    have := ih hp
    simp only [List.length_cons]
    omega

theorem read_length {cs rest : List Char} {t : Token} (h : read cs = some (t, rest)) :
    rest.length < cs.length := by
  unfold read at h
  split at h
  case h_7 r =>
    obtain ⟨⟨p, q⟩, hp, heq⟩ := Option.map_eq_some_iff.mp h
    cases heq
    have := readString_length hp
    simp only [List.length_cons]
    omega
  case h_11 r =>
    have := readMagnitude_length h
    simp only [List.length_cons]
    omega
  case h_12 => exact readMagnitude_length h
  all_goals
    simp only [Option.some.injEq, Prod.mk.injEq] at h
    simp only [← h.2, List.length_cons]
    omega

def readAll : List Char → Option (List Token)
  | [] => some []
  | c :: cs =>
    if isSpace c then readAll cs
    else
      match h : read (c :: cs) with
      | none => none
      | some (t, rest) =>
        have := read_length h
        (readAll rest).map (t :: ·)
termination_by cs => cs.length
decreasing_by
  · exact Nat.lt_succ_self _
  · exact this

end Token

end CertAuthority.Json
