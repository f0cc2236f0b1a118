import CertAuthority.Json.Parser
import CertAuthority.Proofs.Json.Layout

namespace CertAuthority.Json

/-- No value begins with a token that closes. -/
theorem head?_tokens (j : Json) (rest : List Token) :
    (tokens j ++ rest).head? ≠ some .closeBracket := by
  match j with
  | null | .bool _ | .number _ | .string _ => simp [tokens]
  | .array [] | .array (_ :: _) | .object [] | .object ((_, _) :: _) => simp [tokens]

/-- A bracket that is not closed at once opens items. -/
theorem readValue_openBracket {ts : List Token} (h : ts.head? ≠ some .closeBracket) (fuel : Nat) :
    readValue (fuel + 1) (.openBracket :: ts)
      = (readItems fuel ts).map fun (items, rest) => (.array items, rest) := by
  rw [readValue]
  rintro rest rfl
  exact h rfl

mutual

/-- A value takes at most two steps for each of its tokens. -/
theorem readValue_tokens (j : Json) {fuel : Nat} (enough : 2 * (tokens j).length ≤ fuel)
    (rest : List Token) : readValue fuel (tokens j ++ rest) = some (j, rest) := by
  match j, fuel with
  | null, fuel + 1 => rfl
  | .bool _, fuel + 1 => rfl
  | .number _, fuel + 1 => rfl
  | .string _, fuel + 1 => rfl
  | .array [], fuel + 1 => rfl
  | .object [], fuel + 1 => rfl
  | .array (j :: items), fuel + 1 =>
    simp only [tokens, List.length_cons, List.length_append, List.length_nil] at enough
    simp only [tokens, List.cons_append, List.nil_append, List.append_assoc]
    rw [readValue_openBracket (head?_tokens j _), readItems_tokens j items (by omega)]
    rfl
  | .object ((key, j) :: members), fuel + 1 =>
    simp only [tokens, List.length_cons, List.length_append, List.length_nil] at enough
    simp only [tokens, List.cons_append, List.nil_append, List.append_assoc]
    rw [readValue, readMembers_tokens key j members (by omega)]
    · rfl
    · rintro rest ⟨⟩

theorem readItems_tokens (j : Json) (items : List Json) {fuel : Nat}
    (enough : 2 * ((tokens j).length + (itemTokens items).length) < fuel) (rest : List Token) :
    readItems fuel (tokens j ++ (itemTokens items ++ .closeBracket :: rest))
      = some (j :: items, rest) := by
  match items, fuel with
  | [], fuel + 1 =>
    rw [readItems, readValue_tokens j (by omega)]
    rfl
  | next :: items, fuel + 1 =>
    simp only [itemTokens, List.length_cons, List.length_append] at enough
    simp only [itemTokens, List.cons_append, List.append_assoc]
    rw [readItems, readValue_tokens j (by omega)]
    dsimp only
    rw [readItems_tokens next items (by omega)]
    rfl

theorem readMembers_tokens (key : List Piece) (j : Json) (members : List (List Piece × Json))
    {fuel : Nat} (enough : 2 * ((tokens j).length + (memberTokens members).length) < fuel)
    (rest : List Token) :
    readMembers fuel (.string key :: .colon :: (tokens j ++ (memberTokens members
      ++ .closeBrace :: rest))) = some ((key, j) :: members, rest) := by
  match members, fuel with
  | [], fuel + 1 =>
    rw [readMembers, readValue_tokens j (by omega)]
    rfl
  | (name, next) :: members, fuel + 1 =>
    simp only [memberTokens, List.length_cons, List.length_append] at enough
    simp only [memberTokens, List.cons_append, List.append_assoc]
    rw [readMembers, readValue_tokens j (by omega)]
    dsimp only
    rw [readMembers_tokens name next members (by omega)]
    rfl

end

theorem ofTokens?_tokens (j : Json) : ofTokens? (tokens j) = some j := by
  have read := readValue_tokens j (Nat.le_succ (2 * (tokens j).length)) []
  rw [List.append_nil] at read
  rw [ofTokens?, read]

/-- Whether a text has the tokens of a value in order, with white space anywhere between them. -/
def IsTextOf (s : String) (j : Json) : Prop := Token.Layout (tokens j) s.toList

theorem isTextOf_render (j : Json) : IsTextOf j.render j := by
  have laid := Token.layout_renderAt 0 j .done
  rw [List.append_nil, List.append_nil] at laid
  rwa [IsTextOf, render, String.toList_ofList]

/-- The text of a value without white space. -/
def compact (j : Json) : String := String.ofList ((tokens j).flatMap Token.text)

theorem isTextOf_compact (j : Json) : IsTextOf j.compact j := by
  rw [IsTextOf, compact, String.toList_ofList]
  exact Token.layout_flatMap _

theorem parse?_of_isTextOf {s : String} {j : Json} (text : IsTextOf s j)
    (h : j.isReadable = true) : parse? s = some j := by
  have legible := Token.legible_tokens h Token.legibleBehind_nil
  rw [List.append_nil] at legible
  rw [parse?, Token.readAll_layout text legible, Option.bind_some, ofTokens?_tokens]

end CertAuthority.Json
