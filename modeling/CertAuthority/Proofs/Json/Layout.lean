import CertAuthority.Proofs.Json.Token

namespace CertAuthority.Json

mutual

def tokens : Json → List Token
  | null => [.null]
  | bool b => [.bool b]
  | number n => [.number n]
  | string pieces => [.string pieces]
  | array [] => [.openBracket, .closeBracket]
  | array (j :: rest) => .openBracket :: (tokens j ++ itemTokens rest ++ [.closeBracket])
  | object [] => [.openBrace, .closeBrace]
  | object ((key, j) :: rest) =>
    .openBrace :: .string key :: .colon :: (tokens j ++ memberTokens rest ++ [.closeBrace])

/-- The tokens of items behind the first one. -/
def itemTokens : List Json → List Token
  | [] => []
  | j :: rest => .comma :: (tokens j ++ itemTokens rest)

/-- The tokens of members behind the first one. -/
def memberTokens : List (List Piece × Json) → List Token
  | [] => []
  | (key, j) :: rest => .comma :: .string key :: .colon :: (tokens j ++ memberTokens rest)

end

namespace Token

/-- How a token is written. -/
def text : Token → List Char
  | openBrace => ['\x7b']
  | closeBrace => ['\x7d']
  | openBracket => ['[']
  | closeBracket => [']']
  | colon => [':']
  | comma => [',']
  | null => ['n', 'u', 'l', 'l']
  | bool true => ['t', 'r', 'u', 'e']
  | bool false => ['f', 'a', 'l', 's', 'e']
  | number n => renderNumber n
  | string pieces => renderString pieces

/-- A text that has tokens in order, with any white space in front of each and at the end. -/
inductive Layout : List Token → List Char → Prop
  | done : Layout [] []
  | space {ts : List Token} {c : Char} {cs : List Char} (h : isSpace c = true)
      (rest : Layout ts cs) : Layout ts (c :: cs)
  | token (t : Token) {ts : List Token} {cs : List Char} (rest : Layout ts cs) :
      Layout (t :: ts) (t.text ++ cs)

/-- Whether a token is read back as it was written. -/
def isReadable : Token → Bool
  | number n => n.isReadable
  | string pieces => pieces.all (·.isReadable)
  | _ => true

def isNumber : Token → Bool
  | number _ => true
  | _ => false

/-- Whether tokens are read back from every text that has them: each of them is, and no number
follows a number, as their digits could run together. -/
def Legible : List Token → Prop
  | [] => True
  | t :: ts =>
    t.isReadable = true ∧ (t.isNumber = true → ∀ next ∈ ts.head?, next.isNumber = false)
      ∧ Legible ts

/-- Whether tokens are read back behind any value. -/
def LegibleBehind (ts : List Token) : Prop :=
  Legible ts ∧ ∀ next ∈ ts.head?, next.isNumber = false

theorem legibleBehind_nil : LegibleBehind [] := ⟨trivial, nofun⟩

theorem legible_cons {t : Token} (readable : t.isReadable = true) {ts : List Token}
    (rest : LegibleBehind ts) : Legible (t :: ts) :=
  ⟨readable, fun _ => rest.2, rest.1⟩

/-- Tokens may follow any value where the first of them is no number. -/
theorem legibleBehind_cons {t : Token} (other : t.isNumber = false)
    (readable : t.isReadable = true) {ts : List Token} (rest : Legible ts) :
    LegibleBehind (t :: ts) := by
  refine ⟨⟨readable, ?_, rest⟩, ?_⟩
  · rw [other]
    exact fun number => nomatch number
  · rintro next ⟨⟩
    exact other

theorem read_text {t : Token} (readable : t.isReadable = true) {rest : List Char}
    (ends : t.isNumber = true → Ends rest) : read (t.text ++ rest) = some (t, rest) := by
  match t with
  | .openBrace | .closeBrace | .openBracket | .closeBracket | .colon | .comma | .null => rfl
  | .bool true | .bool false => rfl
  | .number n => exact read_renderNumber readable (ends rfl)
  | .string pieces => exact read_renderString readable rest

theorem ends_text {t : Token} (h : t.isNumber = false) (rest : List Char) :
    Ends (t.text ++ rest) := by
  match t with
  | .openBrace | .closeBrace | .openBracket | .closeBracket | .colon | .comma | .null
  | .bool true | .bool false | .string _ => exact ends_cons (by decide) _

theorem Layout.ends {ts : List Token} {cs : List Char} (laid : Layout ts cs)
    (h : ∀ next ∈ ts.head?, next.isNumber = false) : Ends cs := by
  cases laid with
  | done => exact ends_nil
  | space blank rest =>
    simp only [isSpace, Bool.or_eq_true, decide_eq_true_eq] at blank
    obtain ((rfl | rfl) | rfl) | rfl := blank <;> exact ends_cons (by decide) _
  | token t rest => exact ends_text (h t rfl) _

theorem readAll_layout {ts : List Token} {cs : List Char} (laid : Layout ts cs)
    (readable : Legible ts) : readAll cs = some ts := by
  induction laid with
  | done => rw [readAll]
  | space blank rest ih => rw [readAll_space blank, ih readable]
  | token t rest ih =>
    obtain ⟨first, apart, later⟩ := readable
    have front := read_text first fun number => rest.ends (apart number)
    rw [readAll_of_read front, ih later]
    rfl

theorem Layout.blanks {ts : List Token} {cs : List Char} (laid : Layout ts cs) (level : Nat) :
    Layout ts (newLine level ++ cs) := by
  have spaces (k : Nat) : Layout ts (List.replicate k ' ' ++ cs) := by
    induction k with
    | zero => exact laid
    | succ k ih => exact .space (by decide) ih
  exact .space (by decide) (spaces _)

theorem Layout.key {ts : List Token} {cs : List Char} (laid : Layout ts cs) (key : List Piece) :
    Layout (.string key :: .colon :: ts) (renderString key ++ ':' :: ' ' :: cs) :=
  .token (.string key) (.token .colon (.space (by decide) laid))

mutual

theorem layout_renderAt (level : Nat) (j : Json) {ts : List Token} {cs : List Char}
    (laid : Layout ts cs) : Layout (tokens j ++ ts) (renderAt level j ++ cs) := by
  match j with
  | .null => exact .token .null laid
  | .bool true => exact .token (.bool true) laid
  | .bool false => exact .token (.bool false) laid
  | .number n => exact .token (.number n) laid
  | .string pieces => exact .token (.string pieces) laid
  | .array [] => exact .token .openBracket (.token .closeBracket laid)
  | .object [] => exact .token .openBrace (.token .closeBrace laid)
  | .array (j :: items) =>
    have close : Layout (.closeBracket :: ts) (newLine level ++ ']' :: cs) :=
      Layout.blanks (.token .closeBracket laid) level
    have inside := layout_renderAt (level + 1) j (layout_renderItems (level + 1) items close)
    have whole := Layout.token .openBracket (inside.blanks (level + 1))
    simpa only [renderAt, tokens, text, List.cons_append, List.nil_append, List.append_assoc]
      using whole
  | .object ((key, j) :: members) =>
    have close : Layout (.closeBrace :: ts) (newLine level ++ '\x7d' :: cs) :=
      Layout.blanks (.token .closeBrace laid) level
    have inside := layout_renderAt (level + 1) j (layout_renderMembers (level + 1) members close)
    have whole := Layout.token .openBrace ((inside.key key).blanks (level + 1))
    simpa only [renderAt, tokens, text, List.cons_append, List.nil_append, List.append_assoc]
      using whole

theorem layout_renderItems (level : Nat) (items : List Json) {ts : List Token} {cs : List Char}
    (laid : Layout ts cs) : Layout (itemTokens items ++ ts) (renderItems level items ++ cs) := by
  match items with
  | [] => exact laid
  | j :: items =>
    have inside := layout_renderAt level j (layout_renderItems level items laid)
    have whole := Layout.token .comma (inside.blanks level)
    simpa only [renderItems, itemTokens, text, List.cons_append, List.nil_append,
      List.append_assoc] using whole

theorem layout_renderMembers (level : Nat) (members : List (List Piece × Json)) {ts : List Token}
    {cs : List Char} (laid : Layout ts cs) :
    Layout (memberTokens members ++ ts) (renderMembers level members ++ cs) := by
  match members with
  | [] => exact laid
  | (key, j) :: members =>
    have inside := layout_renderAt level j (layout_renderMembers level members laid)
    have whole := Layout.token .comma ((inside.key key).blanks level)
    simpa only [renderMembers, memberTokens, text, List.cons_append, List.nil_append,
      List.append_assoc] using whole

end

/-- The tokens of a text without white space. -/
theorem layout_flatMap (ts : List Token) : Layout ts (ts.flatMap text) := by
  induction ts with
  | nil => exact .done
  | cons t ts ih => exact .token t ih

mutual

theorem legible_tokens {j : Json} (h : j.isReadable = true) {ts : List Token}
    (rest : LegibleBehind ts) : Legible (tokens j ++ ts) := by
  match j with
  | .null | .bool _ => exact legible_cons rfl rest
  | .number n => exact legible_cons (t := .number n) h rest
  | .string pieces => exact legible_cons (t := .string pieces) h rest
  | .array [] => exact ⟨rfl, nofun, legible_cons rfl rest⟩
  | .object [] => exact ⟨rfl, nofun, legible_cons rfl rest⟩
  | .array (j :: items) =>
    obtain ⟨first, later⟩ := Bool.and_eq_true_iff.mp h
    have close := legibleBehind_cons (t := .closeBracket) rfl rfl rest.1
    have inside := legible_tokens first (legible_itemTokens later close)
    have whole := legibleBehind_cons (t := .openBracket) rfl rfl inside
    simpa only [tokens, List.cons_append, List.nil_append, List.append_assoc] using whole.1
  | .object ((key, j) :: members) =>
    obtain ⟨first, later⟩ := Bool.and_eq_true_iff.mp h
    obtain ⟨name, value⟩ := Bool.and_eq_true_iff.mp first
    have close := legibleBehind_cons (t := .closeBrace) rfl rfl rest.1
    have inside := legible_tokens value (legible_memberTokens later close)
    have colon := legibleBehind_cons (t := .colon) rfl rfl inside
    have front := legibleBehind_cons (t := .string key) rfl name colon.1
    have whole := legibleBehind_cons (t := .openBrace) rfl rfl front.1
    simpa only [tokens, List.cons_append, List.nil_append, List.append_assoc] using whole.1

theorem legible_itemTokens {items : List Json} (h : areReadable items = true)
    {ts : List Token} (rest : LegibleBehind ts) :
    LegibleBehind (itemTokens items ++ ts) := by
  match items with
  | [] => exact rest
  | j :: items =>
    obtain ⟨first, later⟩ := Bool.and_eq_true_iff.mp h
    have inside := legible_tokens first (legible_itemTokens later rest)
    have whole := legibleBehind_cons (t := .comma) rfl rfl inside
    simpa only [itemTokens, List.cons_append, List.append_assoc] using whole

theorem legible_memberTokens {members : List (List Piece × Json)}
    (h : areReadableMembers members = true) {ts : List Token} (rest : LegibleBehind ts) :
    LegibleBehind (memberTokens members ++ ts) := by
  match members with
  | [] => exact rest
  | (key, j) :: members =>
    obtain ⟨first, later⟩ := Bool.and_eq_true_iff.mp h
    obtain ⟨name, value⟩ := Bool.and_eq_true_iff.mp first
    have inside := legible_tokens value (legible_memberTokens later rest)
    have colon := legibleBehind_cons (t := .colon) rfl rfl inside
    have front := legibleBehind_cons (t := .string key) rfl name colon.1
    have whole := legibleBehind_cons (t := .comma) rfl rfl front.1
    simpa only [memberTokens, List.cons_append, List.append_assoc] using whole

end

end Token

end CertAuthority.Json
