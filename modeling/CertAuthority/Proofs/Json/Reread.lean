import CertAuthority.Proofs.Json.Parser

namespace CertAuthority.Json

/-- A part of a string as it is read back. -/
def Piece.reread : Piece → Piece
  | .char c => if (Piece.char c).isReadable then .char c else .unit c.toNat
  | .unit n => .unit n

mutual

/-- A value as it is read back. -/
def reread : Json → Json
  | null => null
  | bool b => bool b
  | number n => number n
  | string pieces => string (pieces.map .reread)
  | array items => array (rereadItems items)
  | object members => object (rereadMembers members)

def rereadItems : List Json → List Json
  | [] => []
  | j :: rest => reread j :: rereadItems rest

def rereadMembers : List (List Piece × Json) → List (List Piece × Json)
  | [] => []
  | (key, j) :: rest => (key.map .reread, reread j) :: rereadMembers rest

end

/-- Whether a value has a text: its units fit 16 bits, and its numbers have digits. -/
def IsWritable (j : Json) : Prop := j.reread.isReadable = true

theorem rereadItems_eq_map (items : List Json) : rereadItems items = items.map reread := by
  induction items with
  | nil => rfl
  | cons j items ih => rw [rereadItems, ih, List.map_cons]

theorem rereadMembers_eq_map (members : List (List Piece × Json)) :
    rereadMembers members = members.map (Prod.map (List.map .reread) reread) := by
  induction members with
  | nil => rfl
  | cons member members ih => rw [rereadMembers, ih, List.map_cons]; rfl

theorem Piece.isReadable_iff (c : Char) : (Piece.char c).isReadable = true ↔
    c < ' ' → c ∈ ['\x08', '\x0c', '\n', '\r', '\t'] := by
  rw [isReadable, Bool.or_eq_true, Bool.not_eq_true', decide_eq_false_iff_not,
    List.contains_iff_mem, imp_iff_not_or]

/-- A character is read back as itself, or as the unit of a control character. -/
theorem Piece.reread_cases (c : Char) :
    (char c).isReadable = true ∧ (char c).reread = char c
      ∨ c.toNat < 32 ∧ (char c).reread = unit c.toNat := by
  rw [reread]
  split
  next readable => exact Or.inl ⟨readable, rfl⟩
  next unreadable =>
    have control : c < ' ' := by
      by_contra visible
      exact unreadable ((isReadable_iff c).mpr fun low => absurd low visible)
    exact Or.inr ⟨control, rfl⟩

theorem Piece.isReadable_reread (c : Char) : (char c).reread.isReadable = true := by
  obtain ⟨readable, same⟩ | ⟨control, unit⟩ := reread_cases c
  · rw [same, readable]
  · rw [unit]
    exact decide_eq_true (by omega)

theorem renderPiece_reread (p : Piece) : renderPiece p.reread = renderPiece p := by
  cases p with
  | unit n => rfl
  | char c =>
    rw [Piece.reread]
    split
    next => rfl
    next unreadable =>
      rw [Piece.isReadable_iff, Classical.not_imp] at unreadable
      obtain ⟨control, other⟩ := unreadable
      have quote : c ≠ '"' := by rintro rfl; exact absurd control (by decide)
      have back : c ≠ '\\' := by rintro rfl; exact absurd control (by decide)
      simp only [List.mem_cons, List.not_mem_nil, or_false, not_or] at other
      simp [renderPiece, escape, quote, back, control, other]

theorem renderString_reread (pieces : List Piece) :
    renderString (pieces.map .reread) = renderString pieces := by
  have inside : (pieces.map .reread).flatMap renderPiece = pieces.flatMap renderPiece := by
    rw [List.flatMap_map]
    exact List.flatMap_congr fun p _ => renderPiece_reread p
  rw [renderString, renderString, inside]

namespace Token

/-- A token as it is read back. -/
def reread : Token → Token
  | string pieces => string (pieces.map .reread)
  | t => t

theorem text_reread (t : Token) : t.reread.text = t.text := by
  cases t with
  | string pieces => exact renderString_reread pieces
  | _ => rfl

theorem Layout.reread {ts : List Token} {cs : List Char} (laid : Layout ts cs) :
    Layout (ts.map Token.reread) cs := by
  induction laid with
  | done => exact .done
  | space blank _ ih => exact .space blank ih
  | token t _ ih => exact text_reread t ▸ .token t.reread ih

end Token

mutual

theorem tokens_reread (j : Json) : tokens j.reread = (tokens j).map .reread := by
  match j with
  | null | bool _ | number _ | string _ => rfl
  | array [] | object [] => rfl
  | array (j :: items) =>
    simp [reread, rereadItems, tokens, tokens_reread j, itemTokens_reread items, Token.reread]
  | object ((key, j) :: members) =>
    simp [reread, rereadMembers, tokens, tokens_reread j, memberTokens_reread members,
      Token.reread]

theorem itemTokens_reread (items : List Json) :
    itemTokens (rereadItems items) = (itemTokens items).map .reread := by
  match items with
  | [] => rfl
  | j :: items =>
    simp [rereadItems, itemTokens, tokens_reread j, itemTokens_reread items, Token.reread]

theorem memberTokens_reread (members : List (List Piece × Json)) :
    memberTokens (rereadMembers members) = (memberTokens members).map .reread := by
  match members with
  | [] => rfl
  | (key, j) :: members =>
    simp [rereadMembers, memberTokens, tokens_reread j, memberTokens_reread members, Token.reread]

end

theorem IsTextOf.reread {s : String} {j : Json} (text : IsTextOf s j) : IsTextOf s j.reread := by
  rw [IsTextOf, tokens_reread]
  exact Token.Layout.reread text

theorem parse?_of_isWritable {s : String} {j : Json} (text : IsTextOf s j) (h : IsWritable j) :
    parse? s = some j.reread :=
  parse?_of_isTextOf text.reread h

/-- The second half of a pair does not stand alone. -/
theorem decode?_unit {n : Nat} (h : isHigh n = false) (rest : List Piece) :
    decode? (.unit n :: rest)
      = if isLow n then none else (decode? rest).map (Char.ofNat n :: ·) := by
  match rest with
  | [] | .char _ :: _ | .unit _ :: _ => simp [decode?, h]

/-- The first half of a pair does not stand alone. -/
theorem decode?_half {n : Nat} (h : isHigh n = true) {rest : List Piece}
    (alone : ∀ k, rest.head? = some (.unit k) → isLow k = false) :
    decode? (.unit n :: rest) = none := by
  match rest with
  | [] | .char _ :: _ => simp [decode?, h]
  | .unit k :: _ => simp [decode?, h, alone k rfl]

theorem decode?_reread_cons (c : Char) (rest : List Piece) :
    decode? ((Piece.char c).reread :: rest) = (decode? rest).map (c :: ·) := by
  obtain ⟨-, same⟩ | ⟨control, unit⟩ := Piece.reread_cases c
  · rw [same, decode?]
  · have high : isHigh c.toNat = false := by
      rw [isHigh, decide_eq_false (by omega), Bool.false_and]
    have low : isLow c.toNat = false := by
      rw [isLow, decide_eq_false (by omega), Bool.false_and]
    rw [unit, decode?_unit high, low, Char.ofNat_toNat]
    rfl

theorem decode?_reread (pieces : List Piece) : decode? (pieces.map .reread) = decode? pieces := by
  fun_induction decode? pieces with
  | case1 => rfl
  | case2 c rest ih => rw [List.map_cons, decode?_reread_cons, ih]
  | case3 n high k rest low ih =>
    rw [List.map_cons, List.map_cons, Piece.reread, Piece.reread, decode?, if_pos high, if_pos low,
      ih]
  | case4 n high k rest low =>
    refine decode?_half high ?_
    rintro _ ⟨⟩
    exact Bool.eq_false_of_not_eq_true low
  | case5 n rest high other =>
    -- A control character that follows becomes a unit here, but not the second half of a pair.
    refine decode?_half high ?_
    intro k hk
    match rest, hk with
    | .unit k :: rest, _ => exact absurd rfl (other k rest)
    | .char c :: rest, hk =>
      obtain ⟨-, same⟩ | ⟨control, unit⟩ := Piece.reread_cases c
      · cases same.symm.trans (Option.some.inj hk)
      · cases unit.symm.trans (Option.some.inj hk)
        rw [isLow, decide_eq_false (by omega), Bool.false_and]
  | case6 n rest high low =>
    rw [List.map_cons, Piece.reread, decode?_unit (Bool.eq_false_of_not_eq_true high), if_pos low]
  | case7 n rest high low ih =>
    rw [List.map_cons, Piece.reread, decode?_unit (Bool.eq_false_of_not_eq_true high), if_neg low,
      ih]

theorem textOf?_reread (pieces : List Piece) : textOf? (pieces.map .reread) = textOf? pieces := by
  rw [textOf?, decode?_reread, textOf?]

theorem text?_reread (j : Json) : j.reread.text? = j.text? := by
  cases j with
  | string pieces => exact textOf?_reread pieces
  | _ => rfl

theorem isReadable_reread_pieces (s : String) :
    ((pieces s).map Piece.reread).all Piece.isReadable = true := by
  rw [pieces, List.map_map, List.all_map, List.all_eq_true]
  exact fun c _ => Piece.isReadable_reread c

theorem isWritable_ofText (s : String) : IsWritable (ofText s) := isReadable_reread_pieces s

theorem isWritable_array {items : List Json} (h : ∀ j ∈ items, IsWritable j) :
    IsWritable (array items) := by
  rw [IsWritable, reread, isReadable]
  induction items with
  | nil => rfl
  | cons j items ih =>
    obtain ⟨first, later⟩ := List.forall_mem_cons.mp h
    rw [rereadItems, areReadable, ih later, Bool.and_true]
    exact first

theorem isWritable_object {fields : List (String × Json)}
    (h : ∀ field ∈ fields, IsWritable field.2) :
    IsWritable (object (fields.map (Prod.map pieces id))) := by
  rw [IsWritable, reread, isReadable]
  induction fields with
  | nil => rfl
  | cons field fields ih =>
    obtain ⟨first, later⟩ := List.forall_mem_cons.mp h
    rw [List.map_cons, Prod.map_apply, rereadMembers, areReadableMembers, isReadable_reread_pieces,
      ih later, Bool.true_and, Bool.and_true]
    exact first

theorem mapM_option_map {α β γ : Type} (f : α → Option β) (g : β → γ) (l : List α) :
    l.mapM (fun a => (f a).map g) = (l.mapM f).map (List.map g) := by
  induction l with
  | nil => rfl
  | cons a l ih =>
    rw [List.mapM_cons, List.mapM_cons, ih]
    cases f a with
    | none => rfl
    | some b => cases l.mapM f <;> rfl

/-- A member with its name as a text. -/
def named? (member : List Piece × Json) : Option (String × Json) :=
  (textOf? member.1).map (·, member.2)

/-- The value under a name that is there once at most. -/
def single? (members : List (String × Json)) (name : String) : Option (Option Json) :=
  match members.filter (·.1 = name) with
  | [] => some none
  | [(_, j)] => some (some j)
  | _ => none

theorem fields?_object (names : List String) (members : List (List Piece × Json)) :
    (object members).fields? names
      = (members.mapM named?).bind fun members => names.mapM (single? members) := rfl

theorem named?_reread (member : List Piece × Json) :
    named? (member.map (List.map .reread) reread)
      = (named? member).map (Prod.map id reread) := by
  rw [named?, named?, Prod.map_fst, Prod.map_snd, textOf?_reread, Option.map_map]
  rfl

theorem single?_reread (members : List (String × Json)) (name : String) :
    single? (members.map (Prod.map id reread)) name
      = (single? members name).map (Option.map reread) := by
  have kept : (members.map (Prod.map id reread)).filter (·.1 = name)
      = (members.filter (·.1 = name)).map (Prod.map id reread) := List.filter_map
  rw [single?, single?, kept]
  generalize members.filter (·.1 = name) = found
  rcases found with _ | ⟨member, _ | ⟨next, rest⟩⟩ <;> rfl

/-- Where a value is found does not depend on how the names are written. -/
theorem fields?_reread (j : Json) (names : List String) :
    j.reread.fields? names = (j.fields? names).map (List.map (Option.map reread)) := by
  match j with
  | null | bool _ | number _ | string _ => rfl
  | array items =>
    rw [reread, rereadItems_eq_map, fields?, fields?, List.length_map]
    split
    next => simp
    next => rfl
  | object members =>
    rw [reread, rereadMembers_eq_map, fields?_object, fields?_object, List.mapM_map,
      Function.comp_def]
    simp only [named?_reread, mapM_option_map]
    cases members.mapM named? with
    | none => rfl
    | some members =>
      rw [Option.map_some, Option.bind_some, Option.bind_some, funext (single?_reread members),
        mapM_option_map]

end CertAuthority.Json
