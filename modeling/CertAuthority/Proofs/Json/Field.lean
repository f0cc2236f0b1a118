import CertAuthority.Proofs.Der.Element
import CertAuthority.Proofs.Json.Reread
import Mathlib.Data.List.Nodup

namespace CertAuthority.Json

theorem decode?_pieces (s : String) : decode? (pieces s) = some s.toList := by
  rw [pieces]
  induction s.toList with
  | nil => rfl
  | cons c cs ih => rw [List.map_cons, decode?, ih, Option.map_some]

theorem textOf?_pieces (s : String) : textOf? (pieces s) = some s := by
  rw [textOf?, decode?_pieces, Option.map_some, String.ofList_toList]

theorem text?_ofText (s : String) : (ofText s).text? = some s := textOf?_pieces s

theorem digitsValue_digits (n : Nat) : digitsValue (Numeral.digits 10 n) = n := by
  rw [digitsValue, Numeral.ofDigits?_digits (by decide) (by decide), Option.getD_some]

theorem int?_ofInt (i : Int) : (ofInt i).int? = some i := by
  simp only [ofInt, int?, digitsValue_digits, Int.natAbs_eq_zero, decide_eq_true_eq]
  split
  · rw [if_neg (by omega)]
    congr 1
    omega
  · congr 1
    omega

/-- A number begins with a zero only if it has no other digit. -/
theorem isWritable_ofInt (i : Int) : IsWritable (ofInt i) := by
  have digits : (Numeral.digits 10 i.natAbs).all Char.isDigit = true :=
    List.all_eq_true.mpr (Numeral.forall_mem_digits (by decide) (by decide) _)
  have front : (Numeral.digits 10 i.natAbs).head? ≠ some '0'
      ∨ Numeral.digits 10 i.natAbs = ['0'] := by
    rw [Ne, Numeral.head?_digits_eq_zero_iff (by decide) (by decide), ← imp_iff_not_or]
    intro zero
    rw [zero, Numeral.digits]
    rfl
  simp [IsWritable, ofInt, reread, isReadable, Number.isReadable, Numeral.digits_ne_nil, digits,
    front]

theorem filter_key {α β : Type} [DecidableEq α] {l : List (α × β)} (distinct : (l.map (·.1)).Nodup)
    {p : α × β} (h : p ∈ l) : l.filter (·.1 = p.1) = [p] := by
  induction l with
  | nil => cases h
  | cons q l ih =>
    obtain ⟨fresh, later⟩ := List.nodup_cons.mp (List.map_cons ▸ distinct)
    rcases List.mem_cons.mp h with rfl | hl
    · have none : l.filter (·.1 = p.1) = [] := by
        rw [List.filter_eq_nil_iff]
        intro x hx same
        exact fresh (of_decide_eq_true same ▸ List.mem_map_of_mem hx)
      rw [List.filter_cons_of_pos (by simp), none]
    · have other : q.1 ≠ p.1 := fun same => fresh (same ▸ List.mem_map_of_mem hl)
      rw [List.filter_cons_of_neg (by simp [other]), ih later hl]

/-- A field is found under its name wherever it stands among the members. It is not found where
it was left out, and members of other names are passed over. -/
theorem fields?_of_perm {fields others members : List (String × Json)} {out : List String}
    (distinct : (fields.map (·.1)).Nodup) (foreign : ∀ field ∈ others, field.1 ∉ fields.map (·.1))
    (perm : members.Perm (fields.filter (·.1 ∉ out) ++ others)) :
    (object (members.map (Prod.map pieces id))).fields? (fields.map (·.1))
      = some (fields.map fun field => if field.1 ∈ out then none else some field.2) := by
  have named : ∀ field ∈ members, named? (field.map pieces id) = some field := by
    intro field _
    rw [named?, Prod.map_fst, textOf?_pieces]
    rfl
  rw [fields?_object, Der.mapM_map_of_inverse named, Option.bind_some, List.mapM_map]
  apply Der.mapM_eq_pure
  intro field found
  have passed : others.filter (·.1 = field.1) = [] := by
    rw [List.filter_eq_nil_iff]
    intro other present same
    exact foreign other present (of_decide_eq_true same ▸ List.mem_map_of_mem found)
  have kept : (members.filter (·.1 = field.1)).Perm ([field].filter (·.1 ∉ out)) := by
    have filtered := perm.filter (·.1 = field.1)
    rwa [List.filter_append, passed, List.append_nil, List.filter_comm,
      filter_key distinct found] at filtered
  rw [Function.comp_apply, single?]
  by_cases left : field.1 ∈ out
  · rw [List.filter_cons_of_neg (by simpa using left), List.filter_nil, List.perm_nil] at kept
    rw [kept, if_pos left]
    rfl
  · rw [List.filter_cons_of_pos (by simpa using left), List.filter_nil,
      List.perm_singleton] at kept
    rw [kept, if_neg left]
    rfl

/-- What is found in a text of an object is found as it is read back. -/
theorem fields?_of_isTextOf {fields others members : List (String × Json)} {out : List String}
    (distinct : (fields.map (·.1)).Nodup) (foreign : ∀ field ∈ others, field.1 ∉ fields.map (·.1))
    (writable : ∀ field ∈ fields ++ others, IsWritable field.2)
    (perm : members.Perm (fields.filter (·.1 ∉ out) ++ others)) {s : String}
    (text : IsTextOf s (object (members.map (Prod.map pieces id)))) :
    (parse? s).bind (·.fields? (fields.map (·.1)))
      = some (fields.map fun field => if field.1 ∈ out then none else some field.2.reread) := by
  have each : ∀ field ∈ members, IsWritable field.2 := by
    intro field present
    obtain kept | other := List.mem_append.mp (perm.mem_iff.mp present)
    · exact writable field (List.mem_append_left _ (List.mem_of_mem_filter kept))
    · exact writable field (List.mem_append_right _ other)
  rw [parse?_of_isWritable text (isWritable_object each), Option.bind_some, fields?_reread,
    fields?_of_perm distinct foreign perm, Option.map_some, List.map_map]
  congr 1
  refine List.map_congr_left fun field _ => ?_
  rw [Function.comp_apply]
  split <;> rfl

/-- The values of an object under names that differ are found in the text that is printed. -/
theorem fields?_render {names : List String} {values : List Json} (distinct : names.Nodup)
    (paired : names.length = values.length) (writable : ∀ j ∈ values, IsWritable j) :
    (parse? (object ((names.map pieces).zip values)).render).bind (·.fields? names)
      = some (values.map fun j => some j.reread) := by
  have members : (names.map pieces).zip values
      = (names.zip values).map (Prod.map pieces id) := List.zip_map_left
  have keys : (names.zip values).map (·.1) = names := List.map_fst_zip paired.le
  have contents : (names.zip values).map (fun field => some field.2.reread)
      = values.map fun j => some j.reread := by
    conv => rhs; rw [← List.map_snd_zip paired.ge, List.map_map]
    rfl
  have all : (names.zip values).Perm ((names.zip values).filter (·.1 ∉ []) ++ []) := by simp
  have each : ∀ field ∈ names.zip values ++ [], IsWritable field.2 := by
    intro field present
    rw [List.append_nil] at present
    exact writable _ (List.of_mem_zip present).2
  have found := fields?_of_isTextOf (keys.symm ▸ distinct) (by simp) each all (isTextOf_render _)
  rw [keys] at found
  simpa only [members, List.not_mem_nil, if_false, contents] using found

end CertAuthority.Json
