import CertAuthority.Proofs.Text.Rules

namespace CertAuthority.Text

/-- One or more words over some characters, none of them empty, joined by single separators. -/
def IsJoined (sep : Char) (p : Char → Prop) (cs : List Char) : Prop :=
  ∃ words, cs = [sep].intercalate words ∧ words ≠ [] ∧ ∀ w ∈ words, w ≠ [] ∧ ∀ c ∈ w, p c

section

variable {sep : Char} {p : Char → Prop} {cs w : List Char}

/-- The words can only be those between the separators. -/
theorem isJoined_iff_splitOn (apart : ¬ p sep) :
    IsJoined sep p cs ↔ ∀ w ∈ cs.splitOn sep, w ≠ [] ∧ ∀ c ∈ w, p c := by
  constructor
  · rintro ⟨words, rfl, some, spelled⟩
    have whole : ∀ w ∈ words, sep ∉ w := fun w hw hsep => apart ((spelled w hw).2 sep hsep)
    rwa [List.splitOn_intercalate sep whole some]
  · intro spelled
    exact ⟨cs.splitOn sep, (List.intercalate_splitOn sep).symm, List.splitOn_ne_nil sep cs, spelled⟩

theorem splitOn_cons_of_ne {c : Char} (h : c ≠ sep) (cs : List Char) :
    (c :: cs).splitOn sep = (cs.splitOn sep).modifyHead (c :: ·) := by
  rw [List.splitOn_cons_eq_if_modifyHead, if_neg (by simpa using h)]

theorem splitOn_cons_self (cs : List Char) : (sep :: cs).splitOn sep = [] :: cs.splitOn sep := by
  rw [List.splitOn_cons_eq_if_modifyHead, if_pos (by simp)]

/-- Splitting takes out the separators and nothing else. -/
theorem flatten_splitOn (cs : List Char) : (cs.splitOn sep).flatten = cs.filter (· ≠ sep) := by
  induction cs with
  | nil => rfl
  | cons c cs ih =>
    by_cases hc : c = sep
    · subst hc
      rw [splitOn_cons_self, List.flatten_cons, List.nil_append, ih,
        List.filter_cons_of_neg (by simp)]
    · obtain ⟨first, later, split⟩ := List.exists_cons_of_ne_nil (List.splitOn_ne_nil sep cs)
      rw [splitOn_cons_of_ne hc, List.filter_cons_of_pos (by simpa using hc), ← ih, split]
      rfl

/-- The first word starts as the text does, unless a separator stands there. -/
theorem head?_of_splitOn (h : (cs.splitOn sep).head? = some w) :
    w.head? = if cs.head? = some sep then none else cs.head? := by
  cases cs with
  | nil =>
    cases Option.some.inj h
    rfl
  | cons c cs =>
    by_cases hc : c = sep
    · subst hc
      rw [splitOn_cons_self] at h
      cases Option.some.inj h
      simp
    · rw [splitOn_cons_of_ne hc, List.head?_modifyHead, Option.map_eq_some_iff] at h
      obtain ⟨first, -, rfl⟩ := h
      simp [hc]

theorem nil_notMem_splitOn_iff :
    [] ∉ cs.splitOn sep ↔ cs ≠ [] ∧ cs.head? ≠ some sep ∧ [] ∉ (cs.splitOn sep).tail := by
  obtain ⟨first, later, split⟩ := List.exists_cons_of_ne_nil (List.splitOn_ne_nil sep cs)
  have start := head?_of_splitOn (show (cs.splitOn sep).head? = some first by rw [split]; rfl)
  have empty : [] = first ↔ cs = [] ∨ cs.head? = some sep := by
    rw [eq_comm, ← List.head?_eq_none_iff, start, ← List.head?_eq_none_iff (l := cs)]
    by_cases outer : cs.head? = some sep
    · simp [outer]
    · simp [outer]
  rw [split, List.mem_cons, not_or, empty, not_or, List.tail_cons, and_assoc]

/-- Behind the first word none is empty exactly if each separator is followed by something else. -/
theorem nil_notMem_tail_iff :
    [] ∉ (cs.splitOn sep).tail ↔ cs.getLast? ≠ some sep ∧ hasDouble sep cs = false := by
  induction cs with
  | nil => simp [hasDouble]
  | cons c cs ih =>
    by_cases hc : c = sep
    · subst hc
      rw [splitOn_cons_self, List.tail_cons, nil_notMem_splitOn_iff, ih]
      cases cs with
      | nil => simp
      | cons d cs =>
        rw [List.getLast?_cons_cons, hasDouble]
        by_cases hd : d = c
        · simp [hd]
        · simp [hd]
    · rw [splitOn_cons_of_ne hc, List.tail_modifyHead, ih]
      cases cs with
      | nil => simp [hc, hasDouble]
      | cons d cs =>
        rw [List.getLast?_cons_cons, hasDouble]
        simp [hc]

/-- What stands behind the last dot is the last word. -/
theorem getLast?_splitOn (cs : List Char) : (cs.splitOn '.').getLast? = some (lastLabel cs) := by
  have whole : cs = (cs.reverse.dropWhile (· ≠ '.')).reverse ++ lastLabel cs := by
    rw [lastLabel, ← List.reverse_append, List.takeWhile_append_dropWhile, List.reverse_reverse]
  have plain : '.' ∉ lastLabel cs := by
    intro dot
    simpa using List.all_eq_true.mp List.all_takeWhile '.' (List.mem_reverse.mp dot)
  have single : (lastLabel cs).splitOn '.' = [lastLabel cs] := List.splitOn_eq_singleton plain
  have stop := List.head?_dropWhile_not (· ≠ '.') cs.reverse
  cases front : cs.reverse.dropWhile (· ≠ '.') with
  | nil =>
    rw [front, List.reverse_nil, List.nil_append] at whole
    rw [whole.symm] at single
    rw [single, ← whole]
    rfl
  | cons d rest =>
    rw [front] at stop
    have dot : d = '.' := by simpa using stop
    rw [front, dot, List.reverse_cons, List.append_assoc, List.singleton_append] at whole
    have parts := congrArg (List.splitOn '.') whole
    rw [List.splitOn_append_cons_self, single] at parts
    rw [parts, List.getLast?_append]
    rfl

theorem getLast?_lastLabel (cs : List Char) :
    (lastLabel cs).getLast? = if cs.getLast? = some '.' then none else cs.getLast? := by
  rw [lastLabel, List.getLast?_reverse, List.head?_takeWhile, List.head?_reverse]
  cases cs.getLast? with
  | none => rfl
  | some c =>
    by_cases hc : c = '.'
    · simp [hc]
    · simp [hc]

theorem isJoined_iff (apart : ¬ p sep) : IsJoined sep p cs
    ↔ cs ≠ [] ∧ hasOuter (· = sep) cs = false ∧ hasDouble sep cs = false
      ∧ ∀ c ∈ cs, c = sep ∨ p c := by
  have words : IsJoined sep p cs ↔ [] ∉ cs.splitOn sep ∧ ∀ c ∈ (cs.splitOn sep).flatten, p c := by
    rw [isJoined_iff_splitOn apart]
    constructor
    · intro spelled
      refine ⟨fun empty => (spelled [] empty).1 rfl, fun c hc => ?_⟩
      obtain ⟨w, hw, hc⟩ := List.mem_flatten.mp hc
      exact (spelled w hw).2 c hc
    · rintro ⟨filled, spelled⟩ w hw
      exact ⟨fun empty => filled (empty ▸ hw),
        fun c hc => spelled c (List.mem_flatten.mpr ⟨w, hw, hc⟩)⟩
  have chars : (∀ c ∈ (cs.splitOn sep).flatten, p c) ↔ ∀ c ∈ cs, c = sep ∨ p c := by
    rw [flatten_splitOn]
    refine forall_congr' fun c => ?_
    rw [List.mem_filter, decide_eq_true_eq, and_imp, or_iff_not_imp_left]
  rw [words, nil_notMem_splitOn_iff, nil_notMem_tail_iff, chars, hasOuter_char_eq_false_iff]
  tauto

end

end CertAuthority.Text
