import CertAuthority.Store.Tree
import Mathlib.Data.List.Basic

namespace CertAuthority.Store.Tree

variable {t t' : Tree} {p q : Path} {n : Node}

theorem node?_nil (t : Tree) : t.node? [] = some .directory := rfl

theorem node?_set (below : p ≠ []) :
    (t.set p n).node? q = if q = p then some n else t.node? q := by
  by_cases root : q = []
  · subst q
    rw [if_neg fun same => below same.symm]
    rfl
  rw [node?, if_neg root, set]
  by_cases same : q = p
  · subst q
    simp
  · have others : (t.nodes.filter (·.1 ≠ p)).find? (·.1 = q) = t.nodes.find? (·.1 = q) := by
      rw [List.find?_filter]
      congr 1
      funext entry
      by_cases here : entry.1 = q
      · simp [here, same]
      · simp [here]
    have first : ¬ p = q := fun h => same h.symm
    rw [List.find?_cons_of_neg (by simpa using first), others, if_neg same, node?, if_neg root]

/-- Making directories changes nothing but what is on the way to the last of them. -/
theorem node?_makeFrom (t : Tree) {names : List String} (other : ¬ q <+: p ++ names) :
    (t.makeFrom p names).2.node? q = t.node? q := by
  induction names generalizing t p with
  | nil => rfl
  | cons name rest ih =>
    have way : p ++ name :: rest = (p ++ [name]) ++ rest := by simp
    rw [way] at other
    have apart : q ≠ p ++ [name] := by
      rintro rfl
      exact other (List.prefix_append _ _)
    rw [makeFrom]
    split
    next =>
      dsimp only
      split
      next => rfl
      next => exact ih t other
      next => rw [ih _ other, node?_set (by simp), if_neg apart]
    next => rfl

/-- Writing a file, even in vain, changes nothing but what is on the way to it. -/
theorem node?_write (t : Tree) {directory : Path} {name : String}
    (other : ¬ q <+: directory ++ [name]) (contents : Bytes) :
    (t.write directory name contents).2.node? q = t.node? q := by
  have made : (t.makeDirectory directory).2.node? q = t.node? q := by
    rw [makeDirectory]
    split
    next => exact node?_makeFrom t fun above => other (above.trans (List.prefix_append _ _))
    next => rfl
  have apart : q ≠ directory ++ [name] := by
    rintro rfl
    exact other List.prefix_rfl
  unfold write
  dsimp only
  split
  next => rw [node?_set (by simp), if_neg apart, made]
  next => exact made

theorem node?_of_write {directory : Path} {name : String} {contents : Bytes}
    (h : t.write directory name contents = (true, t')) :
    t'.node? (directory ++ [name]) = some (.file contents) := by
  unfold write at h
  dsimp only at h
  split at h
  next =>
    cases h
    rw [node?_set (by simp), if_pos rfl]
  next => cases h

section

variable (unbounded : t.limits = none)

include unbounded

theorem allows_all (name : String) : t.allows name = true := by
  rw [allows, unbounded]
  rfl

theorem reaches_all (p : Path) : t.reaches p = true := by
  rw [reaches, unbounded]
  rfl

theorem followFrom_directory (h : t.node? p = some .directory) (name : String)
    (rest : List String) : t.followFrom p (name :: rest) = t.followFrom (p ++ [name]) rest := by
  rw [followFrom, h]
  exact if_pos (allows_all unbounded name)

theorem makeFrom_directory {name : String} (h : t.node? (p ++ [name]) = some .directory)
    (rest : List String) : t.makeFrom p (name :: rest) = t.makeFrom (p ++ [name]) rest := by
  rw [makeFrom, if_pos (allows_all unbounded name)]
  simp only [h]

/-- A directory is made in another one unless a file has its name. -/
theorem makeFrom_last {name : String}
    (free : t.node? (p ++ [name]) = none ∨ t.node? (p ++ [name]) = some .directory) :
    ∃ t', t.makeFrom p [name] = (true, t') ∧ t'.limits = none
      ∧ ∀ q, t'.node? q = if q = p ++ [name] then some .directory else t.node? q := by
  rcases free with missing | there
  · refine ⟨t.set (p ++ [name]) .directory, ?_, unbounded, fun q => node?_set (by simp)⟩
    rw [makeFrom, if_pos (allows_all unbounded name)]
    simp only [missing]
    rfl
  · refine ⟨t, makeFrom_directory unbounded there [], unbounded, fun q => ?_⟩
    split
    next same => rw [same, there]
    next => rfl

variable {kind key file : String} (above : t.node? [kind] = some .directory)

include above

theorem follow_missing (h : t.node? [kind, key] = none) :
    t.follow [kind, key, file] = .missing := by
  have top := followFrom_directory unbounded (node?_nil t) kind [key, file]
  have middle := followFrom_directory unbounded above key [file]
  rw [follow, if_pos (reaches_all unbounded _), top, List.nil_append, middle, followFrom]
  simp only [List.singleton_append, h]

theorem follow_node (h : t.node? [kind, key] = some .directory)
    (there : t.node? [kind, key, file] = some n) : t.follow [kind, key, file] = .node n := by
  have top := followFrom_directory unbounded (node?_nil t) kind [key, file]
  have middle := followFrom_directory unbounded above key [file]
  have bottom := followFrom_directory unbounded h file []
  rw [follow, if_pos (reaches_all unbounded _), top, List.nil_append, middle,
    List.singleton_append, bottom, followFrom]
  simp only [List.cons_append, List.nil_append, there]

/-- Writing a file changes nothing but the file and the directory that it is in. -/
theorem write_spec (free : t.node? [kind, key] = none ∨ t.node? [kind, key] = some .directory)
    (plain : t.node? [kind, key, file] ≠ some .directory) (contents : Bytes) :
    ∃ t', t.write [kind, key] file contents = (true, t') ∧ t'.limits = none
      ∧ ∀ q, t'.node? q = if q = [kind, key, file] then some (.file contents)
        else if q = [kind, key] then some .directory else t.node? q := by
  obtain ⟨made, done, unbounded', nodes⟩ := makeFrom_last (p := [kind]) unbounded free
  have directory : t.makeDirectory [kind, key] = (true, made) := by
    rw [makeDirectory, if_pos (reaches_all unbounded _), makeFrom_directory unbounded above]
    exact done
  have room : made.node? [kind, key, file] ≠ some .directory := by
    rw [nodes, if_neg (by simp)]
    exact plain
  refine ⟨made.set [kind, key, file] (.file contents), ?_, unbounded', fun q => ?_⟩
  · rw [write, directory]
    exact if_pos ⟨rfl, reaches_all unbounded' _, allows_all unbounded' _, room⟩
  · rw [node?_set (by simp), nodes]
    rfl

end

end CertAuthority.Store.Tree
