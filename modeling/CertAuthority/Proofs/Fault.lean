import CertAuthority.Fault
import CertAuthority.Proofs.Der.Element

namespace CertAuthority

variable {α β ε : Type}

/-- A step and what follows it succeed when both do. -/
theorem bind_eq_ok {x : Except ε α} {f : α → Except ε β} {b : β} :
    x >>= f = .ok b ↔ ∃ a, x = .ok a ∧ f a = .ok b := by
  cases x with
  | error e =>
    constructor
    · intro h; cases h
    · rintro ⟨a, ha, -⟩; cases ha
  | ok a =>
    constructor
    · exact fun h => ⟨a, rfl, h⟩
    · rintro ⟨a', ha, h⟩; cases ha; exact h

theorem map_eq_ok {x : Except ε α} {f : α → β} {b : β} :
    x.map f = .ok b ↔ ∃ a, x = .ok a ∧ f a = b := by
  cases x with
  | error e =>
    constructor
    · intro h; cases h
    · rintro ⟨a, ha, -⟩; cases ha
  | ok a =>
    constructor
    · exact fun h => ⟨a, rfl, Except.ok.inj h⟩
    · rintro ⟨a', ha, rfl⟩; cases ha; rfl

theorem mapError_eq_ok {ε' : Type} {x : Except ε α} {f : ε → ε'} {a : α} :
    x.mapError f = .ok a ↔ x = .ok a := by
  cases x with
  | error e => simp [Except.mapError]
  | ok a' => simp [Except.mapError]

theorem exists_of_isOk {x : Except ε α} (h : x.isOk = true) : ∃ a, x = .ok a := by
  cases x with
  | error e => cases h
  | ok a => exact ⟨a, rfl⟩

theorem ok_bind (a : α) (f : α → Except ε β) : (Except.ok a >>= f) = f a := rfl

/-- A check that succeeds exactly if a condition holds, and else refuses the input. -/
def Decides (x : Except Fault α) (p : Prop) : Prop :=
  (p ∧ ∃ a, x = .ok a) ∨ (¬p ∧ ∃ f, x = .error (.input f))

namespace Decides

theorem ok (a : α) : Decides (.ok a) True := Or.inl ⟨trivial, a, rfl⟩

/-- Two checks one after another succeed if both conditions hold. -/
theorem bind {x : Except Fault α} {f : α → Except Fault β} {p q : Prop} (first : Decides x p)
    (second : ∀ a, x = .ok a → Decides (f a) q) : Decides (x >>= f) (p ∧ q) := by
  rcases first with ⟨hp, a, ha⟩ | ⟨hp, e, he⟩
  · rw [ha, ok_bind]
    rcases second a ha with ⟨hq, b, hb⟩ | ⟨hq, e, he⟩
    · exact Or.inl ⟨⟨hp, hq⟩, b, hb⟩
    · exact Or.inr ⟨fun h => hq h.2, e, he⟩
  · rw [he]
    exact Or.inr ⟨fun h => hp h.1, e, rfl⟩

theorem map {x : Except Fault α} {p : Prop} (h : Decides x p) (f : α → β) :
    Decides (x.map f) p := by
  rcases h with ⟨hp, a, rfl⟩ | ⟨hp, e, rfl⟩
  · exact Or.inl ⟨hp, f a, rfl⟩
  · exact Or.inr ⟨hp, e, rfl⟩

theorem iff {x : Except Fault α} {p q : Prop} (h : Decides x p) (same : p ↔ q) : Decides x q := by
  rwa [← propext same]

theorem exists_ok {x : Except Fault α} {p : Prop} (h : Decides x p) (hp : p) : ∃ a, x = .ok a := by
  rcases h with ⟨-, done⟩ | ⟨no, -⟩
  · exact done
  · exact absurd hp no

theorem of_ok {x : Except Fault α} {p : Prop} (h : Decides x p) {a : α} (done : x = .ok a) : p := by
  rcases h with ⟨hp, -⟩ | ⟨-, e, refused⟩
  · exact hp
  · rw [done] at refused
    cases refused

theorem exists_input {x : Except Fault α} {p : Prop} (h : Decides x p) (hp : ¬p) :
    ∃ f, x = .error (.input f) := by
  rcases h with ⟨yes, -⟩ | ⟨-, refused⟩
  · exact absurd yes hp
  · exact refused

end Decides

theorem orMalformed_eq_ok {x : Option α} {a : α} : orMalformed x = .ok a ↔ x = some a := by
  cases x with
  | none => simp [orMalformed]
  | some b => simp [orMalformed]

theorem withinLimit_eq_ok {b b' : Bytes} :
    withinLimit b = .ok b' ↔ b = b' ∧ Der.fits b = true := by
  unfold withinLimit
  split
  next h => simp [h]
  next h => simp [h]

/-- An element that was written within the limit is read back. -/
theorem readable_of_withinLimit {e : Der.Element} {b : Bytes}
    (known : Der.Tag.isKnown e.tag = true) (h : withinLimit e.encode = .ok b) :
    b = e.encode ∧ e.Readable := by
  obtain ⟨same, fits⟩ := withinLimit_eq_ok.mp h
  exact ⟨same.symm, known, Der.Element.fits_of_encode fits⟩

end CertAuthority
