import CertAuthority.Proofs.Der.Primitive
import Mathlib.Data.Nat.Digits.Lemmas

namespace CertAuthority.Oid

/-- The octet of a digit that another one follows. -/
def marked (digit : Nat) : UInt8 := UInt8.ofNat (0x80 + digit)

/-- The octets of an arc: its digits in base 128, the last one without a mark. -/
def arcOctets (arc : Nat) : Bytes :=
  (Nat.digits 128 (arc / 128)).reverse.map marked ++ [UInt8.ofNat (arc % 128)]

/-- The arcs that octets spell, given the value of the octets of the current arc that stand before
them. -/
def spelled : Nat → Bytes → List Nat
  | _, [] => []
  | value, x :: rest =>
    if x < 0x80 then (value * 128 + x.toNat) :: spelled 0 rest
    else spelled (value * 128 + x.toNat % 128) rest

theorem toNat_marked {digit : Nat} (h : digit < 128) : (marked digit).toNat = 0x80 + digit := by
  rw [marked, toNat_ofNat_mod]
  omega

theorem not_marked_lt {digit : Nat} (h : digit < 128) : ¬ marked digit < 0x80 := by
  have : (0x80 : UInt8).toNat = 128 := rfl
  rw [UInt8.lt_iff_toNat_lt, toNat_marked h]
  omega

theorem toNat_last (arc : Nat) : (UInt8.ofNat (arc % 128)).toNat = arc % 128 := by
  rw [toNat_ofNat_mod]
  omega

theorem last_lt (arc : Nat) : UInt8.ofNat (arc % 128) < 0x80 := by
  rw [UInt8.lt_iff_toNat_lt, toNat_last]
  exact Nat.mod_lt arc (by decide)

/-- Octets of marked digits, the most significant first, only add to the value. -/
theorem spelled_marked {digits : List Nat} (small : ∀ d ∈ digits, d < 128) (rest : Bytes) :
    spelled 0 (digits.reverse.map marked ++ rest) = spelled (Nat.ofDigits 128 digits) rest := by
  induction digits generalizing rest with
  | nil => rfl
  | cons digit digits ih =>
    obtain ⟨first, later⟩ := List.forall_mem_cons.mp small
    have value : (marked digit).toNat % 128 = digit := by
      rw [toNat_marked first]
      omega
    rw [List.reverse_cons, List.map_append, List.append_assoc, ih later, List.map_singleton,
      List.singleton_append, spelled, if_neg (not_marked_lt first), value, Nat.ofDigits_cons]
    congr 1
    omega

theorem digits_small (n : Nat) : ∀ d ∈ Nat.digits 128 n, d < 128 :=
  fun _ => Nat.digits_lt_base (by decide)

theorem spelled_arcOctets (arc : Nat) (rest : Bytes) :
    spelled 0 (arcOctets arc ++ rest) = arc :: spelled 0 rest := by
  rw [arcOctets, List.append_assoc, spelled_marked (digits_small _), Nat.ofDigits_digits,
    List.singleton_append, spelled, if_pos (last_lt arc), toNat_last]
  congr 1
  omega

/-- The octets of arcs tell the arcs apart. -/
theorem spelled_flatMap (arcs : List Nat) : spelled 0 (arcs.flatMap arcOctets) = arcs := by
  induction arcs with
  | nil => rfl
  | cons arc arcs ih => rw [List.flatMap_cons, spelled_arcOctets, ih]

/-- Whether an arc has four octets at most, or five and the last one brings at most four bits. -/
def IsShort (arc : Nat) : Prop := arc < 2 ^ 28 ∨ arc < 2 ^ 35 ∧ arc % 128 < 16

instance (arc : Nat) : Decidable (IsShort arc) := inferInstanceAs (Decidable (_ ∨ _))

theorem highBits_eq_zero_iff (x : UInt8) : x &&& 0xf0 = 0 ↔ x.toNat < 16 := by
  have all : ∀ n : Fin 256, UInt8.ofNat n.val &&& 0xf0 = 0 ↔ n.val < 16 := by decide +kernel
  have := all ⟨x.toNat, x.toNat_lt⟩
  rwa [UInt8.ofNat_toNat] at this

/-- Of marked octets there are at most four in an arc. -/
theorem arcsFit_marked {digits : List Nat} (small : ∀ d ∈ digits, d < 128) {k : Nat} (room : k ≤ 4)
    (rest : Bytes) : arcsFit k (digits.map marked ++ rest)
      = (decide (k + digits.length ≤ 4) && arcsFit (k + digits.length) rest) := by
  induction digits generalizing k with
  | nil => simp [room]
  | cons digit digits ih =>
    obtain ⟨first, later⟩ := List.forall_mem_cons.mp small
    have high : marked digit &&& 0xf0 ≠ 0 := by
      rw [Ne, highBits_eq_zero_iff, toNat_marked first]
      omega
    rw [List.map_cons, List.cons_append, arcsFit, List.length_cons]
    by_cases full : 4 ≤ k
    · rw [if_pos ⟨full, high⟩, decide_eq_false (by omega), Bool.false_and]
    · rw [if_neg fun h => full h.1, if_neg (not_marked_lt first), ih later (by omega)]
      have same : k + 1 + digits.length = k + (digits.length + 1) := by omega
      rw [same]

theorem digits_length_le_iff (arc m : Nat) :
    (Nat.digits 128 (arc / 128)).length ≤ m ↔ arc < 128 ^ (m + 1) := by
  rw [Nat.digits_length_le_iff (by decide), Nat.div_lt_iff_lt_mul (by decide), pow_succ]

theorem arcsFit_arcOctets (arc : Nat) (rest : Bytes) :
    arcsFit 0 (arcOctets arc ++ rest) = (decide (IsShort arc) && arcsFit 0 rest) := by
  have small : ∀ d ∈ (Nat.digits 128 (arc / 128)).reverse, d < 128 :=
    fun d hd => digits_small _ d (List.mem_reverse.mp hd)
  have three := digits_length_le_iff arc 3
  have four := digits_length_le_iff arc 4
  have bits := highBits_eq_zero_iff (UInt8.ofNat (arc % 128))
  rw [toNat_last] at bits
  rw [arcOctets, List.append_assoc, arcsFit_marked small (Nat.zero_le 4), List.length_reverse,
    List.singleton_append, arcsFit, if_pos (last_lt arc)]
  generalize (Nat.digits 128 (arc / 128)).length = size at three four
  by_cases short : IsShort arc
  · have fits : 0 + size ≤ 4 := by unfold IsShort at short; omega
    have last : 4 ≤ 0 + size → arc % 128 < 16 := by unfold IsShort at short; omega
    rw [if_neg fun h => h.2 (bits.mpr (last h.1)), decide_eq_true fits, decide_eq_true short]
  · rw [decide_eq_false short, Bool.false_and]
    by_cases fits : 0 + size ≤ 4
    · have last : 4 ≤ 0 + size ∧ ¬ arc % 128 < 16 := by unfold IsShort at short; omega
      rw [if_pos ⟨last.1, fun h => last.2 (bits.mp h)⟩, Bool.and_false]
    · rw [decide_eq_false fits, Bool.false_and]

theorem arcsFit_flatMap (arcs : List Nat) :
    arcsFit 0 (arcs.flatMap arcOctets) = true ↔ ∀ arc ∈ arcs, IsShort arc := by
  induction arcs with
  | nil => simp [arcsFit]
  | cons arc arcs ih =>
    rw [List.flatMap_cons, arcsFit_arcOctets, Bool.and_eq_true, decide_eq_true_iff, ih,
      List.forall_mem_cons]

/-- Where arcs are whole, the last octet bears no mark. -/
theorem last_of_arcsFit {k : Nat} {b : Bytes} (h : arcsFit k b = true) (filled : b ≠ []) :
    b.getLast?.any (· < 0x80) = true := by
  induction b generalizing k with
  | nil => exact absurd rfl filled
  | cons x b ih =>
    rw [arcsFit] at h
    cases b with
    | nil =>
      split at h
      next => cases h
      next =>
        split at h
        next low => exact decide_eq_true low
        next => simp [arcsFit] at h
    | cons y b =>
      rw [List.getLast?_cons_cons]
      split at h
      next => cases h
      next =>
        split at h
        next => exact ih h (List.cons_ne_nil y b)
        next => exact ih h (List.cons_ne_nil y b)

theorem ofContent?_isSome_iff (b : Bytes) : (ofContent? b).isSome = true ↔
    (minReadSize ≤ b.length ∧ b.length ≤ maxSize) ∧ b.head?.any (· < 120) = true
      ∧ arcsFit 0 (b.drop 1) = true := by
  unfold ofContent? ofSound? isSound
  have three : minReadSize = 3 := rfl
  constructor
  · intro h
    split at h
    next found =>
      split at h
      next sound =>
        simp only [Bool.and_eq_true, decide_eq_true_iff] at sound
        exact ⟨⟨found.1, sound.1.1.2⟩, sound.1.2, found.2⟩
      next => cases h
    next => cases h
  · rintro ⟨⟨least, most⟩, head, arcs⟩
    have last : b.getLast?.any (· < 0x80) = true := by
      obtain ⟨x, later, rfl⟩ := List.exists_cons_of_length_pos (show 0 < b.length by omega)
      have filled : later ≠ [] := by
        rintro rfl
        have one : [x].length = 1 := rfl
        omega
      rw [List.getLast?_cons_of_ne_nil filled]
      exact last_of_arcsFit arcs filled
    have two : 2 ≤ b.length := by omega
    rw [if_pos ⟨least, arcs⟩, dif_pos (by simp only [two, most, head, last]; rfl)]
    rfl

end CertAuthority.Oid

namespace CertAuthority

/-- The arcs of an object identifier. There are three roots, and below two of them forty arcs. -/
structure ArcPath where
  first : Nat
  second : Nat
  rest : List Nat
  sound : first ≤ 2 ∧ (first < 2 → second < 40)
deriving DecidableEq, Repr

namespace ArcPath

/-- The first two arcs as one. -/
def root (p : ArcPath) : Nat := 40 * p.first + p.second

def content (p : ArcPath) : Bytes := (p.root :: p.rest).flatMap Oid.arcOctets

def element (p : ArcPath) : Der.Element := ⟨Der.Tag.oid, p.content⟩

/-- An identifier that is read: three octets at least and not too many, the first two arcs in one
octet below 120 and no later arc too long. -/
structure IsReadable (p : ArcPath) : Prop where
  size : Oid.minReadSize ≤ p.content.length ∧ p.content.length ≤ Oid.maxSize
  root : p.root < 120
  rest : ∀ arc ∈ p.rest, Oid.IsShort arc

theorem isReadable_iff (p : ArcPath) : p.IsReadable ↔
    (Oid.minReadSize ≤ p.content.length ∧ p.content.length ≤ Oid.maxSize) ∧ p.root < 120
      ∧ ∀ arc ∈ p.rest, Oid.IsShort arc :=
  ⟨fun h => ⟨h.size, h.root, h.rest⟩, fun ⟨size, root, rest⟩ => ⟨size, root, rest⟩⟩

instance (p : ArcPath) : Decidable p.IsReadable := decidable_of_iff _ (isReadable_iff p).symm

theorem content_injective {p q : ArcPath} (same : p.content = q.content) : p = q := by
  have arcs : p.root :: p.rest = q.root :: q.rest := by
    rw [← Oid.spelled_flatMap (p.root :: p.rest), ← Oid.spelled_flatMap (q.root :: q.rest)]
    exact congrArg (Oid.spelled 0) same
  obtain ⟨root, rest⟩ := List.cons.inj arcs
  obtain ⟨a, b, later, hp⟩ := p
  obtain ⟨c, d, later', hq⟩ := q
  have first : a = c := by simp only [ArcPath.root] at root; omega
  have second : b = d := by simp only [ArcPath.root] at root; omega
  cases first
  cases second
  cases rest
  rfl

theorem content_of_root {p : ArcPath} (h : p.root < 128) :
    p.content = UInt8.ofNat p.root :: p.rest.flatMap Oid.arcOctets := by
  have none : p.root / 128 = 0 := Nat.div_eq_of_lt h
  rw [content, List.flatMap_cons, Oid.arcOctets, none, Nat.mod_eq_of_lt h]
  rfl

/-- An octet of the first two arcs that another one follows is too large. -/
theorem root_lt_of_head {p : ArcPath} (h : p.content.head?.any (· < 120) = true) :
    p.root < 120 := by
  by_cases one : p.root < 128
  · rw [content_of_root one] at h
    have low : UInt8.ofNat p.root < 120 := of_decide_eq_true h
    have value := UInt8.lt_iff_toNat_lt.mp low
    rw [toNat_ofNat_mod, Nat.mod_eq_of_lt (by omega)] at value
    exact value
  · have filled : (Nat.digits 128 (p.root / 128)).reverse ≠ [] := by
      rw [Ne, List.reverse_eq_nil_iff, Nat.digits_eq_nil_iff_eq_zero]
      omega
    obtain ⟨digit, digits, split⟩ := List.exists_cons_of_ne_nil filled
    have small : digit < 128 := by
      apply Oid.digits_small (p.root / 128)
      rw [← List.mem_reverse, split]
      exact List.mem_cons_self
    rw [content, List.flatMap_cons, Oid.arcOctets, split] at h
    have low : Oid.marked digit < 120 := of_decide_eq_true h
    have value := UInt8.lt_iff_toNat_lt.mp low
    have bound : (120 : UInt8).toNat = 120 := rfl
    rw [Oid.toNat_marked small] at value
    omega

/-- The identifiers that are read. -/
theorem ofContent?_isSome_iff (p : ArcPath) :
    (Oid.ofContent? p.content).isSome = true ↔ p.IsReadable := by
  rw [Oid.ofContent?_isSome_iff, isReadable_iff]
  refine and_congr_right fun _ => ?_
  constructor
  · rintro ⟨head, arcs⟩
    have root := root_lt_of_head head
    rw [content_of_root (by omega)] at arcs
    exact ⟨root, (Oid.arcsFit_flatMap p.rest).mp arcs⟩
  · rintro ⟨root, rest⟩
    have value : (UInt8.ofNat p.root).toNat = p.root := by
      rw [toNat_ofNat_mod]
      omega
    rw [content_of_root (by omega)]
    refine ⟨decide_eq_true (UInt8.lt_iff_toNat_lt.mpr ?_), (Oid.arcsFit_flatMap p.rest).mpr rest⟩
    rw [value]
    exact root

end ArcPath

end CertAuthority
