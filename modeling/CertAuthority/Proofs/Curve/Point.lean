import CertAuthority.Proofs.Bytes
import CertAuthority.Proofs.Curve.Nist
import CertAuthority.Proofs.Key

namespace CertAuthority

namespace Weierstrass.Curve

/-- What the first octet says of an ordinate that is left out. Zero is taken for odd as well. -/
inductive Marks (c : Curve) (y : Nat) : UInt8 → Prop
  | even (parity : y % 2 = 0) : c.Marks y 2
  | odd (parity : y = 0 ∨ y % 2 = 1) : c.Marks y 3
  | lesser (least : y ≤ c.p - y) : c.Marks y 5

/-- The octets of a point: both coordinates, or one behind a mark for the other. -/
inductive Spells (c : Curve) (P : Point) : Bytes → Prop
  | whole : c.Spells P (c.encode P)
  | short {mark : UInt8} (marks : c.Marks P.y mark) : c.Spells P (mark :: fixedBytes c.size P.x)

variable {c : Curve} {P Q : Point} {b : Bytes}

theorem onCurve?_eq_some {R : PointOn c} (h : c.onCurve? P = some R) : R.toPoint = P := by
  rw [onCurve?] at h
  split at h
  next => exact Option.some.inj h ▸ rfl
  next => cases h

theorem decompress?_eq_some (p_odd : c.p % 2 = 1) {x : Nat} {odd : Bool} {R : PointOn c}
    (h : c.decompress? x odd = some R) : R.x = x ∧ (R.y = 0 ∨ R.y % 2 = odd.toNat) := by
  rw [decompress?] at h
  split at h
  next =>
    obtain ⟨root, found, h⟩ := Option.bind_eq_some_iff.mp h
    have below := (Modular.sqrt?_eq_some (by omega) found).1
    have point := onCurve?_eq_some h
    have chosen := Modular.chosen_root p_odd below (congrArg Point.y point)
    exact ⟨congrArg Point.x point, chosen.2.1⟩
  next => cases h

/-- A root of the right side gives a point, which is not refused. -/
theorem decompress?_isSome_iff (p_odd : c.p % 2 = 1) (x : Nat) (odd : Bool) :
    (c.decompress? x odd).isSome = true
      ↔ x < c.p ∧ (Modular.sqrt? c.p c.nonresidue (c.rightSide x)).isSome = true := by
  rw [decompress?]
  split
  next below =>
    cases found : Modular.sqrt? c.p c.nonresidue (c.rightSide x) with
    | none => simp
    | some root =>
      obtain ⟨small, square⟩ := Modular.sqrt?_eq_some (by omega) found
      obtain ⟨chosen, -, same⟩ := Modular.chosen_root p_odd small
        (rfl : (if (root % 2 == 1) == odd then root else (0 + (c.p - root)) % c.p) = _)
      have on : c.contains ⟨x, if (root % 2 == 1) == odd then root else c.sub 0 root⟩ = true := by
        refine contains_iff.mpr ⟨⟨below, chosen⟩, ?_⟩
        rw [rightSide, Nat.mod_mod, ← rightSide] at square
        exact same.trans square
      rw [Option.bind_eq_bind, Option.bind_some, onCurve?, dif_pos on]
      simp [below]
  next above => simp [above]

/-- The lesser of two opposite ordinates is that of a point as well. -/
theorem onCurve?_lesser_isSome (P : PointOn c) :
    (c.onCurve? ⟨P.x, min P.y (c.p - P.y)⟩).isSome = true := by
  obtain ⟨⟨hx, hy⟩, square⟩ := contains_iff.mp P.sound
  have on : c.contains ⟨P.x, min P.y (c.p - P.y)⟩ = true := by
    refine contains_iff.mpr ⟨⟨hx, Nat.lt_of_le_of_lt (Nat.min_le_left _ _) hy⟩, ?_⟩
    rw [← square]
    rcases Nat.le_total P.y (c.p - P.y) with less | more
    · rw [Nat.min_eq_left less]
    · rw [Nat.min_eq_right more, ← ZMod.natCast_eq_natCast_iff', Nat.cast_mul, Nat.cast_mul,
        Nat.cast_sub hy.le, ZMod.natCast_self, zero_sub, neg_mul_neg]
  rw [onCurve?, dif_pos on]
  rfl

theorem spells_of_decode? (p_odd : c.p % 2 = 1) {R : PointOn c} (h : c.decode? b = some R) :
    c.Spells R b := by
  cases b with
  | nil => cases h
  | cons form b =>
    rw [decode?] at h
    split at h
    next whole =>
      obtain ⟨rfl, length⟩ := whole
      have point := onCurve?_eq_some h
      have first := fixedBytes_beNat (b := b.take c.size) (k := c.size) (by simp; omega)
      have second := fixedBytes_beNat (b := b.drop c.size) (k := c.size) (by simp; omega)
      have spelled : c.encode R = 4 :: b := by
        rw [point, encode, first, second, List.take_append_drop]
      exact spelled ▸ .whole
    next =>
      split at h
      next length =>
        have same := fixedBytes_beNat length
        split at h
        next even =>
          obtain ⟨x, parity⟩ := decompress?_eq_some p_odd h
          have parity : R.y % 2 = 0 := by
            rcases parity with zero | parity
            · rw [zero]
            · exact parity
          rw [even, ← same, ← x]
          exact .short (.even parity)
        next =>
          split at h
          next odd =>
            obtain ⟨x, parity⟩ := decompress?_eq_some p_odd h
            rw [odd, ← same, ← x]
            exact .short (.odd parity)
          next =>
            split at h
            next five =>
              obtain ⟨R', found, h⟩ := Option.bind_eq_some_iff.mp h
              obtain ⟨x, -⟩ := decompress?_eq_some p_odd found
              have point := onCurve?_eq_some h
              have least : R.y ≤ c.p - R.y := by
                rw [point]
                have := (contains_iff.mp R'.sound).1.2
                show min R'.y (c.p - R'.y) ≤ c.p - min R'.y (c.p - R'.y)
                omega
              have abscissa : R.x = beNat b := by rw [point, ← x]
              rw [five, ← same, ← abscissa]
              exact .short (.lesser least)
            next => cases h
      next => cases h

/-- Of two opposite ordinates only one is marked so. -/
theorem Marks.eq (p_odd : c.p % 2 = 1) {y z : Nat} {mark : UInt8} (first : c.Marks y mark)
    (second : c.Marks z mark) (hy : y < c.p) (hz : z < c.p) (opposite : y + z = c.p) : y = z := by
  cases first with
  | even parity => cases second with
    | even parity' => omega
  | odd parity => cases second with
    | odd parity' => omega
  | lesser least => cases second with
    | lesser least' => omega

theorem Spells.unique (prime : c.p.Prime) (p_odd : c.p % 2 = 1) (room : c.p ≤ 256 ^ c.size)
    (on : c.contains P = true) (on' : c.contains Q = true) (spells : c.Spells P b)
    (spells' : c.Spells Q b) : P = Q := by
  have whole := decode?_encode room ⟨P, on⟩
  obtain ⟨⟨hx, hy⟩, square⟩ := contains_iff.mp on
  obtain ⟨⟨hx', hy'⟩, square'⟩ := contains_iff.mp on'
  generalize hb : b = b' at spells'
  cases spells with
  | whole => cases spells' with
    | whole =>
      have whole' := decode?_encode room ⟨Q, on'⟩
      rw [← hb, whole] at whole'
      exact congrArg PointOn.toPoint (Option.some.inj whole')
    | short marks' =>
      -- No mark is the octet in front of both coordinates.
      cases (List.cons.inj hb).1
      nomatch marks'
  | @short mark marks => cases spells' with
    | whole =>
      cases (List.cons.inj hb).1
      nomatch marks
    | @short mark' marks' =>
      obtain ⟨rfl, abscissae⟩ := List.cons.inj hb
      have x : P.x = Q.x := by
        have first := beNat_fixedBytes_of_lt (Nat.lt_of_lt_of_le hx room)
        rw [abscissae, beNat_fixedBytes_of_lt (Nat.lt_of_lt_of_le hx' room)] at first
        exact first.symm
      have y : P.y = Q.y := by
        rw [← x, ← square] at square'
        rcases Modular.eq_or_add_eq_of_sq prime hy hy' square'.symm with same | opposite
        · exact same
        · exact marks.eq p_odd marks' hy hy' opposite
      cases P
      cases Q
      cases x
      cases y
      rfl

end Weierstrass.Curve

namespace Ed25519

/-- The equation of the curve, modulo the size of its field. -/
def IsOnCurve (x y : Nat) : Prop := y * y % p = (1 + x * x + d * (x * x) * (y * y)) % p

/-- The octets of a point: the ordinate, or a number that leaves it as remainder, in 255 bits, and
the parity of the abscissa in the last one. Zero is taken for odd as well. -/
structure Spells (x y : Nat) (b : Bytes) : Prop where
  length : b.length = size
  ordinate : leNat b % 2 ^ 255 % p = y
  below : x < p
  onCurve : IsOnCurve x y
  parity : x = 0 ∨ x % 2 = leNat b / 2 ^ 255

section
-- The size of the field is a variable here, since the number itself would be computed with.
variable {q d x x' y : Nat}

theorem cast_equation : y * y % q = (1 + x * x + d * (x * x) * (y * y)) % q
    ↔ (y * y : ZMod q) = 1 + x * x + d * (x * x) * (y * y) := by
  rw [← ZMod.natCast_eq_natCast_iff']
  push_cast
  rfl

theorem equation_of_root {inverse root : Nat} (pos : 0 < q)
    (inverted : (d * (y * y) + 1) % q * inverse % q = 1 % q)
    (square : root * root % q = (y * y + (q - 1)) * inverse % q % q)
    (same : x * x % q = root * root % q) :
    y * y % q = (1 + x * x + d * (x * x) * (y * y)) % q := by
  rw [← ZMod.natCast_eq_natCast_iff'] at inverted square same
  push_cast [Nat.cast_sub pos, ZMod.natCast_mod, ZMod.natCast_self] at inverted square same
  rw [cast_equation, same]
  linear_combination (-(1 + (d : ZMod q) * (y * y))) * square - ((y : ZMod q) * y - 1) * inverted

/-- The ordinate determines the square of the abscissa: its factor in the equation would be zero
only if `d` were minus one. -/
theorem sq_eq_of_equation [Fact q.Prime] (apart : (d + 1) % q ≠ 0)
    (h : y * y % q = (1 + x * x + d * (x * x) * (y * y)) % q)
    (h' : y * y % q = (1 + x' * x' + d * (x' * x') * (y * y)) % q) :
    x * x % q = x' * x' % q := by
  rw [cast_equation] at h h'
  rw [← ZMod.natCast_eq_natCast_iff']
  have product : ((x * x : ZMod q) - x' * x') * (1 + d * (y * y)) = 0 := by
    linear_combination h' - h
  push_cast
  rcases mul_eq_zero.mp product with same | zero
  · exact sub_eq_zero.mp same
  · have one : (y * y : ZMod q) = 1 := by linear_combination h + (x : ZMod q) * x * zero
    have factor : ((d + 1 : Nat) : ZMod q) = 0 := by
      push_cast
      linear_combination zero - (d : ZMod q) * one
    exact absurd (Nat.mod_eq_zero_of_dvd ((ZMod.natCast_eq_zero_iff _ _).mp factor)) apart

end

theorem abscissa?_eq_some {x y : Nat} {odd : Bool} (h : abscissa? y odd = some x) :
    x < p ∧ (x = 0 ∨ x % 2 = odd.toNat) ∧ IsOnCurve x y := by
  have pos := p_prime.pos
  have p_odd : p % 2 = 1 := by decide +kernel
  obtain ⟨inverse, inverted, h⟩ := Option.bind_eq_some_iff.mp h
  obtain ⟨root, found, h⟩ := Option.bind_eq_some_iff.mp h
  obtain ⟨below, square⟩ := Modular.sqrt?_eq_some pos found
  have chosen := (Option.some.inj h).symm
  obtain ⟨below, parity, same⟩ := Modular.chosen_root p_odd below chosen
  exact ⟨below, parity, equation_of_root pos (Modular.mul_inverse?_mod inverted) square same⟩

theorem parityBit_eq : parityBit = 2 ^ 255 := Nat.one_shiftLeft 255

theorem spells_of_isPublicKey {b : Bytes} (h : isPublicKey b = true) : ∃ x y, Spells x y b := by
  obtain ⟨P, read⟩ := Option.isSome_iff_exists.mp h
  rw [decode?] at read
  split at read
  next length =>
    obtain ⟨x, found, -⟩ := Option.bind_eq_some_iff.mp read
    obtain ⟨below, parity, onCurve⟩ := abscissa?_eq_some found
    refine ⟨x, _, length, rfl, below, onCurve, ?_⟩
    have bits := leNat_lt b
    rw [length] at bits
    rw [parityBit_eq] at parity
    have last : (leNat b / 2 ^ 255 == 1).toNat = leNat b / 2 ^ 255 := by
      have : leNat b / 2 ^ 255 < 2 := Nat.div_lt_of_lt_mul bits
      rcases Nat.le_one_iff_eq_zero_or_eq_one.mp (Nat.le_of_lt_succ this) with zero | one
      · rw [zero]
        rfl
      · rw [one]
        rfl
    rwa [last] at parity
  next => cases read

/-- Of the ordinate only the remainder counts. -/
theorem Spells.of_congruent {x y : Nat} {b b' : Bytes} (spells : Spells x y b)
    (length : b'.length = size) (ordinate : leNat b' % 2 ^ 255 % p = leNat b % 2 ^ 255 % p)
    (last : leNat b' / 2 ^ 255 = leNat b / 2 ^ 255) : Spells x y b' where
  length := length
  ordinate := ordinate.trans spells.ordinate
  below := spells.below
  onCurve := spells.onCurve
  parity := last ▸ spells.parity

theorem Spells.unique {x x' y y' : Nat} {b : Bytes} (spells : Spells x y b)
    (spells' : Spells x' y' b) : x = x' ∧ y = y' := by
  have := Fact.mk p_prime
  have ordinates : y = y' := spells.ordinate.symm.trans spells'.ordinate
  subst ordinates
  have squares := sq_eq_of_equation (by decide +kernel) spells.onCurve spells'.onCurve
  exact ⟨Modular.eq_of_sq_of_parity p_prime (by decide +kernel) spells.below spells'.below squares
    spells.parity spells'.parity, rfl⟩

end Ed25519

end CertAuthority
