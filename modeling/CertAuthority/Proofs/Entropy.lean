import CertAuthority.Proofs.Bytes
import CertAuthority.Random
import Mathlib.Data.Nat.Bitwise
import Mathlib.Data.Set.Card

namespace CertAuthority

theorem lt_two_pow_bitLength (n : Nat) : n < 2 ^ bitLength n := by
  unfold bitLength
  split
  next zero =>
    rw [zero]
    decide
  next => exact Nat.lt_log2_self

theorem two_pow_bitLength_le {n : Nat} (h : 0 < n) : 2 ^ bitLength n ≤ 2 * n := by
  have low := Nat.log2_self_le (Nat.ne_of_gt h)
  rw [bitLength, if_neg (Nat.ne_of_gt h), pow_succ]
  omega

namespace Entropy

/-- The bits of a round beyond those of the greatest number below the bound. -/
def excessBits (bound : Nat) : Nat := 8 * roundSize bound - bitLength (bound - 1)

/-- What a round yields: the number it stands for, if that is below the bound. -/
def accepted? (bound : Nat) (round : Bytes) : Option Nat :=
  if candidate bound round < bound then some (candidate bound round) else none

def clearTop (count : Nat) : Bytes → Bytes
  | [] => []
  | x :: rest => (x &&& (0xff >>> UInt8.ofNat count)) :: rest

section

variable {bound : Nat} {round rest : Bytes}

theorem excessBits_spec (bound : Nat) :
    8 * roundSize bound = bitLength (bound - 1) + excessBits bound ∧ excessBits bound < 8 := by
  have size : roundSize bound = (bitLength (bound - 1) + 7) / 8 := rfl
  have excess : excessBits bound = 8 * roundSize bound - bitLength (bound - 1) := rfl
  omega

theorem roundSize_pos (valid : 2 ≤ bound) : 0 < roundSize bound := by
  have bits := lt_two_pow_bitLength (bound - 1)
  have some : bitLength (bound - 1) ≠ 0 := by
    intro zero
    rw [zero] at bits
    omega
  have size : roundSize bound = (bitLength (bound - 1) + 7) / 8 := rfl
  omega

theorem candidate_eq (bound : Nat) (round : Bytes) :
    candidate bound round = beNat round % 2 ^ bitLength (bound - 1) := by
  rw [candidate, Nat.one_shiftLeft]

/-- The rounds are as many as their bits spell numbers: each number of the kept bits comes with all
values of the bits that are cleared. -/
theorem two_pow_excessBits_mul (bound : Nat) :
    2 ^ excessBits bound * 2 ^ bitLength (bound - 1) = 256 ^ roundSize bound := by
  have bits := (excessBits_spec bound).1
  calc 2 ^ excessBits bound * 2 ^ bitLength (bound - 1)
      = 2 ^ (8 * roundSize bound) := by rw [← pow_add, bits, Nat.add_comm]
    _ = 256 ^ roundSize bound := by rw [pow_mul, show 2 ^ 8 = 256 from rfl]

theorem toNat_and_shiftRight (x : UInt8) {count : Nat} (h : count < 8) :
    (x &&& (0xff >>> UInt8.ofNat count)).toNat = x.toNat % 2 ^ (8 - count) := by
  have mask : (0xff >>> UInt8.ofNat count : UInt8).toNat = 2 ^ (8 - count) - 1 := by
    revert count
    decide
  rw [UInt8.toNat_and, mask, Nat.and_two_pow_sub_one_eq_mod]

/-- A round stands for the number that it spells once the excess bits at its top are cleared. -/
theorem candidate_eq_clearTop (valid : 2 ≤ bound) (h : round.length = roundSize bound) :
    candidate bound round = beNat (clearTop (excessBits bound) round) := by
  obtain ⟨bits, few⟩ := excessBits_spec bound
  have filled := roundSize_pos valid
  cases round with
  | nil =>
    rw [List.length_nil] at h
    omega
  | cons x rest =>
    have length : rest.length + 1 = roundSize bound := h
    have low := beNat_lt rest
    have kept : 2 ^ bitLength (bound - 1) = 256 ^ rest.length * 2 ^ (8 - excessBits bound) := by
      calc 2 ^ bitLength (bound - 1)
          = 2 ^ (8 * rest.length + (8 - excessBits bound)) := by
            congr 1
            omega
        _ = 256 ^ rest.length * 2 ^ (8 - excessBits bound) := by
          rw [pow_add, pow_mul, show 2 ^ 8 = 256 from rfl]
    have whole : (x.toNat * 256 ^ rest.length + beNat rest) / 256 ^ rest.length = x.toNat := by
      rw [Nat.mul_comm, Nat.mul_add_div (by omega), Nat.div_eq_of_lt low, Nat.add_zero]
    have part : (x.toNat * 256 ^ rest.length + beNat rest) % 256 ^ rest.length = beNat rest := by
      rw [Nat.mul_comm, Nat.mul_add_mod, Nat.mod_eq_of_lt low]
    rw [candidate_eq, clearTop, beNat_cons, beNat_cons, toNat_and_shiftRight x few, kept,
      Nat.mod_mul, whole, part]
    ring

theorem accepted?_eq_some {n : Nat} :
    accepted? bound round = some n ↔ candidate bound round = n ∧ n < bound := by
  unfold accepted?
  split
  next below =>
    constructor
    · intro h
      cases Option.some.inj h
      exact ⟨rfl, below⟩
    · rintro ⟨rfl, -⟩
      rfl
  next above =>
    constructor
    · intro h
      cases h
    · rintro ⟨rfl, below⟩
      exact absurd below above

/-- The round with given bits in the place of those that are cleared and of those that are kept. -/
def ofBits (bound cleared n : Nat) : Bytes :=
  fixedBytes (roundSize bound) (cleared * 2 ^ bitLength (bound - 1) + n)

theorem beNat_ofBits {cleared n : Nat} (hc : cleared < 2 ^ excessBits bound)
    (hn : n < 2 ^ bitLength (bound - 1)) :
    beNat (ofBits bound cleared n) = cleared * 2 ^ bitLength (bound - 1) + n := by
  apply beNat_fixedBytes_of_lt
  calc cleared * 2 ^ bitLength (bound - 1) + n
      < (cleared + 1) * 2 ^ bitLength (bound - 1) := by
        rw [Nat.succ_mul]
        omega
    _ ≤ 2 ^ excessBits bound * 2 ^ bitLength (bound - 1) := Nat.mul_le_mul_right _ hc
    _ = 256 ^ roundSize bound := two_pow_excessBits_mul bound

theorem candidate_ofBits {cleared n : Nat} (hc : cleared < 2 ^ excessBits bound)
    (hn : n < 2 ^ bitLength (bound - 1)) : candidate bound (ofBits bound cleared n) = n := by
  rw [candidate_eq, beNat_ofBits hc hn, Nat.mul_comm, Nat.mul_add_mod, Nat.mod_eq_of_lt hn]

theorem exists_ofBits (h : round.length = roundSize bound) :
    ∃ cleared < 2 ^ excessBits bound, ofBits bound cleared (candidate bound round) = round := by
  have room := beNat_lt round
  rw [h, ← two_pow_excessBits_mul, Nat.mul_comm] at room
  refine ⟨beNat round / 2 ^ bitLength (bound - 1), Nat.div_lt_of_lt_mul room, ?_⟩
  rw [ofBits, candidate_eq, Nat.div_add_mod', fixedBytes_beNat h]

theorem eq_of_ofBits {cleared cleared' n n' : Nat} (hc : cleared < 2 ^ excessBits bound)
    (hc' : cleared' < 2 ^ excessBits bound) (hn : n < 2 ^ bitLength (bound - 1))
    (hn' : n' < 2 ^ bitLength (bound - 1))
    (same : ofBits bound cleared n = ofBits bound cleared' n') : cleared = cleared' ∧ n = n' := by
  have kept : n = n' := by
    rw [← candidate_ofBits hc hn, same, candidate_ofBits hc' hn']
  have number := congrArg beNat same
  rw [beNat_ofBits hc hn, beNat_ofBits hc' hn', kept, Nat.add_right_cancel_iff] at number
  exact ⟨Nat.eq_of_mul_eq_mul_right (Nat.two_pow_pos _) number, kept⟩

/-- The rounds that stand for a number of a set are told apart by that number and by their cleared
bits. -/
theorem ncard_candidate_mem (bound : Nat) (values : Finset Nat)
    (small : ∀ n ∈ values, n < 2 ^ bitLength (bound - 1)) :
    {round : Bytes | round.length = roundSize bound ∧ candidate bound round ∈ values}.ncard
      = 2 ^ excessBits bound * values.card := by
  let join : Nat × Nat → Bytes := fun part => ofBits bound part.1 part.2
  have parts : ∀ part ∈ Finset.range (2 ^ excessBits bound) ×ˢ values,
      part.1 < 2 ^ excessBits bound ∧ part.2 ∈ values := fun part hp =>
    ⟨Finset.mem_range.mp (Finset.mem_product.mp hp).1, (Finset.mem_product.mp hp).2⟩
  have image : {round : Bytes | round.length = roundSize bound ∧ candidate bound round ∈ values}
      = join '' (Finset.range (2 ^ excessBits bound) ×ˢ values : Finset (Nat × Nat)) := by
    ext round
    constructor
    · rintro ⟨length, hn⟩
      obtain ⟨cleared, hc, whole⟩ := exists_ofBits length
      exact ⟨(cleared, candidate bound round),
        Finset.mem_product.mpr ⟨Finset.mem_range.mpr hc, hn⟩, whole⟩
    · rintro ⟨part, hp, rfl⟩
      obtain ⟨hc, hn⟩ := parts part hp
      have value : candidate bound (join part) = part.2 := candidate_ofBits hc (small _ hn)
      refine ⟨fixedBytes_length _ _, ?_⟩
      rw [value]
      exact hn
  have apart :
      Set.InjOn join (Finset.range (2 ^ excessBits bound) ×ˢ values : Finset (Nat × Nat)) := by
    intro part hp part' hp' same
    obtain ⟨hc, hn⟩ := parts part hp
    obtain ⟨hc', hn'⟩ := parts part' hp'
    obtain ⟨cleared, kept⟩ := eq_of_ofBits hc hc' (small _ hn) (small _ hn') same
    exact Prod.ext cleared kept
  rw [image, apart.ncard_image, Set.ncard_coe_finset, Finset.card_product, Finset.card_range]

theorem ncard_round (bound : Nat) :
    {round : Bytes | round.length = roundSize bound}.ncard = 256 ^ roundSize bound := by
  have all := ncard_candidate_mem bound (Finset.range (2 ^ bitLength (bound - 1)))
    fun n hn => Finset.mem_range.mp hn
  have every : {round : Bytes | round.length = roundSize bound
      ∧ candidate bound round ∈ Finset.range (2 ^ bitLength (bound - 1))}
      = {round : Bytes | round.length = roundSize bound} := by
    ext round
    refine and_iff_left (Finset.mem_range.mpr ?_)
    rw [candidate_eq]
    exact Nat.mod_lt _ (Nat.two_pow_pos _)
  rw [every, Finset.card_range, two_pow_excessBits_mul] at all
  exact all

/-- Numbers below the bound have no more bits than the greatest one. -/
theorem lt_of_lt_bound {n : Nat} (h : n < bound) : n < 2 ^ bitLength (bound - 1) := by
  have greatest := lt_two_pow_bitLength (bound - 1)
  omega

theorem ncard_accepted {n : Nat} (h : n < bound) :
    {round : Bytes | round.length = roundSize bound ∧ accepted? bound round = some n}.ncard
      = 2 ^ excessBits bound := by
  have one := ncard_candidate_mem bound {n} fun m hm => by
    rw [Finset.mem_singleton.mp hm]
    exact lt_of_lt_bound h
  have same : {round : Bytes | round.length = roundSize bound ∧ accepted? bound round = some n}
      = {round : Bytes | round.length = roundSize bound
        ∧ candidate bound round ∈ ({n} : Finset Nat)} := by
    ext round
    refine and_congr_right fun _ => ?_
    rw [accepted?_eq_some, Finset.mem_singleton]
    exact and_iff_left h
  rw [same, one, Finset.card_singleton, Nat.mul_one]

theorem ncard_isSome (bound : Nat) :
    {round : Bytes | round.length = roundSize bound ∧ (accepted? bound round).isSome = true}.ncard
      = 2 ^ excessBits bound * bound := by
  have all := ncard_candidate_mem bound (Finset.range bound)
    fun n hn => lt_of_lt_bound (Finset.mem_range.mp hn)
  have same : {round : Bytes | round.length = roundSize bound
        ∧ (accepted? bound round).isSome = true}
      = {round : Bytes | round.length = roundSize bound
        ∧ candidate bound round ∈ Finset.range bound} := by
    ext round
    refine and_congr_right fun _ => ?_
    rw [accepted?, Finset.mem_range]
    split
    next below => simp [below]
    next above => simp [above]
  rw [same, all, Finset.card_range]

/-- The greatest number below the bound has its top bit set. -/
theorem lt_two_mul_accepted (valid : 2 ≤ bound) :
    256 ^ roundSize bound < 2 * (2 ^ excessBits bound * bound) := by
  have top := two_pow_bitLength_le (show 0 < bound - 1 by omega)
  have positive : 0 < 2 ^ excessBits bound := Nat.two_pow_pos _
  calc 256 ^ roundSize bound
      = 2 ^ excessBits bound * 2 ^ bitLength (bound - 1) := (two_pow_excessBits_mul bound).symm
    _ ≤ 2 ^ excessBits bound * (2 * (bound - 1)) := Nat.mul_le_mul_left _ top
    _ < 2 ^ excessBits bound * (2 * bound) := Nat.mul_lt_mul_of_pos_left (by omega) positive
    _ = 2 * (2 ^ excessBits bound * bound) := by ring

/-- What a draw does with the random bytes: it passes over rounds that yield nothing and ends with
the first one that yields a number, or where less than a round is left. -/
inductive Draws (bound : Nat) : Bytes → Except Fault Nat × Bytes → Prop
  | accepted {round rest : Bytes} {n : Nat} (size : round.length = roundSize bound)
      (yields : accepted? bound round = some n) : Draws bound (round ++ rest) (.ok n, rest)
  | rejected {round rest : Bytes} {out : Except Fault Nat × Bytes}
      (size : round.length = roundSize bound) (yields : accepted? bound round = none)
      (later : Draws bound rest out) : Draws bound (round ++ rest) out
  | failed {rest : Bytes} (short : rest.length < roundSize bound) :
      Draws bound rest (.error (.entropy .exhausted), rest)

theorem rounds_append (valid : 2 ≤ bound) (size : round.length = roundSize bound) :
    rounds bound (round ++ rest) = match accepted? bound round with
      | some n => (.ok n, rest)
      | none => rounds bound rest := by
  have filled := roundSize_pos valid
  rw [rounds, List.take_left' size, List.drop_left' size, if_neg (by omega), accepted?]
  split
  next => rfl
  next => rfl

theorem rounds_short (short : rest.length < roundSize bound) :
    rounds bound rest = (.error (.entropy .exhausted), rest) := by
  rw [rounds, if_pos (Or.inr ?_)]
  rw [List.length_take]
  omega

theorem draws_rounds (valid : 2 ≤ bound) (bytes : Bytes) :
    Draws bound bytes (rounds bound bytes) := by
  have filled := roundSize_pos valid
  by_cases short : bytes.length < roundSize bound
  · rw [rounds_short short]
    exact .failed short
  · have size : (bytes.take (roundSize bound)).length = roundSize bound := by
      rw [List.length_take]
      omega
    have run : rounds bound (bytes.take (roundSize bound) ++ bytes.drop (roundSize bound)) = _ :=
      rounds_append valid size
    have less : (bytes.drop (roundSize bound)).length < bytes.length := by
      rw [List.length_drop]
      omega
    rw [List.take_append_drop] at run
    rw [run]
    nth_rewrite 1 [← List.take_append_drop (roundSize bound) bytes]
    cases yields : accepted? bound (bytes.take (roundSize bound)) with
    | some n => exact .accepted size yields
    | none => exact .rejected size yields (draws_rounds valid _)
termination_by bytes.length

theorem Draws.eq_rounds (valid : 2 ≤ bound) {bytes : Bytes} {out : Except Fault Nat × Bytes}
    (h : Draws bound bytes out) : rounds bound bytes = out := by
  induction h with
  | accepted size yields => rw [rounds_append valid size, yields]
  | rejected size yields _ ih => rw [rounds_append valid size, yields, ih]
  | failed short => exact rounds_short short

theorem Draws.lt_bound {bytes rest : Bytes} {n : Nat} (h : Draws bound bytes (.ok n, rest)) :
    n < bound := by
  generalize drawn : (Except.ok n, rest) = out at h
  induction h with
  | accepted _ yields =>
    cases drawn
    exact (accepted?_eq_some.mp yields).2
  | rejected _ _ _ ih => exact ih drawn
  | failed => cases drawn

end

/-- A fair draw below a bound: how the bytes of a round are read, how many rounds there are, how
many yield each number and any number at all, and what is done with the random bytes. -/
structure IsFair (bound : Nat) : Prop where
  bits : 8 * roundSize bound = bitLength (bound - 1) + excessBits bound ∧ excessBits bound < 8
  reading : ∀ round : Bytes, round.length = roundSize bound →
    candidate bound round = beNat (clearTop (excessBits bound) round)
  rounds : {round : Bytes | round.length = roundSize bound}.ncard = 256 ^ roundSize bound
  each : ∀ n < bound, {round : Bytes | round.length = roundSize bound
    ∧ accepted? bound round = some n}.ncard = 2 ^ excessBits bound
  others : ∀ round n, accepted? bound round = some n → n < bound
  most : 256 ^ roundSize bound < 2 * {round : Bytes | round.length = roundSize bound
    ∧ (accepted? bound round).isSome = true}.ncard
  run : ∀ bytes out, drawBelow bound bytes = out ↔ Draws bound bytes out

theorem isFair {bound : Nat} (valid : 2 ≤ bound) : IsFair bound where
  bits := excessBits_spec bound
  reading _ := candidate_eq_clearTop valid
  rounds := ncard_round bound
  each _ := ncard_accepted
  others _ _ yields := (accepted?_eq_some.mp yields).2
  most := by
    rw [ncard_isSome]
    exact lt_two_mul_accepted valid
  run bytes out := by
    rw [drawBelow, if_neg (by omega), if_neg (by omega)]
    exact ⟨fun h => h ▸ draws_rounds valid bytes, Draws.eq_rounds valid⟩

theorem lt_of_drawBelow {bound n : Nat} {bytes rest : Bytes}
    (drawn : drawBelow bound bytes = (.ok n, rest)) : n < bound := by
  by_cases valid : 2 ≤ bound
  · exact ((isFair valid).run bytes _).mp drawn |>.lt_bound
  · unfold drawBelow at drawn
    split at drawn
    next => cases drawn
    next =>
      split at drawn
      next one =>
        cases drawn
        omega
      next => omega

/-- A draw is refused without a number below the bound, is never beyond the bound, and is fair. -/
theorem drawBelow_fair (bound : Nat) :
    (bound = 0 → ∀ bytes, drawBelow bound bytes = (.error (.input .zeroBound), bytes))
      ∧ (∀ bytes n rest, drawBelow bound bytes = (.ok n, rest) → n < bound)
      ∧ (2 ≤ bound → IsFair bound) := by
  refine ⟨?_, fun _ _ _ => lt_of_drawBelow, isFair⟩
  rintro rfl bytes
  rfl

end Entropy

end CertAuthority
