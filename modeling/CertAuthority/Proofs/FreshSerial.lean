import CertAuthority.Proofs.Certificate.Contents
import CertAuthority.Proofs.Chain.Calls
import CertAuthority.Proofs.Entropy

namespace CertAuthority

namespace RandomSource

variable {σ : Type}

/-- The answers of a source that is asked time and again for a number below a bound. -/
inductive Answers (source : RandomSource (StateM σ)) (bound : Nat) :
    σ → List (Except Fault Nat) → σ → Prop
  | nil {s : σ} : Answers source bound s [] s
  | cons {s s' s'' : σ} {a : Except Fault Nat} {later : List (Except Fault Nat)}
      (first : (source.draw bound).run.run s = (a, s')) (rest : Answers source bound s' later s'') :
      Answers source bound s (a :: later) s''

def IsBounded (source : RandomSource (StateM σ)) : Prop :=
  ∀ bound n s s', (source.draw bound).run.run s = (.ok n, s') → n < bound

theorem Answers.lt_bound {source : RandomSource (StateM σ)} {bound n : Nat} {s s' : σ}
    {answers : List (Except Fault Nat)} (bounded : source.IsBounded)
    (h : source.Answers bound s answers s') (hn : .ok n ∈ answers) : n < bound := by
  induction h with
  | nil => cases hn
  | cons first _ ih =>
    rcases List.mem_cons.mp hn with rfl | later
    · exact bounded bound n _ _ first
    · exact ih later

end RandomSource

theorem Entropy.source_isBounded : Entropy.source.IsBounded :=
  fun _ _ _ _ drawn => lt_of_drawBelow drawn

namespace SerialNumber

/-- What comes of answers to at most `k` draws: after fewer zeros than that one answer of another
kind, which is the outcome, or else only zeros. -/
def Ends (k : Nat) (answers : List (Except Fault Nat)) (out : Except Fault SerialNumber) : Prop :=
  (∃ zeros < k, ∃ last, answers = List.replicate zeros (.ok 0) ++ [last] ∧ last ≠ .ok 0
      ∧ out = last)
    ∨ (answers = List.replicate k (.ok 0) ∧ out = .error (.entropy (.zeros maxDraws)))

section

variable {k n : Nat} {answers : List (Except Fault Nat)} {out : Except Fault SerialNumber}

theorem Ends.single {a : Except Fault Nat} (h : a ≠ .ok 0) : Ends (k + 1) [a] a :=
  Or.inl ⟨0, by omega, a, rfl, h, rfl⟩

theorem Ends.zero_cons (h : Ends k answers out) : Ends (k + 1) (.ok 0 :: answers) out := by
  rcases h with ⟨zeros, few, last, rfl, counts, rfl⟩ | ⟨rfl, rfl⟩
  · exact Or.inl ⟨zeros + 1, by omega, out, rfl, counts, rfl⟩
  · exact Or.inr ⟨rfl, rfl⟩

theorem Ends.length_le (h : Ends k answers out) : answers.length ≤ k := by
  rcases h with ⟨zeros, few, last, rfl, -⟩ | ⟨rfl, -⟩
  · rw [List.length_append, List.length_replicate, List.length_singleton]
    omega
  · rw [List.length_replicate]

/-- A number that comes out is the last answer. -/
theorem Ends.mem_of_ok (h : Ends k answers (.ok n)) : n ≠ 0 ∧ .ok n ∈ answers := by
  rcases h with ⟨zeros, -, last, rfl, counts, rfl⟩ | ⟨-, failed⟩
  · exact ⟨fun zero => counts (by rw [zero]), by simp⟩
  · cases failed

end

/-- A draw that is neither the last one nor counts is followed by the next. -/
theorem run_generateWithin_succ {m : Type → Type} [Monad m] (source : RandomSource m) (k : Nat) :
    (generateWithin source (k + 1)).run = (source.draw (2 ^ 128)).run >>= fun a =>
      if a = .ok 0 then (generateWithin source k).run else pure a := by
  have bound : 1 <<< randomBits = 2 ^ 128 := Nat.one_shiftLeft _
  rw [generateWithin, bound, ExceptT.run_bind]
  refine congrArg ((source.draw (2 ^ 128)).run >>= ·) (funext fun a => ?_)
  cases a with
  | error e => rfl
  | ok n =>
    by_cases zero : n = 0
    · rw [zero, if_pos rfl]
      rfl
    · rw [if_neg (by simpa using zero)]
      show ExceptT.run (if n = 0 then _ else _) = _
      rw [if_neg zero]
      rfl

section

variable {σ : Type}

theorem generateWithin_ends (b : Backend (StateM σ)) (k : Nat) (s : σ) :
    ∃ answers out s', b.random.Answers (2 ^ 128) s answers s' ∧ Ends k answers out
      ∧ (generateWithin b.random k).run.run s = (out, s')
      ∧ ∀ calls, ((generateWithin b.recorded.random k).run.run calls).run s
        = ((out, calls ++ List.replicate answers.length (.draw (2 ^ 128))), s') := by
  induction k generalizing s with
  | zero =>
    refine ⟨[], _, s, .nil, Or.inr ⟨rfl, rfl⟩, rfl, fun calls => ?_⟩
    rw [List.length_nil, List.replicate_zero, List.append_nil]
    rfl
  | succ k ih =>
    cases drawn : (b.random.draw (2 ^ 128)).run.run s with
    | mk a s₁ =>
      have noted (calls : List Backend.Call) :
          ((b.recorded.random.draw (2 ^ 128)).run.run calls).run s
            = ((a, calls ++ [.draw (2 ^ 128)]), s₁) :=
        Chain.Operation.run_note (.draw (2 ^ 128)) drawn calls
      -- A zero stands in front of the answers to the remaining draws; anything else ends them.
      by_cases zero : a = .ok 0
      · subst zero
        obtain ⟨answers, out, s', asked, ended, alone, recorded⟩ := ih s₁
        refine ⟨_, out, s', .cons drawn asked, ended.zero_cons, ?_, fun calls => ?_⟩
        · rw [run_generateWithin_succ, StateT.run_bind, drawn]
          exact alone
        · have later := recorded (calls ++ [.draw (2 ^ 128)])
          rw [List.append_assoc, List.singleton_append] at later
          rw [run_generateWithin_succ, StateT.run_bind, StateT.run_bind, noted]
          exact later
      · refine ⟨[a], a, s₁, .cons drawn .nil, .single zero, ?_, fun calls => ?_⟩
        · rw [run_generateWithin_succ, StateT.run_bind, drawn]
          show StateT.run (if a = .ok 0 then _ else pure a) s₁ = _
          rw [if_neg zero]
          rfl
        · rw [run_generateWithin_succ, StateT.run_bind, StateT.run_bind, noted]
          show StateT.run (StateT.run (if a = .ok 0 then _ else pure a) _) s₁ = _
          rw [if_neg zero]
          rfl

/-- How a fresh serial number is drawn from the source of a backend: what the source answers, what
comes of that, that it is asked for no more and for nothing else, and that a number which comes of a
source within its bound fits the field of a certificate. -/
structure Generation (b : Backend (StateM σ)) (s : σ) (answers : List (Except Fault Nat))
    (out : Except Fault SerialNumber) (s' : σ) : Prop where
  asked : b.random.Answers (2 ^ 128) s answers s'
  few : answers.length ≤ maxDraws
  ended : Ends maxDraws answers out
  run : (generate b.random).run.run s = (out, s')
  calls : ((Chain.newSerial b.recorded).run.run []).run s
    = ((out, List.replicate answers.length (.draw (2 ^ 128))), s')
  fits : b.random.IsBounded → ∀ n, out = .ok n → 1 ≤ n ∧ n < 2 ^ 128
    ∧ ∃ content, n.toContent = .ok content ∧ ofContent content = n

/-- Whatever a source answers, the first answer that is not zero is what comes of a draw. -/
theorem generation (b : Backend (StateM σ)) (s : σ) :
    ∃ answers out s', Generation b s answers out s' := by
  obtain ⟨answers, out, s', asked, ended, run, recorded⟩ := generateWithin_ends b maxDraws s
  refine ⟨answers, out, s', asked, ended.length_le, ended, run, recorded [], ?_⟩
  rintro bounded n rfl
  obtain ⟨positive, drawn⟩ := ended.mem_of_ok
  have small : n < 2 ^ 128 := asked.lt_bound bounded drawn
  have room : n < 2 ^ 159 := small.trans (by decide)
  have written : toContent n = .ok (Der.integerContent n) := by
    rw [toContent_eq, if_pos room]
  exact ⟨Nat.pos_of_ne_zero positive, small, _, written, ofContent_toContent written⟩

end

/-- Of 32 random bytes the first sixteen spell zero, so the others spell the serial number. -/
theorem generation_sample :
    Entropy.source.IsBounded
      ∧ ∃ answers s', Generation (.standard Entropy.source (pure 1)) (List.replicate 31 0 ++ [7])
          answers (.ok 7) s'
        ∧ ∃ content, toContent 7 = .ok content ∧ ofContent content = 7 := by
  obtain ⟨answers, out, s', drawn⟩ :=
    generation (.standard Entropy.source (pure 1)) (List.replicate 31 0 ++ [7])
  have first : ((generate Entropy.source).run.run (List.replicate 31 0 ++ [7])).1 = .ok 7 := by
    decide +kernel
  have run : (generate Entropy.source).run.run (List.replicate 31 0 ++ [7]) = (out, s') := drawn.run
  rw [run] at first
  subst first
  exact ⟨Entropy.source_isBounded, answers, s', drawn,
    (drawn.fits Entropy.source_isBounded 7 rfl).2.2⟩

end SerialNumber

end CertAuthority
