import CertAuthority.Bytes
import CertAuthority.Fault

namespace CertAuthority

/-- A source of numbers below a bound, which may fail and keeps a state of its own. -/
structure RandomSource (m : Type → Type) where
  draw : Nat → ExceptT Fault m Nat

namespace Entropy

def roundSize (bound : Nat) : Nat := (bitLength (bound - 1) + 7) / 8

/-- The number that the bytes of one round stand for: as many low bits as the greatest number
below the bound has. -/
def candidate (bound : Nat) (round : Bytes) : Nat := beNat round % (1 <<< bitLength (bound - 1))

/-- Takes rounds off the random bytes until one stands for a number below the bound. -/
def rounds (bound : Nat) (bytes : Bytes) : Except Fault Nat × Bytes :=
  let round := bytes.take (roundSize bound)
  if roundSize bound = 0 ∨ round.length < roundSize bound then
    (.error (.entropy .exhausted), bytes)
  else if candidate bound round < bound then
    (.ok (candidate bound round), bytes.drop (roundSize bound))
  else rounds bound (bytes.drop (roundSize bound))
termination_by bytes.length
decreasing_by
  simp only [round, List.length_take, List.length_drop] at *
  omega

/-- A number below a bound, with the random bytes that are left. One as the bound leaves
nothing to draw. -/
def drawBelow (bound : Nat) (bytes : Bytes) : Except Fault Nat × Bytes :=
  if bound = 0 then (.error (.input .zeroBound), bytes)
  else if bound = 1 then (.ok 0, bytes)
  else rounds bound bytes

def source : RandomSource (StateM Bytes) := ⟨fun bound bytes => drawBelow bound bytes⟩

end Entropy

end CertAuthority
