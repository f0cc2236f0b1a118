namespace CertAuthority.Modular

def pow (b e m : Nat) : Nat := go (b % m) e (1 % m)
where
  go (b e acc : Nat) : Nat :=
    if e = 0 then acc
    else go (b * b % m) (e / 2) (if e % 2 = 1 then acc * b % m else acc)
  termination_by e
  decreasing_by omega

/-- Divides with remainder down to the greatest common divisor, with the factor of the first
number that gives each remainder. -/
def bezout (r0 r1 : Nat) (s0 s1 : Int) : Nat × Int :=
  if r1 = 0 then (r0, s0) else bezout r1 (r0 % r1) s1 (s0 - (r0 / r1 : Nat) * s1)
termination_by r1
decreasing_by exact Nat.mod_lt _ (by omega)

/-- The number below the modulus whose product with the given one leaves remainder one. -/
def inverse? (a m : Nat) : Option Nat :=
  let x := ((bezout (a % m) m 1 0).2 % (m : Int)).toNat
  if a * x % m = 1 % m then some x else none

def splitTwos (n : Nat) : Nat × Nat :=
  if n = 0 ∨ n % 2 = 1 then (0, n)
  else
    let (k, odd) := splitTwos (n / 2)
    (k + 1, odd)
termination_by n
decreasing_by omega

/-- The number of squarings, up to a limit, that lead from a number to one. -/
def squaringsToOne (p : Nat) : Nat → Nat → Nat
  | 0, _ => 0
  | limit + 1, t => if t = 1 then 0 else 1 + squaringsToOne p limit (t * t % p)

def squareTimes (p : Nat) : Nat → Nat → Nat
  | 0, x => x
  | k + 1, x => squareTimes p k (x * x % p)

/-- The correcting steps for a root modulo an odd prime: `root` squared is the radicand times
`t`, and the order of `t` is a power of two below `2 ^ m`. -/
def correctRoot (p : Nat) : Nat → Nat → Nat → Nat → Nat → Nat
  | 0, _, _, _, root => root
  | fuel + 1, m, c, t, root =>
    if t ≤ 1 then root
    else
      let i := squaringsToOne p m t
      let b := squareTimes p (m - i - 1) c
      correctRoot p fuel i (b * b % p) (t * (b * b % p) % p) (root * b % p)

/-- A square root modulo an odd prime, given a number without one. -/
def sqrt? (p nonresidue a : Nat) : Option Nat :=
  let (s, q) := splitTwos (p - 1)
  let root := correctRoot p s s (pow nonresidue q p) (pow a q p) (pow a ((q + 1) / 2) p)
  if root * root % p = a % p then some root else none

end CertAuthority.Modular
