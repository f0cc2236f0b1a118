import CertAuthority.Arith.Modular
import CertAuthority.Bytes

namespace CertAuthority.Weierstrass

/-- A curve `y² = x³ - 3x + b`, a generator of its points and their number. -/
structure Curve where
  /-- The field has this prime number of elements. -/
  p : Nat
  b : Nat
  /-- The number of points, a prime. -/
  n : Nat
  gx : Nat
  gy : Nat
  size : Nat
  /-- A number that has no square root in the field. -/
  nonresidue : Nat
deriving Repr

/-- A point that is not at infinity. -/
structure Point where
  x : Nat
  y : Nat
deriving DecidableEq, Repr

/-- A point as numerators over powers of a common denominator: `x = X / Z²` and `y = Y / Z³`, and
`Z = 0` at infinity. -/
structure Projective where
  X : Nat
  Y : Nat
  Z : Nat

namespace Curve

def sub (c : Curve) (u v : Nat) : Nat := (u + (c.p - v)) % c.p

def infinity : Projective := ⟨1, 1, 0⟩

/-- The sum of a point with itself, by the tangent. -/
def double (c : Curve) (P : Projective) : Projective :=
  let δ := P.Z * P.Z % c.p
  let γ := P.Y * P.Y % c.p
  let β := P.X * γ % c.p
  let α := 3 * (c.sub P.X δ * (P.X + δ)) % c.p
  let X := c.sub (α * α % c.p) (8 * β % c.p)
  ⟨X, c.sub (α * c.sub (4 * β % c.p) X % c.p) (8 * (γ * γ) % c.p), 2 * (P.Y * P.Z) % c.p⟩

/-- How far the abscissae of two points are apart, over the square of a common denominator. -/
def gap (c : Curve) (P Q : Projective) : Nat :=
  c.sub (Q.X * (P.Z * P.Z % c.p) % c.p) (P.X * (Q.Z * Q.Z % c.p) % c.p)

/-- How far the ordinates of two points are apart, over the cube of a common denominator. -/
def rise (c : Curve) (P Q : Projective) : Nat :=
  c.sub (Q.Y * (P.Z * (P.Z * P.Z % c.p) % c.p) % c.p) (P.Y * (Q.Z * (Q.Z * Q.Z % c.p) % c.p) % c.p)

/-- The sum of two points with different abscissae, by the chord through them. -/
def chord (c : Curve) (P Q : Projective) : Projective :=
  let zz := Q.Z * Q.Z % c.p
  let h := c.gap P Q
  let r := c.rise P Q
  let hh := h * h % c.p
  let hhh := h * hh % c.p
  let v := P.X * zz % c.p * hh % c.p
  let X := c.sub (c.sub (r * r % c.p) hhh) (2 * v % c.p)
  let Y := c.sub (r * c.sub v X % c.p) (P.Y * (Q.Z * zz % c.p) % c.p * hhh % c.p)
  ⟨X, Y, P.Z * Q.Z * h % c.p⟩

def add (c : Curve) (P Q : Projective) : Projective :=
  if P.Z = 0 then Q
  else if Q.Z = 0 then P
  else if c.gap P Q = 0 then
    if c.rise P Q = 0 then c.double P else infinity
  else c.chord P Q

def scale (c : Curve) (k : Nat) (P : Projective) : Projective :=
  if k = 0 then infinity
  else
    let Q := c.double (c.scale (k / 2) P)
    if k % 2 = 1 then c.add Q P else Q
termination_by k
decreasing_by omega

def lift (P : Point) : Projective := ⟨P.x, P.y, 1⟩

def rightSide (c : Curve) (x : Nat) : Nat := (x * x * x + (c.p - 3) * x + c.b) % c.p

def contains (c : Curve) (P : Point) : Bool :=
  P.x < c.p && P.y < c.p && P.y * P.y % c.p == c.rightSide P.x

end Curve

/-- A point of a curve that is not at infinity. -/
structure PointOn (c : Curve) extends Point where
  sound : c.contains toPoint = true
deriving DecidableEq, Repr

instance {c : Curve} : CoeOut (PointOn c) Point := ⟨PointOn.toPoint⟩

namespace Curve

/-- The point with the given coordinates, if they are those of one. -/
def onCurve? (c : Curve) (P : Point) : Option (PointOn c) :=
  if h : c.contains P = true then some ⟨P, h⟩ else none

/-- The coordinates of a point that is on the curve and not at infinity. -/
def affine? (c : Curve) (P : Projective) : Option (PointOn c) := do
  let inverse ← Modular.inverse? P.Z c.p
  let square := inverse * inverse % c.p
  c.onCurve? ⟨P.X * square % c.p, P.Y * (inverse * square % c.p) % c.p⟩

def generator (c : Curve) : Point := ⟨c.gx, c.gy⟩

def point? (c : Curve) (k : Nat) : Option (PointOn c) := c.affine? (c.scale k (lift c.generator))

def decompress? (c : Curve) (x : Nat) (odd : Bool) : Option (PointOn c) :=
  if x < c.p then do
    let root ← Modular.sqrt? c.p c.nonresidue (c.rightSide x)
    c.onCurve? ⟨x, if (root % 2 == 1) == odd then root else c.sub 0 root⟩
  else none

/-- The octet string of a point: a four and both coordinates. -/
def encode (c : Curve) (P : Point) : Bytes :=
  4 :: (fixedBytes c.size P.x ++ fixedBytes c.size P.y)

/-- The short octet string of a point, which leaves the ordinate at its parity. -/
def compress (c : Curve) (P : Point) : Bytes := UInt8.ofNat (2 + P.y % 2) :: fixedBytes c.size P.x

/-- Reads the octet string of a point: both coordinates behind a four, one coordinate behind the
parity of the other plus two, or one coordinate behind a five for the lesser ordinate. -/
def decode? (c : Curve) : Bytes → Option (PointOn c)
  | [] => none
  | form :: b =>
    if form = 4 ∧ b.length = 2 * c.size then
      c.onCurve? ⟨beNat (b.take c.size), beNat (b.drop c.size)⟩
    else if b.length = c.size then
      if form = 2 then c.decompress? (beNat b) false
      else if form = 3 then c.decompress? (beNat b) true
      else if form = 5 then
        (c.decompress? (beNat b) false).bind fun P => c.onCurve? ⟨P.x, min P.y (c.p - P.y)⟩
      else none
    else none

end Curve

end CertAuthority.Weierstrass
