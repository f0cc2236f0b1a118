import CertAuthority.Curve.Weierstrass
import CertAuthority.Fault
import CertAuthority.Hash.Sha2

namespace CertAuthority

/-- The prime curves, by the bits of their field. -/
inductive NistCurve
  | p224
  | p256
  | p384
  | p521
deriving DecidableEq, Repr

namespace NistCurve

def curve224 : Weierstrass.Curve where
  p := 0xffffffffffffffffffffffffffffffff000000000000000000000001
  b := 0xb4050a850c04b3abf54132565044b0b7d7bfd8ba270b39432355ffb4
  n := 0xffffffffffffffffffffffffffff16a2e0b8f03e13dd29455c5c2a3d
  gx := 0xb70e0cbd6bb4bf7f321390b94a03c1d356c21122343280d6115c1d21
  gy := 0xbd376388b5f723fb4c22dfe6cd4375a05a07476444d5819985007e34
  size := 28
  nonresidue := 11

def curve256 : Weierstrass.Curve where
  p := 0xffffffff00000001000000000000000000000000ffffffffffffffffffffffff
  b := 0x5ac635d8aa3a93e7b3ebbd55769886bc651d06b0cc53b0f63bce3c3e27d2604b
  n := 0xffffffff00000000ffffffffffffffffbce6faada7179e84f3b9cac2fc632551
  gx := 0x6b17d1f2e12c4247f8bce6e563a440f277037d812deb33a0f4a13945d898c296
  gy := 0x4fe342e2fe1a7f9b8ee7eb4a7c0f9e162bce33576b315ececbb6406837bf51f5
  size := 32
  nonresidue := 3

def curve384 : Weierstrass.Curve where
  p := 0xfffffffffffffffffffffffffffffffffffffffffffffffffffffffffffffffeffffffff0000000000000000ffffffff
  b := 0xb3312fa7e23ee7e4988e056be3f82d19181d9c6efe8141120314088f5013875ac656398d8a2ed19d2a85c8edd3ec2aef
  n := 0xffffffffffffffffffffffffffffffffffffffffffffffffc7634d81f4372ddf581a0db248b0a77aecec196accc52973
  gx := 0xaa87ca22be8b05378eb1c71ef320ad746e1d3b628ba79b9859f741e082542a385502f25dbf55296c3a545e3872760ab7
  gy := 0x3617de4a96262c6f5d9e98bf9292dc29f8f41dbd289a147ce9da3113b5f0b8c00a60b1ce1d7e819d7a431d7c90ea0e5f
  size := 48
  nonresidue := 19

def curve521 : Weierstrass.Curve where
  p := 0x1ffffffffffffffffffffffffffffffffffffffffffffffffffffffffffffffffffffffffffffffffffffffffffffffffffffffffffffffffffffffffffffffffff
  b := 0x051953eb9618e1c9a1f929a21a0b68540eea2da725b99b315f3b8b489918ef109e156193951ec7e937b1652c0bd3bb1bf073573df883d2c34f1ef451fd46b503f00
  n := 0x1fffffffffffffffffffffffffffffffffffffffffffffffffffffffffffffffffa51868783bf2f966b7fcc0148f709a5d03bb5c9b8899c47aebb6fb71e91386409
  gx := 0x0c6858e06b70404e9cd9e3ecb662395b4429c648139053fb521f828af606b4d3dbaa14b5e77efe75928fe1dc127a2ffa8de3348b3c1856a429bf97e7e31c2e5bd66
  gy := 0x11839296a789a3bc0045c8a5fb42c7d1bd998f54449579b446817afbd17273e662c97ee72995ef42640c550b9013fad0761353c7086a272c24088be94769fd16650
  size := 66
  nonresidue := 3

def curve : NistCurve → Weierstrass.Curve
  | p224 => curve224
  | p256 => curve256
  | p384 => curve384
  | p521 => curve521

def oid : NistCurve → Oid
  | p224 => .ofArcs [1, 3, 132, 0, 33]
  | p256 => .ofArcs [1, 2, 840, 10045, 3, 1, 7]
  | p384 => .ofArcs [1, 3, 132, 0, 34]
  | p521 => .ofArcs [1, 3, 132, 0, 35]

def hash : NistCurve → Sha2.Variant
  | p224 => Sha2.sha224
  | p256 => Sha2.sha256
  | p384 => Sha2.sha384
  | p521 => Sha2.sha512

def all : List NistCurve := [p224, p256, p384, p521]

def ofOid? (oid : Oid) : Option NistCurve := all.find? (·.oid = oid)

end NistCurve

end CertAuthority
