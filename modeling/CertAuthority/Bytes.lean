namespace CertAuthority

abbrev Bytes := List UInt8

/-- The number spelled by a byte string, most significant byte first. -/
def beNat (b : Bytes) : Nat := b.foldl (fun n x => n * 256 + x.toNat) 0

/-- The shortest byte string that spells a number; zero is spelled by no byte at all. -/
def natBytes (n : Nat) : Bytes :=
  if n = 0 then [] else natBytes (n / 256) ++ [UInt8.ofNat n]
termination_by n
decreasing_by omega

/-- The low `len` bytes of a number, most significant byte first. -/
def fixedBytes : Nat → Nat → Bytes
  | 0, _ => []
  | len + 1, n => fixedBytes len (n / 256) ++ [UInt8.ofNat n]

/-- The number spelled by a byte string, least significant byte first. -/
def leNat (b : Bytes) : Nat := b.foldr (fun x n => n * 256 + x.toNat) 0

/-- The low `len` bytes of a number, least significant byte first. -/
def fixedBytesLe : Nat → Nat → Bytes
  | 0, _ => []
  | len + 1, n => UInt8.ofNat n :: fixedBytesLe len (n / 256)

/-- The number of binary digits of a number; zero has none. -/
def bitLength (n : Nat) : Nat := if n = 0 then 0 else n.log2 + 1

end CertAuthority
