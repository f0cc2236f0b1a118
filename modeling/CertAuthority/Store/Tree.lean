import CertAuthority.Bytes

namespace CertAuthority.Store

/-- The names on the way from the root. -/
abbrev Path := List String

inductive Node
  | directory
  | file (contents : Bytes)
deriving DecidableEq, Repr

/-- The most bytes that a name, and a path with its separators, may have. -/
structure Limits where
  name : Nat
  path : Nat
deriving DecidableEq, Repr

/-- What lies below a root, and how long names and paths may be, if that is bounded. -/
structure Tree where
  limits : Option Limits
  nodes : List (Path × Node)
deriving DecidableEq, Repr

namespace Tree

def empty (limits : Option Limits) : Tree := ⟨limits, []⟩

def allows (t : Tree) (name : String) : Bool := t.limits.all (name.utf8ByteSize ≤ ·.name)

def reaches (t : Tree) (p : Path) : Bool :=
  t.limits.all ((p.map (·.utf8ByteSize + 1)).foldr (· + ·) 0 ≤ ·.path)

def node? (t : Tree) (p : Path) : Option Node :=
  if p = [] then some .directory else (t.nodes.find? (·.1 = p)).map (·.2)

/-- The tree with a node at a path, whatever was there before. -/
def set (t : Tree) (p : Path) (n : Node) : Tree :=
  { t with nodes := (p, n) :: t.nodes.filter (·.1 ≠ p) }

/-- What is found at the end of a path. -/
inductive Found
  | missing
  /-- The path or a name on it is too long, or a name on the way is that of a file. -/
  | blocked
  | node (n : Node)
deriving DecidableEq, Repr

def followFrom (t : Tree) (done : Path) : List String → Found
  | [] => match t.node? done with
    | none => .missing
    | some n => .node n
  | name :: rest =>
    match t.node? done with
    | none => .missing
    | some (.file _) => .blocked
    | some .directory =>
      if t.allows name then followFrom t (done ++ [name]) rest else .blocked

def follow (t : Tree) (p : Path) : Found := if t.reaches p then t.followFrom [] p else .blocked

/-- Makes the directories on the way along names, from a path on. Those that were made stay, even
if a later one cannot be made. -/
def makeFrom (t : Tree) (done : Path) : List String → Bool × Tree
  | [] => (true, t)
  | name :: rest =>
    if t.allows name then
      let p := done ++ [name]
      match t.node? p with
      | some (.file _) => (false, t)
      | some .directory => makeFrom t p rest
      | none => makeFrom (t.set p .directory) p rest
    else (false, t)

def makeDirectory (t : Tree) (p : Path) : Bool × Tree :=
  if t.reaches p then t.makeFrom [] p else (false, t)

/-- Puts a file into a directory, which is made if it is not there. A directory of the file's
name is in its way. -/
def write (t : Tree) (directory : Path) (name : String) (contents : Bytes) : Bool × Tree :=
  let (made, t) := t.makeDirectory directory
  let p := directory ++ [name]
  if made ∧ t.reaches p ∧ t.allows name ∧ t.node? p ≠ some .directory then
    (true, t.set p (.file contents))
  else (false, t)

end Tree

end CertAuthority.Store
