import ServerFleet.Text.Bytes

/-!
File system paths as byte strings, read component by component. Two spellings name the same
path when they have the same components: repeated and trailing separators and inner `.` do not
count, while `..` does. Order compares components from left to right.
-/

namespace ServerFleet

/-- A path as it was spelled. -/
structure Path where
  bytes : Bytes
deriving DecidableEq, Inhabited

/-- One step of a path. -/
inductive Component where
  /-- The separator that makes a path absolute. -/
  | root
  /-- A `.` at the start of a relative path. -/
  | here
  /-- A `..`. -/
  | up
  | name (text : Bytes)
deriving DecidableEq

namespace Component

def rank : Component → Nat
  | root => 0
  | here => 1
  | up => 2
  | name _ => 3

/-- Kinds by rank, names by their octets. -/
def compare : Component → Component → Ordering
  | name a, name b => Bytes.compare a b
  | a, b => Ord.compare a.rank b.rank

/-- How a component is spelled when it stands alone. -/
def spelling : Component → Bytes
  | root => [Bytes.slash]
  | here => [Bytes.dot]
  | up => [Bytes.dot, Bytes.dot]
  | name t => t

/-- The component an inner part of a path stands for; empty parts and `.` stand for none. -/
def ofSegment? (segment : Bytes) : Option Component :=
  if segment = [] then none
  else if segment = [Bytes.dot] then none
  else if segment = [Bytes.dot, Bytes.dot] then some up
  else some (name segment)

end Component

namespace Path

def ofString (s : String) : Path := ⟨Bytes.ofString s⟩

def segments (p : Path) : List Bytes := p.bytes.splitOn Bytes.slash

def isAbsolute (p : Path) : Bool := p.bytes.head? == some Bytes.slash

/-- The component that stands before the first inner segment, if the path starts with a
separator or with `.`. -/
def front (p : Path) : Option Component :=
  if p.isAbsolute then some .root
  else if p.segments.head? = some [Bytes.dot] then some .here
  else none

def components (p : Path) : List Component :=
  p.front.toList ++ p.segments.filterMap Component.ofSegment?

/-- Whether two spellings name the same path. -/
def same (p q : Path) : Bool := decide (p.components = q.components)

instance : BEq Path := ⟨same⟩

theorem beq_iff {p q : Path} : (p == q) = true ↔ p.components = q.components :=
  decide_eq_true_iff

instance : EquivBEq Path where
  rfl := beq_iff.2 rfl
  symm h := beq_iff.2 (beq_iff.1 h).symm
  trans h h' := beq_iff.2 ((beq_iff.1 h).trans (beq_iff.1 h'))

def compareComponents : List Component → List Component → Ordering
  | [], [] => .eq
  | [], _ :: _ => .lt
  | _ :: _, [] => .gt
  | a :: as, b :: bs => (a.compare b).then (compareComponents as bs)

/-- Order of paths by components. -/
def compare (p q : Path) : Ordering := compareComponents p.components q.components

/-- The text of a path, with U+FFFD for what is not UTF-8. -/
def display (p : Path) : String := Bytes.decodeLossy p.bytes

/-- The text of a path that is UTF-8. -/
def toText? (p : Path) : Option String := Bytes.decode? p.bytes

/-- The last step of a path, if it is a name. -/
def fileName? (p : Path) : Option Bytes :=
  match p.components.getLast? with
  | some (.name n) => some n
  | _ => none

/-- What follows the last dot of a name, unless that dot starts the name or there is none. -/
def nameExtension? (n : Bytes) : Option Bytes :=
  let tail := n.reverse.takeWhile (· ≠ Bytes.dot)
  if n.length ≤ tail.length + 1 then none else some tail.reverse

def extension? (p : Path) : Option Bytes := p.fileName?.bind nameExtension?

/-- Puts `q` below `p`; an absolute `q` stands alone, and an empty one leaves a trailing
separator. -/
def join (p q : Path) : Path :=
  if q.isAbsolute then q
  else if p.bytes = [] then q
  else if p.bytes.getLast? = some Bytes.slash then ⟨p.bytes ++ q.bytes⟩
  else ⟨p.bytes ++ Bytes.slash :: q.bytes⟩

end Path

/-- The extension of a path with its leading dot, such as `.rs`, if the path has one and it is
UTF-8. -/
def fileExtension (p : Path) : Option String :=
  (p.extension?.bind Bytes.decode?).map ("." ++ ·)

end ServerFleet
