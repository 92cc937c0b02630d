import ServerFleet.Path.Ancestors
import ServerFleet.Table

/-!
A file tree as a value: directories, files and symbolic links by their location below the root
directory. `locate` follows a path through the tree as the system does, links included;
everything else is asked through it.
-/

namespace ServerFleet

/-- The names on the way from the root directory. -/
abbrev Location := List Bytes

def Path.ofLocation (loc : Location) : Path := ⟨Bytes.slash :: [Bytes.slash].intercalate loc⟩

/-- What stands at a location. -/
inductive Entry where
  | file (contents : Bytes) (executable : Bool)
  | directory
  | link (target : Path)
deriving DecidableEq, Inhabited

/-- A file tree. The root directory is always there. -/
structure Tree where
  entries : Table Location Entry
deriving Inhabited

namespace Tree

/-- Why a path leads nowhere. -/
inductive Missing where
  | noEntry
  | notDirectory
  | tooManyLinks
deriving DecidableEq

/-- What one part of a path asks for. -/
inductive Move where
  | into (name : Bytes)
  | up
  /-- A `.` or a trailing separator: only a directory may stand here. -/
  | stay
deriving DecidableEq

def moves (p : Path) : List Move :=
  let parts := p.segments.filter (· ≠ [])
  let steps := parts.map fun s =>
    if s = [Bytes.dot] then .stay
    else if s = [Bytes.dot, Bytes.dot] then .up
    else .into s
  if p.bytes.getLast? = some Bytes.slash ∧ parts ≠ [] then steps ++ [.stay] else steps

def entry? (t : Tree) (loc : Location) : Option Entry :=
  if loc = [] then some .directory else t.entries.find? loc

/-- Where a walk comes to rest: at its end, or at a link with the moves that are left. -/
inductive Halt where
  | arrived (loc : Location)
  | atLink (directory : Location) (target : Path) (left : List Move)

/-- Walks until the end or the first link. -/
def advance (t : Tree) (here : Location) : List Move → Except Missing Halt
  | [] => .ok (.arrived here)
  | m :: rest =>
    match t.entry? here with
    | none => .error .noEntry
    | some .directory =>
      match m with
      | .stay => t.advance here rest
      | .up => t.advance here.dropLast rest
      | .into n =>
        match t.entry? (here ++ [n]) with
        | none => .error .noEntry
        | some (.link target) => .ok (.atLink here target rest)
        | some _ => t.advance (here ++ [n]) rest
    | some _ => .error .notDirectory

/-- Walks to the end, through at most `links` links. -/
def follow (t : Tree) : Nat → Location → List Move → Except Missing Location
  | links, here, ms =>
    match t.advance here ms with
    | .error e => .error e
    | .ok (.arrived loc) => .ok loc
    | .ok (.atLink directory target left) =>
      match links with
      | 0 => .error .tooManyLinks
      | links + 1 =>
        t.follow links (if target.isAbsolute then [] else directory) (moves target ++ left)

def maxLinks : Nat := 40

/-- The location a path leads to, when relative paths start at `cwd`. -/
def locate (t : Tree) (cwd : Location) (p : Path) : Except Missing Location :=
  if p.bytes = [] then .error .noEntry
  else t.follow maxLinks (if p.isAbsolute then [] else cwd) (moves p)

/-- What a path leads to. -/
def lookup (t : Tree) (cwd : Location) (p : Path) : Except Missing Entry := do
  match t.entry? (← t.locate cwd p) with
  | some e => return e
  | none => throw .noEntry

def pathExists (t : Tree) (cwd : Location) (p : Path) : Bool := (t.lookup cwd p).isOk

def isDirectory (t : Tree) (cwd : Location) (p : Path) : Bool :=
  match t.lookup cwd p with
  | .ok .directory => true
  | _ => false

def read? (t : Tree) (cwd : Location) (p : Path) : Option Bytes :=
  match t.lookup cwd p with
  | .ok (.file contents _) => some contents
  | _ => none

def children (t : Tree) (dir : Location) : List (Bytes × Entry) :=
  t.entries.entries.filterMap fun (loc, e) =>
    match loc.getLast? with
    | some name => if loc.dropLast = dir then some (name, e) else none
    | none => none

def list? (t : Tree) (cwd : Location) (p : Path) : Option (List Bytes) :=
  match t.locate cwd p with
  | .ok dir => if t.entry? dir = some .directory then some ((t.children dir).map (·.1)) else none
  | .error _ => none

end Tree

end ServerFleet
