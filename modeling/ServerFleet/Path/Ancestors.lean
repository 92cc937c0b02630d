import ServerFleet.Path.Basic

/-!
The directories a path passes through, as spelled. `parent?` drops the last step, together with
the separators and inner `.` around it; `ancestors` repeats that until no step is left.
-/

namespace ServerFleet.Path

/-- Whether a part of a path stands for no step. -/
def insignificant (segment : Bytes) : Bool := segment == [] || segment == [Bytes.dot]

/-- From the reversed inner parts of a path, the reversed parts of its proper ancestors, nearest
first. Each ends in a significant part or is empty. -/
def cutBack : List Bytes → List (List Bytes)
  | [] => []
  | s :: rest =>
    if insignificant s then cutBack rest
    else rest.dropWhile insignificant :: cutBack rest

/-- The parts that spell the front of a path: the empty one before the first separator, or `.`. -/
def frontSegments (p : Path) : List Bytes :=
  match p.front with
  | some .root => [[]]
  | some _ => [[Bytes.dot]]
  | none => []

/-- The parts after the front. -/
def bodySegments (p : Path) : List Bytes := p.segments.drop p.frontSegments.length

def ofSegments (front body : List Bytes) : Path :=
  if front = [[]] ∧ body = [] then ⟨[Bytes.slash]⟩
  else ⟨[Bytes.slash].intercalate (front ++ body)⟩

/-- The ancestors of a path other than itself, nearest first. -/
def properAncestors (p : Path) : List Path :=
  (cutBack p.bodySegments.reverse).map (fun cut => ofSegments p.frontSegments cut.reverse) ++
    if p.front = some .here then [⟨[]⟩] else []

def parent? (p : Path) : Option Path := p.properAncestors.head?

/-- The path and everything above it, nearest first. -/
def ancestors (p : Path) : List Path := p :: p.properAncestors

/-- The path as seen from the root when relative paths start at `cwd`. The empty path stays as
it is. A trailing separator and a doubled leading one are kept, `..` is not resolved. -/
def absolute (cwd p : Path) : Path :=
  if p.bytes = [] then p
  else
    let names := p.components.filterMap fun
      | .up => some [Bytes.dot, Bytes.dot]
      | .name n => some n
      | _ => none
    let doubled := p.bytes.take 2 == [Bytes.slash, Bytes.slash] &&
      p.bytes.take 3 != [Bytes.slash, Bytes.slash, Bytes.slash]
    let start : Path :=
      if p.isAbsolute then (if doubled then ⟨[Bytes.slash, Bytes.slash]⟩ else ⟨[Bytes.slash]⟩)
      else cwd
    let spelled := names.foldl (fun acc n => acc.join ⟨n⟩) start
    if p.bytes.getLast? = some Bytes.slash then spelled.join ⟨[]⟩ else spelled

end ServerFleet.Path
