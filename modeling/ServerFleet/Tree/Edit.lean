import ServerFleet.Tree.Basic

/-!
Changing a file tree: placing an entry together with the directories above it, writing a file
through a path, and changing whether a file may be run.
-/

namespace ServerFleet.Tree

/-- The tree with a directory at `loc` and at every location on the way to it. -/
def withDirectories (t : Tree) (loc : Location) : Tree :=
  (List.range loc.length).foldl (fun t n =>
    let dir := loc.take (n + 1)
    if t.entry? dir = none then ⟨t.entries.insert dir .directory⟩ else t) t

/-- The directory a list of names leads to from `here`, made where it is missing. -/
def makeDirectories (t : Tree) (here : Location) : List Move → Tree × Location
  | [] => (t, here)
  | .stay :: rest => t.makeDirectories here rest
  | .up :: rest => t.makeDirectories here.dropLast rest
  | .into n :: rest =>
    let next := here ++ [n]
    match t.entry? next with
    | none => (Tree.mk (t.entries.insert next .directory)).makeDirectories next rest
    | some (.link _) =>
      match t.follow maxLinks here [.into n] with
      | .ok loc => t.makeDirectories loc rest
      | .error _ => t.makeDirectories next rest
    | some _ => t.makeDirectories next rest

/-- Places an entry at a path, with the directories above it. -/
def place (t : Tree) (cwd : Location) (p : Path) (e : Entry) : Tree :=
  let steps := moves p
  let (t, dir) := t.makeDirectories (if p.isAbsolute then [] else cwd) steps.dropLast
  match steps.getLast? with
  | some (.into n) => ⟨t.entries.insert (dir ++ [n]) e⟩
  | _ => t

/-- Writes a file through a path: an existing one keeps its mode, a new one may not be run. -/
def write? (t : Tree) (cwd : Location) (p : Path) (contents : Bytes) : Option Tree :=
  match t.locate cwd p with
  | .ok loc =>
    match t.entry? loc with
    | some (.file _ executable) => some ⟨t.entries.insert loc (.file contents executable)⟩
    | _ => none
  | .error .noEntry =>
    match p.parent?, p.fileName? with
    | some dir, some name =>
      let home := if dir.bytes = [] then .ok cwd else t.locate cwd dir
      match home with
      | .ok dir =>
        if t.entry? dir = some .directory then
          some ⟨t.entries.insert (dir ++ [name]) (.file contents false)⟩
        else none
      | .error _ => none
    | _, _ => none
  | .error _ => none

def setExecutable (t : Tree) (cwd : Location) (p : Path) (executable : Bool) : Option Tree :=
  match t.locate cwd p with
  | .ok loc =>
    match t.entry? loc with
    | some (.file contents _) => some ⟨t.entries.insert loc (.file contents executable)⟩
    | _ => none
  | .error _ => none

end ServerFleet.Tree
