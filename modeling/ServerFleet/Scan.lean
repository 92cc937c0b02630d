import ServerFleet.Ignore.Walk

/-!
Counting the files of a workspace by extension. A file counts if neither it nor a directory
between it and the start of the walk is left out, and if it is not too deep; links do not count
and are not followed.
-/

namespace ServerFleet.Scan

/-- The location of an entry whose path may end in a link, with that link not followed. -/
def locateEntry? (t : Tree) (cwd : Location) (p : Path) : Option Location :=
  let ms := Tree.moves p
  if p.bytes = [] then none
  else
    match ms.getLast? with
    | some (.into n) =>
      match t.follow Tree.maxLinks (if p.isAbsolute then [] else cwd) ms.dropLast with
      | .ok dir => if (t.entry? (dir ++ [n])).isSome then some (dir ++ [n]) else none
      | .error _ => none
    | _ => (t.locate cwd p).toOption

/-- The locations from just below `root` down to `loc`. -/
def between (root loc : Location) : List Location :=
  (List.range (loc.length - root.length)).map fun n => loc.take (root.length + n + 1)

/-- Whether an entry is a directory, links not followed. -/
def isPlainDirectory (t : Tree) (loc : Location) : Bool := t.entry? loc == some .directory

/-- Whether a walk from `root` comes to a location at most `depth` levels below it. -/
def reaches (t : Tree) (r : Ignore.Rules) (root : Location) (depth : Nat) (loc : Location) :
    Bool :=
  root.isPrefixOf loc && root.length < loc.length && loc.length ≤ root.length + depth &&
    (between root loc).all fun l => !r.skips l (isPlainDirectory t l)

def filesBelow (t : Tree) (r : Ignore.Rules) (root : Location) (depth : Nat) : List Location :=
  t.entries.entries.filterMap fun (loc, e) =>
    match e with
    | .file _ _ => if reaches t r root depth loc then some loc else none
    | _ => none

def extensionOf (loc : Location) : Option String :=
  (loc.getLast?.bind Path.nameExtension?).bind Bytes.decode? |>.map ("." ++ ·)

/-- Adds one to the count of a text, in ascending order of texts. -/
def increment (e : String) : List (String × Nat) → List (String × Nat)
  | [] => [(e, 1)]
  | c :: rest =>
    match compareText e c.1 with
    | .lt => (e, 1) :: c :: rest
    | .eq => (c.1, c.2 + 1) :: rest
    | .gt => c :: increment e rest

/-- How often each text occurs, in ascending order of the texts. -/
def tally (es : List String) : List (String × Nat) := es.foldl (fun acc e => increment e acc) []

/-- The number of files of each extension at most `depth` levels below a path. A path that leads
to a file itself counts that file. -/
def extensions (t : Tree) (cwd : Location) (e : Environment) (root : Path) (depth : Nat) :
    List (String × Nat) :=
  match locateEntry? t cwd root with
  | none => []
  | some loc =>
    match t.entry? loc with
    | some (.file _ _) => tally (fileExtension root).toList
    | _ =>
      match t.locate cwd root with
      | .ok dir =>
        if isPlainDirectory t dir then
          tally ((filesBelow t (.ofTree t cwd e) dir depth).filterMap extensionOf)
        else []
      | .error _ => []

end ServerFleet.Scan
