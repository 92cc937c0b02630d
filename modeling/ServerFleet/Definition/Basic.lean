import ServerFleet.Definition.Patterns
import ServerFleet.Launch.Command
import ServerFleet.Json.Basic
import ServerFleet.Text.Layout

/-!
What the manager knows about a language server: the files it handles, how the root of a project
is found, and how the server is launched.

The search for the root of the project a file belongs to walks up from the directory of the file: a
directory with an exclude match ends it without a root, and the first directory with a root match is
the root. Without root patterns the directory of the file is the root.
-/

namespace ServerFleet

/-- A definition before its patterns are compiled. -/
structure ServerSketch where
  id : String
  name : String
  /-- Extensions with or without the leading dot. -/
  extensions : List String
  rootPatterns : List String
  excludePatterns : List String
  installable : Bool
  /-- Options sent to the server in the handshake. -/
  initialization : Option Json
  launcher : Launcher
deriving Inhabited

/-- A language server that can be started. -/
structure ServerDefinition where
  id : String
  name : String
  /-- The handled extensions with their dots, in ascending order and each once. -/
  extensions : List String
  /-- The patterns that mark a project root, as written. -/
  rootPatterns : List String
  /-- The patterns that rule the server out, as written. -/
  excludePatterns : List String
  /-- Whether the launcher may install the server when it is missing. -/
  installable : Bool
  initialization : Option Json
  roots : PatternSet
  excludes : PatternSet
  launcher : Launcher
deriving Inhabited

/-- Texts in ascending order of their octets, each once. -/
def sortedTexts (ss : List String) : List String :=
  (ss.mergeSort fun a b => (compareText a b).isLE).eraseDups

namespace ServerDefinition

def withDot (e : String) : String := if e.toList.head? = some '.' then e else "." ++ e

/-- The extensions of a list that are not empty, with dots, as a set. -/
def normalizedExtensions (es : List String) : List String :=
  sortedTexts ((es.filter (· ≠ "")).map withDot)

/-- Compiles the patterns of a sketch, the root patterns before the exclude patterns. -/
def ofSketch (s : ServerSketch) : Except RegistryError ServerDefinition := do
  let roots ← PatternSet.compile s.id s.rootPatterns
  let excludes ← PatternSet.compile s.id s.excludePatterns
  return {
    id := s.id
    name := s.name
    extensions := normalizedExtensions s.extensions
    rootPatterns := s.rootPatterns
    excludePatterns := s.excludePatterns
    installable := s.installable
    initialization := s.initialization
    roots
    excludes
    launcher := s.launcher
  }

/-- Whether the server handles files with an extension such as `.rs`. -/
def handles (d : ServerDefinition) (extension : String) : Bool := d.extensions.contains extension

/-- The public part of a definition as a record literal. -/
def describe (d : ServerDefinition) : String :=
  "ServerDefinition \x7b id: " ++ Text.quote d.id ++
    ", extensions: " ++ Text.quoteSet d.extensions ++
    ", root_patterns: " ++ Text.quoteList d.rootPatterns ++
    ", exclude_patterns: " ++ Text.quoteList d.excludePatterns ++
    ", installable: " ++ toString d.installable ++ ", .. \x7d"

/-- Whether a directory rules the server out. -/
def excludesDirectory (d : ServerDefinition) (t : Tree) (cwd : Location) (dir : Path) : Bool :=
  !d.excludes.isEmpty && d.excludes.matchesIn t cwd dir

def isRootDirectory (d : ServerDefinition) (t : Tree) (cwd : Location) (dir : Path) : Bool :=
  d.roots.isEmpty || d.roots.matchesIn t cwd dir

/-- The first root among directories, unless an excluded one comes before it or is it. -/
def firstRoot? (d : ServerDefinition) (t : Tree) (cwd : Location) : List Path → Option Path
  | [] => none
  | dir :: rest =>
    if d.excludesDirectory t cwd dir then none
    else if d.isRootDirectory t cwd dir then some dir
    else d.firstRoot? t cwd rest

def detectRoot (d : ServerDefinition) (t : Tree) (cwd : Location) (file : Path) : Option Path :=
  file.parent?.bind fun start => d.firstRoot? t cwd start.ancestors

end ServerDefinition

end ServerFleet
