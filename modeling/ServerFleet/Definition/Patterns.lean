import ServerFleet.Glob.Parser
import ServerFleet.Tree.Basic

/-!
Sets of root and exclude patterns. A pattern without wildcard characters is a plain name, which
is looked up in the directory; any other is a glob, which is matched against the names in the
directory. A server definition with a pattern that is not well-formed is refused.
-/

namespace ServerFleet

/-- A refused server definition. -/
inductive RegistryError where
  /-- A root or exclude pattern is no glob. -/
  | pattern (server pattern : String) (fault : Glob.Fault)
  /-- A configured server has no command. -/
  | missingCommand (server : String)
  /-- Two definitions have the same id. -/
  | duplicate (server : String)
deriving DecidableEq

namespace RegistryError

def globMessage (pattern : String) (fault : Glob.Fault) : String :=
  s!"error parsing glob '{pattern}': {fault.message}"

def message : RegistryError → String
  | pattern server p fault => s!"server `{server}`: invalid pattern `{p}`: {globMessage p fault}"
  | missingCommand server => s!"server `{server}` has no command configured"
  | duplicate server => s!"server `{server}` is defined twice"

/-- The failures behind a refused definition, outermost first. -/
def causes : RegistryError → List String
  | e@(pattern _ p fault) => [e.message, globMessage p fault]
  | e => [e.message]

end RegistryError

/-- The globs of root and exclude patterns: wildcards cross separators, and every bracket must be
closed. -/
def patternDialect : Glob.Dialect := ⟨false⟩

def patternOptions : Glob.Options := ⟨false⟩

/-- Whether a pattern is matched as a glob. -/
def hasWildcard (pattern : String) : Bool :=
  pattern.toList.any fun c => c == '*' || c == '?' || c == '[' || c == '\x7b'

/-- A compiled list of patterns. -/
structure PatternSet where
  /-- The plain names. -/
  names : List String
  globs : List Glob

namespace PatternSet

def empty : PatternSet := ⟨[], []⟩

instance : Inhabited PatternSet := ⟨empty⟩

/-- Compiles the patterns of a server; the first glob that is not well-formed is reported. -/
def compile (server : String) : List String → Except RegistryError PatternSet
  | [] => .ok empty
  | p :: rest =>
    if hasWildcard p then
      match Glob.parse patternDialect patternOptions p with
      | .error fault => .error (.pattern server p fault)
      | .ok g => (compile server rest).map fun s => { s with globs := g :: s.globs }
    else (compile server rest).map fun s => { s with names := p :: s.names }

def isEmpty (s : PatternSet) : Bool := s.names.isEmpty && s.globs.isEmpty

/-- Whether a directory has an entry that matches one of the patterns. -/
def matchesIn (s : PatternSet) (t : Tree) (cwd : Location) (dir : Path) : Bool :=
  s.names.any (fun n => t.pathExists cwd (dir.join (.ofString n))) ||
    match t.list? cwd dir with
    | some names => names.any fun n => s.globs.any (·.isMatch n)
    | none => false

end PatternSet

end ServerFleet
