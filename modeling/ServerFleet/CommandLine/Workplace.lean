import ServerFleet.Config.Basic
import ServerFleet.Launch.TreeHost

/-!
What the command line sees of the system it runs on.
-/

namespace ServerFleet.CommandLine

/-- The place where the program was started. -/
structure Workplace where
  tree : Tree
  cwd : Location
  environment : Environment
  /-- The width of the terminal in characters. -/
  columns : Nat
  /-- Whether the output goes to a terminal. -/
  interactive : Bool

def defaultColumns : Nat := 80

namespace Workplace

def isInstalled (w : Workplace) (d : ServerDefinition) : Bool :=
  match d.launcher with
  | .command c => c.isInstalled (treeHost w.cwd w.environment) w.tree
  | .hosted => true

/-- A path as seen from the root. -/
def absolute (w : Workplace) (p : Path) : Path := Path.absolute (.ofLocation w.cwd) p

end Workplace

/-- The length of the longest id in octets. -/
def longestId (r : Registry) : Nat := (r.servers.map (·.id.utf8ByteSize)).foldl max 0

def noServers : String := "No language servers registered."

end ServerFleet.CommandLine
