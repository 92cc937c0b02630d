import ServerFleet.Path.Basic
import ServerFleet.Json.Basic

/-!
Snapshots of what the manager runs: the state of each instance and the summary of each server.
-/

namespace ServerFleet

/-- The state of a server instance. -/
inductive InstanceState where
  /-- A start or a handshake is under way. -/
  | spawning
  /-- The handshake is done. -/
  | running
  /-- The start failed; routing leaves the instance out until a retry or a reset. -/
  | broken
deriving DecidableEq, Inhabited

namespace InstanceState

def name : InstanceState → String
  | spawning => "spawning"
  | running => "running"
  | broken => "broken"

def rank : InstanceState → Nat
  | spawning => 0
  | running => 1
  | broken => 2

def all : List InstanceState := [spawning, running, broken]

def ofName? (s : String) : Option InstanceState := all.find? (·.name = s)

end InstanceState

/-- One instance of a server. -/
structure InstanceStatus where
  root : Path
  state : InstanceState
  /-- The retries scheduled so far. -/
  retries : Nat
deriving Inhabited

/-- The summary of a registered server. -/
structure ServerStatus where
  id : String
  name : String
  /-- Whether routing may use the server. -/
  enabled : Bool
  /-- Whether the program can be found. -/
  installed : Bool
  extensions : List String
  /-- The known instances in order of their roots. -/
  instances : List InstanceStatus
deriving Inhabited

/-- A path in JSON, which holds text only. -/
def Path.toJson? (p : Path) : Option Json := p.toText?.map .string

namespace InstanceStatus

def toJson? (i : InstanceStatus) : Option Json := do
  return .object [("root", ← i.root.toJson?), ("state", .string i.state.name),
    ("retries", .nat i.retries)]

end InstanceStatus

namespace ServerStatus

def count (s : ServerStatus) (state : InstanceState) : Nat :=
  s.instances.countP (·.state = state)

def hasBroken (s : ServerStatus) : Bool := 0 < s.count .broken

/-- The JSON form, unless a root is not text. -/
def toJson? (s : ServerStatus) : Option Json := do
  return .object [("id", .string s.id), ("name", .string s.name), ("enabled", .bool s.enabled),
    ("installed", .bool s.installed), ("extensions", .strings s.extensions),
    ("instances", .array (← s.instances.mapM (·.toJson?)))]

end ServerStatus

end ServerFleet
