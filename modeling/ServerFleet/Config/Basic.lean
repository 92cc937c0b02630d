import ServerFleet.Registry.Builtin
import ServerFleet.Diagnostics.Aggregate
import ServerFleet.Retry.Scheduler
import ServerFleet.Text.Visible

/-!
The configuration of the manager and of each server, and the registry it describes: the known
servers, unless they are switched off, with every configured server replacing or extending them.
-/

namespace ServerFleet

/-- The configuration of one server. -/
structure ServerConfig where
  command : String
  args : List String
  /-- Variables added to the environment of the server. -/
  env : List (String × String)
  /-- The display name; the id if there is none. -/
  name : Option String
  extensions : List String
  rootPatterns : List String
  excludePatterns : List String
  installable : Bool
  install : List String
  initializationOptions : Option Json
  /-- Whether routing may use the server from the start. -/
  enabled : Bool
deriving Inhabited

namespace ServerConfig

/-- The configuration of a server of which nothing is said. -/
def default : ServerConfig := {
  command := ""
  args := []
  env := []
  name := none
  extensions := []
  rootPatterns := []
  excludePatterns := []
  installable := false
  install := []
  initializationOptions := none
  enabled := true
}

end ServerConfig

/-- The configuration of a manager. Times are in milliseconds. -/
structure Config where
  /-- How long to wait for the diagnostics of each server. -/
  diagnosticsTimeout : Nat
  /-- The bound on a handshake; `none` to wait for ever. -/
  initializeTimeout : Option Nat
  /-- The delays before the retries of a failed start. -/
  retryDelays : List Nat
  /-- Whether the known servers are used. -/
  builtinServers : Bool
  /-- Ids of servers that are off from the start. -/
  disabled : List String
  /-- The configured servers by id, in ascending order of the ids. -/
  servers : List (String × ServerConfig)
deriving Inhabited

namespace Config

def default : Config := {
  diagnosticsTimeout := defaultDiagnosticsTimeout
  initializeTimeout := none
  retryDelays := defaultRetryDelays
  builtinServers := true
  disabled := []
  servers := []
}

/-- Puts a server among servers in ascending order of ids, in the place of one with its id. -/
def insertServer (id : String) (s : ServerConfig) :
    List (String × ServerConfig) → List (String × ServerConfig)
  | [] => [(id, s)]
  | e :: rest =>
    match compareText id e.1 with
    | .lt => (id, s) :: e :: rest
    | .eq => (id, s) :: rest
    | .gt => e :: insertServer id s rest

/-- Servers by id, in ascending order; the last of several with one id counts. -/
def sortServers (l : List (String × ServerConfig)) : List (String × ServerConfig) :=
  l.foldl (fun acc e => insertServer e.1 e.2 acc) []

/-- The ids that are off from the start: those of the list and those of servers that are
switched off, in ascending order and each once. -/
def initiallyDisabled (c : Config) : List String :=
  sortedTexts (c.disabled ++ (c.servers.filter fun e => !e.2.enabled).map (·.1))

/-- Whether a server is on from the start. -/
def isEnabled (c : Config) (id : String) : Bool := !c.initiallyDisabled.contains id

end Config

namespace ServerSketch

/-- The definition a configured server describes. An install command counts only if installing
is allowed. -/
def ofConfig (id : String) (s : ServerConfig) : ServerSketch where
  id
  name := s.name.getD id
  extensions := s.extensions
  rootPatterns := s.rootPatterns
  excludePatterns := s.excludePatterns
  installable := s.installable
  initialization := s.initializationOptions
  launcher := .command ⟨s.command, s.args, s.env, if s.installable then s.install else []⟩

end ServerSketch

namespace ServerDefinition

/-- The definition of a configured server, which must have a command. -/
def ofConfig (id : String) (s : ServerConfig) : Except RegistryError ServerDefinition :=
  if Text.isBlank s.command then .error (.missingCommand id)
  else ofSketch (ServerSketch.ofConfig id s)

end ServerDefinition

namespace Registry

/-- Puts configured servers into a registry one after another, up to the first that is refused. -/
def replaceAll (r : Registry) : List (String × ServerConfig) → Except RegistryError Registry
  | [] => .ok r
  | e :: rest => do (r.replace (← ServerDefinition.ofConfig e.1 e.2)).replaceAll rest

/-- The registry that a configuration describes. -/
def ofConfig (c : Config) : Except RegistryError Registry := do
  let start ← if c.builtinServers then builtin else .ok empty
  start.replaceAll c.servers

end Registry

end ServerFleet
