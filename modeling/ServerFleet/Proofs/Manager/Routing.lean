import ServerFleet.CommandLine.Route
import ServerFleet.Proofs.Config.Servers
import ServerFleet.Proofs.Manager.Resolution

/-!
What the listing of routes says of a manager under the same configuration: for which instances a
call for the clients of a file begins attempts, in which order, and whose clients it gives back.
-/

namespace ServerFleet

namespace CommandLine

def RouteVerdict.server : RouteVerdict → String
  | disabled server => server
  | noRoot server => server
  | routed key => key.serverId

def RouteVerdict.key? : RouteVerdict → Option InstanceKey
  | routed key => some key
  | _ => none

section Verdicts

variable {w : Workplace} {c : Config} {r : Registry} {file : Path} {d : ServerDefinition}

end Verdicts

end CommandLine

namespace Manager

open CommandLine

/-- The manager that a configuration describes. -/
def State.ofConfig (c : Config) (surroundings : Surroundings) : Except RegistryError State := do
  let registry ← Registry.ofConfig c
  return .create ⟨registry, c.diagnosticsTimeout, c.initializeTimeout⟩ surroundings c.retryDelays
    c.initiallyDisabled

section Foretold

variable {w : Workplace} {c : Config} {r : Registry} {installed : ServerDefinition → Bool}
  {base called s : State} {file : Path} {run : List Happening} {effects : List Effect}

variable (hr : Registry.ofConfig c = .ok r)
  (hbase : State.ofConfig c ⟨w.tree, w.cwd, installed⟩ = .ok base)
include hr hbase

end Foretold

section Sample

end Sample

end Manager

end ServerFleet
