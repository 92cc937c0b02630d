import ServerFleet.Diagnostics.Basic
import ServerFleet.Instance.Status
import ServerFleet.Launch.Command

/-!
What the manager announces to its subscribers.
-/

namespace ServerFleet

/-- An announcement of the manager. -/
inductive Event where
  /-- An instance finished its handshake. -/
  | serverStarted (server : String) (root : Path)
  /-- An instance went away. -/
  | serverClosed (server : String) (root : Path)
  /-- A retry was scheduled for an instance; retries count from one. -/
  | serverRetrying (server : String) (root : Path) (attempt : Nat)
  /-- An installation made progress. -/
  | serverInstalling (server : String) (stage : InstallStage) (package : String)
  /-- A server published diagnostics for a file. -/
  | diagnostics (server : String) (file : Path) (diagnostics : List Diagnostic)
  /-- A server was enabled or disabled. -/
  | serverStatusChanged (server : String) (enabled : Bool)
deriving Inhabited

namespace Event

def server : Event → String
  | serverStarted s _ => s
  | serverClosed s _ => s
  | serverRetrying s _ _ => s
  | serverInstalling s _ _ => s
  | diagnostics s _ _ => s
  | serverStatusChanged s _ => s

def root? : Event → Option Path
  | serverStarted _ r => some r
  | serverClosed _ r => some r
  | serverRetrying _ r _ => some r
  | _ => none

/-- The members of the JSON form, unless a path is not text. -/
def members? : Event → Option (List (String × Json))
  | serverStarted s r => do
    return [("type", .string "server_started"), ("server_id", .string s), ("root", ← r.toJson?)]
  | serverClosed s r => do
    return [("type", .string "server_closed"), ("server_id", .string s), ("root", ← r.toJson?)]
  | serverRetrying s r n => do
    return [("type", .string "server_retrying"), ("server_id", .string s),
      ("root", ← r.toJson?), ("attempt", .nat n)]
  | serverInstalling s stage package =>
    some [("type", .string "server_installing"), ("server_id", .string s),
      ("stage", .string stage.name), ("package", .string package)]
  | diagnostics s file ds => do
    return [("type", .string "diagnostics"), ("server_id", .string s),
      ("path", ← file.toJson?), ("diagnostics", diagnosticsJson ds)]
  | serverStatusChanged s enabled =>
    some [("type", .string "server_status_changed"), ("server_id", .string s),
      ("enabled", .bool enabled)]

end Event

end ServerFleet
