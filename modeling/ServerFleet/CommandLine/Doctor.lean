import ServerFleet.CommandLine.Help
import ServerFleet.CommandLine.Workplace
import ServerFleet.Scan
import ServerFleet.Text.Paint

/-!
The check of the servers for a workspace: whether each server that has files there can be found,
or will be installed when it is used first.
-/

namespace ServerFleet.CommandLine

/-- What the check finds of a server. -/
inductive Finding where
  | disabled
  /-- The workspace has no files for it. -/
  | skipped
  | installed (files : Nat)
  /-- It is missing and is going to be installed. -/
  | installable
  | missing
deriving DecidableEq

/-- The depth to which the workspace is searched for files. -/
def scanDepth : Nat := 10

/-- The number of files of a workspace that a server handles, by the counts of extensions. -/
def fileCount (counts : List (String × Nat)) (d : ServerDefinition) : Nat :=
  (d.extensions.filterMap fun e => (counts.find? (·.1 = e)).map (·.2)).foldr (· + ·) 0

/-- What the check finds of a server. -/
def finding (w : Workplace) (c : Config) (counts : List (String × Nat)) (d : ServerDefinition) :
    Finding :=
  let files := fileCount counts d
  if !c.isEnabled d.id then .disabled
  else if files = 0 then .skipped
  else if w.isInstalled d then .installed files
  else if d.installable then .installable
  else .missing

def Finding.line (colors : Bool) (label : String) (f : Finding) : String :=
  let paint := Text.paint colors
  match f with
  | .disabled => paint .dim label ++ "  " ++ paint .yellow "- disabled"
  | .skipped => paint .dim label ++ "  " ++ paint .dim "- skipped (no matching files)"
  | .installed files =>
    paint .cyan label ++ "  " ++ paint .green "✓ installed" ++ " " ++
      paint .dim s!"({files} files)"
  | .installable =>
    paint .cyan label ++ "  " ++ paint .yellow "✗ not found, will install on first use"
  | .missing => paint .cyan label ++ "  " ++ paint .red "✗ command not found"

def doctorLines (w : Workplace) (c : Config) (r : Registry) (config : Option Path)
    (colorless : Bool) : List String :=
  let colors := !colorless && w.interactive
  let root := Path.ofLocation w.cwd
  let source := (config.map (·.display)).getD "default paths"
  [programName ++ " " ++ programVersion, "",
    Text.paint colors .bold "Config:" ++ " " ++ source,
    Text.paint colors .bold "Root:  " ++ " " ++ root.display, ""] ++
  if r.isEmpty then [noServers]
  else
    let counts := Scan.extensions w.tree w.cwd w.environment root scanDepth
    r.servers.map fun d =>
      (finding w c counts d).line colors (Text.padRight d.id (longestId r))

end ServerFleet.CommandLine
