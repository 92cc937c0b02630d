import ServerFleet.CommandLine.Workplace
import ServerFleet.Text.Layout

/-!
Where files are routed: for each file the instances that the manager would start or use for it.
-/

namespace ServerFleet.CommandLine

/-- What routing does with a file at a server that handles it. -/
inductive RouteVerdict where
  | disabled (server : String)
  | noRoot (server : String)
  | routed (key : InstanceKey)

/-- What routing does with a file at one server. -/
def routeTo (w : Workplace) (c : Config) (file : Path) (d : ServerDefinition) : RouteVerdict :=
  if !c.isEnabled d.id then .disabled d.id
  else
    match d.detectRoot w.tree w.cwd file with
    | some root => .routed ⟨d.id, root⟩
    | none => .noRoot d.id

/-- What routing does with a file at each server that handles it. -/
def routeVerdicts (w : Workplace) (c : Config) (r : Registry) (file : Path) :
    List RouteVerdict :=
  (r.forFile (w.absolute file)).map (routeTo w c (w.absolute file))

def remarkWidth : Nat := 16

def RouteVerdict.line : RouteVerdict → String
  | disabled server => "  " ++ Text.padRight server remarkWidth ++ " disabled"
  | noRoot server => "  " ++ Text.padRight server remarkWidth ++ " no project root"
  | routed key => "  " ++ key.display

def routeLines (w : Workplace) (c : Config) (r : Registry) (file : Path) : List String :=
  (w.absolute file).display ::
    match routeVerdicts w c r file with
    | [] => ["  (no server handles this extension)"]
    | verdicts => verdicts.map (·.line)

end ServerFleet.CommandLine
