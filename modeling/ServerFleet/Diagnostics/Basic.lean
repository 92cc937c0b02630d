import ServerFleet.Protocol.Shape

/-!
Diagnostics that servers publish. Source and severity are read by the manager; the other members
are kept in their protocol form.
-/

namespace ServerFleet

/-- A message about a range of a file. -/
structure Diagnostic where
  /-- How severe it is; 1 stands for an error. -/
  severity : Option Int
  /-- The tool that found it. -/
  source : Option String
  /-- The other members. -/
  rest : List (String × Json)
deriving Inhabited

namespace Diagnostic

def errorSeverity : Int := 1

def isError (d : Diagnostic) : Bool := d.severity == some errorSeverity

def ofJson? (j : Json) : Option Diagnostic := do
  let form ← Protocol.Shape.diagnostic.conform j
  let members ← form.asObject?
  return {
    severity := match form.get? "severity" with
      | some (.integer i) => some i
      | _ => none
    source := (form.get? "source").bind Json.asString?
    rest := members.filter fun m => m.1 ≠ "severity" ∧ m.1 ≠ "source"
  }

def toJson (d : Diagnostic) : Json :=
  .object (d.rest ++ (d.severity.map fun i => ("severity", .integer i)).toList ++
    (d.source.map fun s => ("source", .string s)).toList)

/-- Gives a diagnostic without a source the id of its server as source. -/
def tag (server : String) (d : Diagnostic) : Diagnostic :=
  { d with source := some (d.source.getD server) }

end Diagnostic

def diagnosticsJson (ds : List Diagnostic) : Json := .array (ds.map (·.toJson))

end ServerFleet
