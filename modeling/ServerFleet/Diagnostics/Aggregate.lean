import ServerFleet.Diagnostics.Basic
import ServerFleet.Path.Basic
import ServerFleet.Table

/-!
Diagnostics of several servers, file by file. Lists for the same file are joined in the order in
which they come, and each diagnostic without a source is tagged with the id of its server.
-/

namespace ServerFleet

/-- The diagnostics of files, as one server publishes them. -/
abbrev DiagnosticTable := Table Path (List Diagnostic)

/-- How long to wait for the diagnostics of a server, in milliseconds, when nothing else is
asked for. -/
def defaultDiagnosticsTimeout : Nat := 3000

/-- Diagnostics collected from servers. -/
structure Aggregate where
  files : DiagnosticTable

namespace Aggregate

def empty : Aggregate := ⟨.empty⟩

/-- Appends what a server reports for one file. -/
def extendFile (a : Aggregate) (server : String) (file : Path) (ds : List Diagnostic) :
    Aggregate :=
  ⟨a.files.alter file [] (· ++ ds.map (·.tag server))⟩

/-- Appends what a server reports for all its files. -/
def extend (a : Aggregate) (server : String) (table : DiagnosticTable) : Aggregate :=
  table.entries.foldl (fun a e => a.extendFile server e.1 e.2) a

def all (a : Aggregate) : List Diagnostic := a.files.values.flatten

def size (a : Aggregate) : Nat := a.files.values.foldr (fun found n => found.length + n) 0

def isEmpty (a : Aggregate) : Bool := a.size == 0

def errorCount (a : Aggregate) : Nat := a.all.countP (·.isError)

def file (a : Aggregate) (p : Path) : List Diagnostic := (a.files.find? p).getD []

end Aggregate

end ServerFleet
