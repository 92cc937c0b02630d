import ServerFleet.Definition.Basic
import ServerFleet.Instance.Key

/-!
The ordered table of server definitions. Ids are pairwise distinct; a definition that replaces
another takes its place.
-/

namespace ServerFleet

/-- Server definitions in the order of their registration. -/
structure Registry where
  servers : List ServerDefinition
deriving Inhabited

namespace Registry

def empty : Registry := ⟨[]⟩

def get? (r : Registry) (id : String) : Option ServerDefinition := r.servers.find? (·.id = id)

def contains (r : Registry) (id : String) : Bool := (r.get? id).isSome

def ids (r : Registry) : List String := r.servers.map (·.id)

/-- Adds a definition whose id is new. -/
def register (r : Registry) (d : ServerDefinition) : Except RegistryError Registry :=
  if r.contains d.id then .error (.duplicate d.id) else .ok ⟨r.servers ++ [d]⟩

/-- Puts a definition in the place of the first one with its id, or at the end. -/
def replaceIn (d : ServerDefinition) : List ServerDefinition → List ServerDefinition
  | [] => [d]
  | s :: rest => if s.id = d.id then d :: rest else s :: replaceIn d rest

/-- Adds a definition, in the place of one with the same id if there is one. -/
def replace (r : Registry) (d : ServerDefinition) : Registry := ⟨replaceIn d r.servers⟩

def forFile (r : Registry) (file : Path) : List ServerDefinition :=
  match fileExtension file with
  | some e => r.servers.filter (·.handles e)
  | none => []

def isEmpty (r : Registry) : Bool := r.servers.isEmpty

end Registry

end ServerFleet
