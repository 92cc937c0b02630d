import ServerFleet.Path.Basic

/-!
The identity of a server instance: the id of its definition and the project root it was started
for. Keys are equal when their ids are and their roots name the same path; they are ordered by
id and then by root.
-/

namespace ServerFleet

/-- A server at a project root. -/
structure InstanceKey where
  serverId : String
  root : Path
deriving Inhabited

namespace InstanceKey

/-- Whether two keys name the same instance. -/
def same (a b : InstanceKey) : Bool := a.serverId == b.serverId && a.root == b.root

instance : BEq InstanceKey := ⟨same⟩

theorem beq_iff {a b : InstanceKey} :
    (a == b) = true ↔ a.serverId = b.serverId ∧ (a.root == b.root) = true := by
  show same a b = true ↔ _
  simp [same]

/-- Ids by their octets, roots by components. -/
def compare (a b : InstanceKey) : Ordering :=
  (compareText a.serverId b.serverId).then (a.root.compare b.root)

def display (k : InstanceKey) : String := k.serverId ++ ":" ++ k.root.display

end InstanceKey

instance : EquivBEq InstanceKey where
  rfl := InstanceKey.beq_iff.2 ⟨rfl, BEq.rfl⟩
  symm h :=
    let ⟨hi, hr⟩ := InstanceKey.beq_iff.1 h
    InstanceKey.beq_iff.2 ⟨hi.symm, BEq.symm hr⟩
  trans h h' :=
    let ⟨hi, hr⟩ := InstanceKey.beq_iff.1 h
    let ⟨hi', hr'⟩ := InstanceKey.beq_iff.1 h'
    InstanceKey.beq_iff.2 ⟨hi.trans hi', BEq.trans hr hr'⟩

end ServerFleet
