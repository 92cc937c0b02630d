import ServerFleet.Manager.Step

/-!
Scripts for launchers and clients: what an operation does before it ends, and how it ends. Each
launch and each connection of a server takes the next plan of that server; the last plan is used
again and again.
-/

namespace ServerFleet.Manager

/-- One thing an operation does before it ends. -/
inductive Phase where
  /-- It goes on for ever. -/
  | hang
  /-- It waits until a gate is opened. -/
  | gate (name : String)
  | report (stage : InstallStage) (package : String)
  | delay (ms : Nat)
deriving DecidableEq

/-- What an operation does. -/
structure Script where
  phases : List Phase
  ending : Reply
  /-- How it ends when the gate it waits for is destroyed, if it ends then. -/
  broken : Option Reply

/-- A launch. -/
structure LaunchPlan where
  gate : Option String
  reports : List (InstallStage × String)
  delay : Nat
  ending : Reply

/-- How a client answers one kind of call. -/
structure ReplyPlan where
  hangs : Bool
  gate : Option String
  delay : Nat
  reply : ClientReply

/-- A client. -/
structure ClientPlan where
  /-- Whether it can be connected. -/
  connects : Bool
  /-- The diagnostics it publishes for each file that is opened. -/
  diagnostics : Option (List Diagnostic)
  /-- The calls it answers in a special way, by name. -/
  calls : List (String × ReplyPlan)

namespace LaunchPlan

/-- Starts the server inside the process of the manager at once. -/
def plain : LaunchPlan := ⟨none, [], 0, .launched false⟩

def script (p : LaunchPlan) : Script where
  phases :=
    (p.gate.map .gate).toList ++ p.reports.map (fun r => .report r.1 r.2) ++ [.delay p.delay]
  ending := p.ending
  broken := some .missing

end LaunchPlan

namespace ClientPlan

/-- Connects, and answers every call at once. -/
def plain : ClientPlan := ⟨true, none, []⟩

/-- The reply to a call that is answered in no special way. -/
def plainReply : ClientCall → ClientReply
  | .query .hover _ _ => .hover none
  | .query _ _ _ => .items []
  | _ => .done

def script (p : ClientPlan) (call : ClientCall) : Script :=
  match p.calls.find? (·.1 = call.name) with
  | none => ⟨[], .client (plainReply call), none⟩
  | some (_, r) =>
    { phases := (if r.hangs then [.hang] else []) ++ (r.gate.map .gate).toList ++ [.delay r.delay]
      ending := .client r.reply
      broken := none }

end ClientPlan

/-- Takes the next plan of a server; the last one stays. -/
def takePlan {α : Type} (plain : α) (plans : Table String (List α)) (server : String) :
    α × Table String (List α) :=
  match plans.find? server with
  | some [] => (plain, plans)
  | some [plan] => (plan, plans)
  | some (plan :: rest) => (plan, plans.insert server rest)
  | none => (plain, plans)

end ServerFleet.Manager
