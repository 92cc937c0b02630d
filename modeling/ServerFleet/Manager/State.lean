import ServerFleet.Manager.Request
import ServerFleet.Event.Basic
import ServerFleet.Registry.Basic

/-!
The state of a manager at work. Beside the roster there are the attempts to start instances, the
calls in progress with the tasks they have started, the clients with their inboxes, and the
timers that have come due. Each of these is a task that goes forward in small steps.
-/

namespace ServerFleet.Manager

/-- Identifies a call on the manager. -/
abbrev CallId := Nat

/-- How far an attempt to start an instance has come. -/
inductive AttemptStage where
  /-- It was entered in the roster and has not begun. -/
  | reserved
  /-- The launcher is at work. -/
  | launching
  /-- A client is being connected. -/
  | connecting
  /-- The handshake is under way, perhaps with a time limit. -/
  | handshaking (client : ClientId) (limit : Option Nat)
  /-- The handshake failed and the client is being shut down. -/
  | abandoning (client : ClientId)
  /-- The outcome is clear and has to be entered. -/
  | concluded (outcome : Outcome)
  /-- The client went live and this has to be announced. -/
  | announcing (client : ClientId)
  /-- The client came too late and is being shut down. -/
  | discarding (client : ClientId)
  | finished
deriving DecidableEq, Inhabited

/-- An attempt to start an instance. -/
structure Attempt where
  key : InstanceKey
  /-- The epoch in which it was reserved. -/
  epoch : Nat
  /-- Whether a retry began it. -/
  byRetry : Bool
  stage : AttemptStage
  /-- Once it is settled, the client for those who wait for it, if there is one. -/
  published : Option (Option ClientId)
deriving Inhabited

/-- How far an errand has come. -/
inductive ErrandStage where
  | fresh
  /-- The client is at work, perhaps with a time limit. -/
  | underway (limit : Option Nat)
  | finished
  /-- The call has taken notice of its end. -/
  | collected
deriving DecidableEq, Inhabited

/-- A task that a call has started: something that is asked of one client beside the others. -/
structure Errand where
  key : InstanceKey
  client : ClientId
  call : ClientCall
  stage : ErrandStage
deriving Inhabited

/-- How far a call has come. While the servers of a file are resolved, a call carries the
definitions that are left and the clients found so far; while clients are asked, it carries the
clients that are left and the replies so far. -/
inductive CallStage where
  | entering
  /-- The next definition is up. -/
  | routing (left : List ServerDefinition) (found : List ClientId)
  /-- The root of an instance is known and the instance has to be looked up. -/
  | admitting (key : InstanceKey) (left : List ServerDefinition) (found : List ClientId)
  /-- An attempt to start the instance is waited for. -/
  | joined (attempt : AttemptId) (left : List ServerDefinition) (found : List ClientId)
  /-- The next client is up. -/
  | visiting (left : List ClientId) (replies : List (ClientId × ClientReply))
  /-- A client has been asked. -/
  | contacting (client : ClientId) (left : List ClientId)
      (replies : List (ClientId × ClientReply))
  /-- The status of a server has changed and this has to be announced before its removed
  instances are shut down. -/
  | announcing (server : String) (enabled : Bool) (removed : List (InstanceKey × ClientId))
  /-- The retries of a server have to be forgotten. -/
  | forgetting (server : String) (cleared : Nat)
  /-- The errands of the call are waited for. -/
  | joining (answer : Answer)
  | finished (answer : Answer)
  | cancelled
deriving Inhabited

/-- A call on the manager. -/
structure Call where
  request : Request
  /-- The file that is routed, if there is one, made absolute when the call is entered. -/
  file : Path
  stage : CallStage
  errands : List Errand
deriving Inhabited

/-- What a client reports by itself. -/
inductive ClientEvent where
  | diagnostics (file : Path) (found : List Diagnostic)
  | closed
  | error
deriving Inhabited

/-- What is being done about the reports of a client. -/
inductive PumpStage where
  | idle
  /-- The client was removed and this has to be announced. -/
  | announcing
  /-- The client reported an error and is being shut down. -/
  | failing
  /-- Nobody listens any more. -/
  | deaf
deriving DecidableEq, Inhabited

/-- A client that was connected. -/
structure ClientRecord where
  key : InstanceKey
  /-- The attempt that connected it. -/
  attempt : AttemptId
  /-- Its number among the clients of its server, counted from one. -/
  number : Nat
  /-- What it reported and nobody has looked at yet. -/
  inbox : List ClientEvent
  pump : PumpStage
  /-- The diagnostics it has to show. -/
  diagnostics : DiagnosticTable
deriving Inhabited

/-- What the manager was set up with. -/
structure Settings where
  registry : Registry
  diagnosticsTimeout : Nat
  /-- The time a handshake may take, if it is limited. -/
  handshakeTimeout : Option Nat
deriving Inhabited

/-- What the manager sees of the system it runs on. -/
structure Surroundings where
  tree : Tree
  cwd : Location
  /-- Whether the program of a server can be found. -/
  installed : ServerDefinition → Bool

/-- The state of a manager. -/
structure State where
  settings : Settings
  surroundings : Surroundings
  /-- The time in milliseconds. -/
  now : Nat
  roster : Roster
  attempts : Table AttemptId Attempt
  calls : Table CallId Call
  clients : Table ClientId ClientRecord
  /-- Retries whose timers have fired and which have not run yet. -/
  fired : List (Nat × RetryPlan)
  /-- Whether nobody holds the manager any more; calls in progress still do. -/
  released : Bool

/-- A task that goes forward by itself. -/
inductive TaskId where
  | attempt (id : AttemptId)
  | call (id : CallId)
  /-- An errand by its place among those of a call. -/
  | errand (call : CallId) (place : Nat)
  /-- The handling of what a client reports. -/
  | pump (client : ClientId)
  /-- A timer of the retries. -/
  | timer (id : Nat)
deriving DecidableEq, Inhabited

namespace AttemptStage

/-- Whether an attempt waits for the end of an operation. -/
def isWaiting : AttemptStage → Bool
  | launching => true
  | connecting => true
  | handshaking _ _ => true
  | abandoning _ => true
  | discarding _ => true
  | _ => false

end AttemptStage

namespace ErrandStage

def isWaiting : ErrandStage → Bool
  | underway _ => true
  | _ => false

end ErrandStage

namespace CallStage

def isWaiting : CallStage → Bool
  | contacting _ _ _ => true
  | _ => false

def isOver : CallStage → Bool
  | finished _ => true
  | cancelled => true
  | _ => false

end CallStage

/-- The first errand that has ended without notice, and all errands once notice is taken. -/
def Errand.collect : List Errand → Option (Errand × List Errand)
  | [] => none
  | e :: rest =>
    if e.stage = .finished then some (e, { e with stage := .collected } :: rest)
    else (Errand.collect rest).map fun (found, rest) => (found, e :: rest)

namespace PumpStage

/-- Whether a report is being dealt with. -/
def isBusy : PumpStage → Bool
  | announcing => true
  | failing => true
  | _ => false

end PumpStage

namespace State

def create (settings : Settings) (surroundings : Surroundings) (delays : List Nat)
    (disabled : List String) : State where
  settings
  surroundings
  now := 0
  roster := .create delays disabled
  attempts := .empty
  calls := .empty
  clients := .empty
  fired := []
  released := false

/-- A path as it is routed: relative ones start at the working directory. -/
def absolute (s : State) (file : Path) : Path :=
  Path.absolute (.ofLocation s.surroundings.cwd) file

/-- Whether the roster is still there: somebody holds the manager, or a task that uses it is at
work. -/
def isAlive (s : State) : Bool :=
  !s.released || s.calls.values.any (!·.stage.isOver) ||
    s.attempts.values.any (·.stage ≠ .finished) || s.clients.values.any (·.pump.isBusy)

def updateAttempt (s : State) (id : AttemptId) (f : Attempt → Attempt) : State :=
  match s.attempts.find? id with
  | some a => { s with attempts := s.attempts.insert id (f a) }
  | none => s

def updateCall (s : State) (id : CallId) (f : Call → Call) : State :=
  match s.calls.find? id with
  | some c => { s with calls := s.calls.insert id (f c) }
  | none => s

def updateClient (s : State) (id : ClientId) (f : ClientRecord → ClientRecord) : State :=
  match s.clients.find? id with
  | some c => { s with clients := s.clients.insert id (f c) }
  | none => s

def addAttempt (s : State) (k : InstanceKey) (byRetry : Bool) : State :=
  let attempt : Attempt := ⟨k, s.roster.epoch, byRetry, .reserved, none⟩
  { s with attempts := s.attempts.insert s.attempts.size attempt }

/-- The number of the next client of a server. -/
def nextNumber (s : State) (server : String) : Nat :=
  (s.clients.values.countP fun c => c.key.serverId == server) + 1

/-- The status of every server in the order of registration. -/
def status (s : State) : List ServerStatus :=
  s.settings.registry.servers.map fun d =>
    ⟨d.id, d.name, !s.roster.isDisabled d.id, s.surroundings.installed d, d.extensions,
      s.roster.instances d.id⟩

/-- The live clients with the diagnostics they have to show, in the order of their instances. -/
def liveTables (s : State) : List (String × DiagnosticTable) :=
  s.roster.liveClients.filterMap fun (k, client) =>
    (s.clients.find? client).map fun c => (k.serverId, c.diagnostics)

def allDiagnostics (s : State) : Aggregate :=
  s.liveTables.foldl (fun a (server, table) => a.extend server table) .empty

def diagnosticsFor (s : State) (file : Path) : List Diagnostic :=
  let a := s.liveTables.foldl (fun a (server, table) =>
    match table.find? file with
    | some found => a.extendFile server file found
    | none => a) Aggregate.empty
  a.file file

end State

end ServerFleet.Manager
