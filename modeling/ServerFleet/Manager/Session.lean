import ServerFleet.Json.Printer
import ServerFleet.Manager.Playback

/-!
A session with a scripted manager: directions are carried out one after another, and for each one
there is a record of what was seen while it was carried out. Everything that can go forward
without the clock moving does so before the next direction.
-/

namespace ServerFleet.Manager

/-- One entry of a session. -/
inductive Direction where
  /-- A call comes in, perhaps several times. -/
  | call (request : Request) (times : Nat)
  | sleep (ms : Nat)
  | openGate (name : String)
  | destroyGate (name : String)
  /-- A server has other plans from now on. -/
  | plan (server : String) (launches : Option (List LaunchPlan))
      (connections : Option (List ClientPlan)) (installed : Option Bool)
  /-- The last call of an earlier entry is given up. -/
  | abort (entry : Nat)
  /-- The client of a server with a number reports something. -/
  | emit (server : String) (number : Nat) (event : ClientEvent)
  /-- The manager is let go. -/
  | drop

/-- What is said about an entry. -/
inductive Remark where
  /-- Whether somebody still listened to a client. -/
  | heard (b : Bool)
  | noSuchClient
  /-- A call came after the manager was let go. -/
  | dropped

/-- What was seen while an entry was carried out. -/
structure Record where
  time : Nat
  /-- The instances of the servers that have any, while somebody holds the manager. -/
  instances : Option (List (String × List InstanceStatus))
  /-- The calls that ended, with the entries they came from. -/
  done : List (Nat × Answer)
  remark : Option Remark
  /-- What was asked of launchers and clients. -/
  log : List Json
  events : List Json

/-- A session in progress. -/
structure Session where
  playback : Playback
  /-- The calls with the entries they came from. -/
  calls : List (Nat × CallId)
  /-- The number of the next entry. -/
  entry : Nat

namespace LogEntry

def members (e : LogEntry) : List (String × Json) :=
  [("at", .nat e.time), ("server_id", .string e.key.serverId),
    ("root", .string e.key.root.display), ("call", .string e.call)] ++ e.details

end LogEntry

/-- The text of an entry of the log with its members in the order of their names. -/
def sortedText (ms : List (String × Json)) : String :=
  (Json.object (ms.mergeSort fun a b => (compareText a.1 b.1).isLE)).compact

/-- Puts entries in the order of time, server and root. -/
def sortEntries {α : Type} (time : α → Nat) (server root : α → String) (l : List α) : List α :=
  l.mergeSort fun a b =>
    ((Ord.compare (time a) (time b)).then
      ((compareText (server a) (server b)).then (compareText (root a) (root b)))).isLE

namespace LogEntry

/-- The calls that waiting callers make in no particular order when they go on together. -/
def unordered : List String :=
  ["open", "change", "save", "hover", "completion", "definition", "references", "wait", "waited"]

/-- Whether two neighbours stand in no particular order. -/
def together (a b : LogEntry) : Bool :=
  unordered.contains a.call && unordered.contains b.call && a.time == b.time &&
    a.key.serverId == b.key.serverId && a.key.root.display == b.key.root.display

/-- The log in its normal order. -/
def arrange (log : List LogEntry) : List Json :=
  let sorted := sortEntries LogEntry.time (·.key.serverId) (·.key.root.display) log
  ((sorted.splitBy together).flatMap fun run =>
    run.mergeSort fun a b => (compareText (sortedText a.members) (sortedText b.members)).isLE).map
      fun e => .object e.members

end LogEntry

def arrangeEvents (events : List (Nat × Event)) : List Json :=
  let root (e : Nat × Event) : String := (e.2.root?.map (·.display)).getD ""
  (sortEntries (·.1) (·.2.server) root events).map fun (time, e) =>
    match e.members? with
    | some ms => .object (("at", .nat time) :: ms)
    | none => .null

namespace Session

def create (p : Playback) : Session := ⟨p, [], 0⟩

/-- Lets a call come in a number of times. -/
def startCalls (s : Session) (request : Request) : Nat → Session
  | 0 => s
  | n + 1 =>
    let id := s.playback.state.calls.size
    let (p, _) := s.playback.happen (.start request)
    startCalls { s with playback := p.enqueue [.call id], calls := s.calls ++ [(s.entry, id)] }
      request n

def client? (s : Session) (server : String) (number : Nat) : Option ClientId :=
  (s.playback.state.clients.entries.find? fun e =>
    e.2.key.serverId == server && e.2.number == number).map (·.1)

/-- Lets a client report something; diagnostics it reports are also what it has to show. -/
def emit (s : Session) (server : String) (number : Nat) (event : ClientEvent) :
    Session × Remark :=
  match s.client? server number with
  | none => (s, .noSuchClient)
  | some client =>
    let p := match event with
      | .diagnostics file found => (s.playback.happen (.publish client file found)).1
      | _ => s.playback
    let (p, heard) := p.happen (.report client event)
    ({ s with playback := p }, .heard heard)

/-- Carries a direction out, up to what goes forward by itself. -/
def carryOut (s : Session) (d : Direction) : Session × Option Remark :=
  let p := s.playback
  match d with
  | .call request times =>
    if p.state.released then (s, some .dropped) else (s.startCalls request times, none)
  | .sleep ms =>
    ({ s with playback := p.runUntil (p.state.now + ms) Playback.stepLimit }, none)
  | .openGate name => ({ s with playback := { p with opened := name :: p.opened } }, none)
  | .destroyGate name => ({ s with playback := { p with destroyed := name :: p.destroyed } }, none)
  | .plan server launches connections installed =>
    let p := { p with
      launches := launches.elim p.launches (p.launches.insert server)
      connections := connections.elim p.connections (p.connections.insert server)
      said := installed.elim p.said (p.said.insert server) }
    ({ s with playback := p.surround p.state.surroundings.tree }, none)
  | .abort entry =>
    match (s.calls.filter (·.1 = entry)).getLast? with
    | some (_, id) => ({ s with playback := (p.happen (.cancel id)).1 }, none)
    | none => (s, none)
  | .emit server number event =>
    let (s, remark) := s.emit server number event
    (s, some remark)
  | .drop => ({ s with playback := (p.happen .release).1 }, none)

/-- The instances of the servers that have any. -/
def instances (s : Session) : Option (List (String × List InstanceStatus)) :=
  let state := s.playback.state
  if state.released then none
  else some ((state.settings.registry.ids.map fun id => (id, state.roster.instances id)).filter
    fun e => !e.2.isEmpty)

def entryOf (s : Session) (id : CallId) : Nat :=
  ((s.calls.find? (·.2 = id)).map (·.1)).getD 0

/-- Carries a direction out and records what was seen. -/
def next (s : Session) (d : Direction) : Session × Record :=
  let (s, remark) := s.carryOut d
  let p := s.playback.settle Playback.stepLimit
  let s := { s with playback := p }
  let done := p.answers.reverse.map fun (id, answer) => (s.entryOf id, answer)
  let record : Record := {
    time := p.state.now
    instances := s.instances
    done := done.mergeSort fun a b => a.1 ≤ b.1
    remark
    log := LogEntry.arrange p.log.reverse
    events := arrangeEvents p.events.reverse
  }
  ({ s with playback := { p with log := [], events := [], answers := [] }, entry := s.entry + 1 },
    record)

/-- The number of entries whose last call has not come to an end. -/
def unfinished (s : Session) : Nat :=
  (List.range s.entry).countP fun entry =>
    match (s.calls.filter (·.1 = entry)).getLast? with
    | some (_, id) => (s.playback.state.calls.find? id).any (!·.stage.isOver)
    | none => false

def play (s : Session) : List Direction → Session × List Record
  | [] => (s, [])
  | d :: ds =>
    let (s, record) := s.next d
    let (s, records) := s.play ds
    (s, record :: records)

end Session

end ServerFleet.Manager
