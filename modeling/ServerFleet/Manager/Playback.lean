import ServerFleet.Launch.TreeHost
import ServerFleet.Manager.Script

/-!
A manager with scripted launchers and clients on a clock that moves only when it is told to. The
playback decides which of the possible steps happens next: tasks that can go forward wait in a
queue, and the first one goes forward until it has to wait for something.
-/

namespace ServerFleet.Manager

/-- What an operation in progress waits for. -/
inductive Obstacle where
  | never
  | gate (name : String)
  | time (due : Nat)
deriving DecidableEq

/-- A scripted operation in progress. -/
structure Performance where
  task : TaskId
  operation : Operation
  obstacle : Obstacle
  /-- What is left once the obstacle is gone. -/
  left : List Phase
  script : Script

/-- Something that was asked of a launcher or a client. -/
structure LogEntry where
  time : Nat
  key : InstanceKey
  call : String
  details : List (String × Json)

/-- A manager under a script. -/
structure Playback where
  state : State
  /-- The environment of the programs that are launched. -/
  environment : Environment
  /-- The tasks that go forward next. -/
  ready : List TaskId
  performances : List Performance
  opened : List String
  destroyed : List String
  launches : Table String (List LaunchPlan)
  connections : Table String (List ClientPlan)
  /-- The plans of the clients that were connected. -/
  plans : Table ClientId ClientPlan
  /-- The servers whose programs are said to be there or to be missing. -/
  said : Table String Bool
  /-- What was asked of launchers and clients, latest first. -/
  log : List LogEntry
  /-- The events with their times, latest first. -/
  events : List (Nat × Event)
  /-- The calls that have ended, latest first. -/
  answers : List (CallId × Answer)

/-- What an attempt is told of a launch that has come to its end. -/
def Reply.ofLaunch {σ π : Type} (l : Launch σ π) : Reply :=
  match l.outcome with
  | .ok none => .missing
  | .ok (some _) => .launched true
  | .error _ => .failed

namespace Playback

def isInstalled (said : Table String Bool) (e : Environment) (t : Tree) (cwd : Location)
    (d : ServerDefinition) : Bool :=
  match d.launcher with
  | .hosted => (said.find? d.id).getD true
  | .command c => c.isInstalled (treeHost cwd e) t

/-- Lets the manager see a file tree. -/
def surround (p : Playback) (tree : Tree) : Playback :=
  let cwd := p.state.surroundings.cwd
  match p.state.step? (.surround ⟨tree, cwd, isInstalled p.said p.environment tree cwd⟩) with
  | some (state, _) => { p with state }
  | none => p

/-- A manager at the start of its script. -/
def create (settings : Settings) (tree : Tree) (cwd : Location) (e : Environment)
    (delays : List Nat) (disabled : List String) (launches : Table String (List LaunchPlan))
    (connections : Table String (List ClientPlan)) : Playback where
  state := .create settings ⟨tree, cwd, isInstalled .empty e tree cwd⟩ delays disabled
  environment := e
  ready := []
  performances := []
  opened := []
  destroyed := []
  launches
  connections
  plans := .empty
  said := .empty
  log := []
  events := []
  answers := []

/-- Notes what was asked of a launcher or a client. -/
def note (p : Playback) (key : InstanceKey) (call : String) (details : List (String × Json)) :
    Playback :=
  { p with log := ⟨p.state.now, key, call, details⟩ :: p.log }

def noteClient (p : Playback) (client : ClientId) (call : String)
    (details : List (String × Json)) : Playback :=
  match p.state.clients.find? client with
  | some c => p.note c.key call (("client", .nat c.number) :: details)
  | none => p

/-- What is noted of a call beside its name. -/
def callDetails : ClientCall → List (String × Json)
  | .open f => [("path", .string f.display)]
  | .change f text => [("path", .string f.display), ("content", .string text)]
  | .save f => [("path", .string f.display)]
  | .awaitDiagnostics f limit => [("path", .string f.display), ("timeout_ms", .nat limit)]
  | .query _ f position =>
    [("path", .string f.display),
      ("position", .array [.nat position.line, .nat position.character])]
  | _ => []

def perform (p : Playback) (task : TaskId) (operation : Operation) (script : Script) : Playback :=
  { p with
    performances := p.performances ++ [⟨task, operation, .time 0, script.phases, script⟩] }

def attemptOf? (p : Playback) : TaskId → Option Attempt
  | .attempt id => p.state.attempts.find? id
  | _ => none

/-- The command of a server that is a program of its own. -/
def commandOf? (p : Playback) (server : String) : Option Command := do
  match (← p.state.settings.registry.get? server).launcher with
  | .command c => some c
  | .hosted => none

/-- Launches a server that is a program of its own. -/
def launchCommand (p : Playback) (task : TaskId) (c : Command) (root : Path) : Playback :=
  let s := p.state.surroundings
  let launch := c.launch (treeHost s.cwd p.environment) root s.tree
  (p.surround launch.state).perform task .launch
    ⟨launch.reports.map fun stage => .report stage c.program, .ofLaunch launch, none⟩

/-- Sets an operation going that a task has begun. -/
def begin (p : Playback) (task : TaskId) (operation : Operation) : Playback :=
  match operation, p.attemptOf? task with
  | .launch, some a =>
    let server := a.key.serverId
    match p.commandOf? server with
    | some c => p.launchCommand task c a.key.root
    | none =>
      let p := p.note a.key "spawn" []
      let (plan, launches) := takePlan .plain p.launches server
      { p with launches }.perform task operation plan.script
  | .connect hasProcess, some a =>
    let server := a.key.serverId
    let options := (p.state.settings.registry.get? server).bind (·.initialization)
    let p := p.note a.key "connect"
      [("initialization", options.getD .null), ("process", .bool hasProcess)]
    let (plan, connections) := takePlan .plain p.connections server
    let p := { p with connections }
    if plan.connects then
      { p with plans := p.plans.insert p.state.clients.size plan }.perform task operation
        ⟨[], .connected, none⟩
    else p.perform task operation ⟨[], .failed, none⟩
  | .client client call, _ =>
    let p := p.noteClient client call.name (callDetails call)
    p.perform task operation (((p.plans.find? client).getD .plain).script call)
  | _, none => p

/-- Makes a label happen and takes down what is seen of it; tells whether it was possible. -/
def happen (p : Playback) (label : Label) : Playback × Bool :=
  match p.state.step? label with
  | none => (p, false)
  | some (state, effects) =>
    (effects.foldl (fun p effect =>
      match effect with
      | .began task operation => p.begin task operation
      | .announced event _ => { p with events := (p.state.now, event) :: p.events }
      | .answered call answer => { p with answers := (call, answer) :: p.answers })
      { p with state }, true)

def enqueue (p : Playback) (tasks : List TaskId) : Playback :=
  { p with ready := p.ready ++ tasks.filter (!p.ready.contains ·) }

/-- Puts the other tasks that can go forward into the queue. -/
def enqueueOthers (p : Playback) (current : TaskId) : Playback :=
  p.enqueue (p.state.tasks.filter fun t => t != current && (p.state.runTask t).isSome)

def isBlocked (p : Playback) : Obstacle → Bool
  | .never => true
  | .gate name => !p.opened.contains name && !p.destroyed.contains name
  | .time due => p.state.now < due

/-- What a client does by itself when one of its operations ends. -/
def atEnd (p : Playback) (operation : Operation) (ending : Reply) : Playback :=
  match operation, ending with
  | .client client (.awaitDiagnostics _ _), _ => p.noteClient client "waited" []
  | .client client .shutdown, _ => p.noteClient client "shut" []
  | .client client (.open file), .client .done =>
    match (p.plans.find? client).bind (·.diagnostics) with
    | some found =>
      let (p, _) := p.happen (.publish client file found)
      (p.happen (.report client (.diagnostics file found))).1
    | none => p
  | _, _ => p

/-- Goes through the phases of an operation up to its end or an obstacle. -/
def goThrough (p : Playback) (x : Performance) : List Phase → Playback
  | [] =>
    let p := p.atEnd x.operation x.script.ending
    (p.happen (.reply x.task x.script.ending)).1
  | phase :: rest =>
    let wait (obstacle : Obstacle) : Playback :=
      { p with performances := p.performances ++ [{ x with obstacle, left := rest }] }
    match phase, x.task with
    | .hang, _ => wait .never
    | .gate name, _ =>
      match p.destroyed.contains name, x.script.broken with
      | true, some reply => (p.happen (.reply x.task reply)).1
      | destroyed, _ =>
        if destroyed || p.opened.contains name then p.goThrough x rest else wait (.gate name)
    | .report stage package, .attempt id =>
      (p.happen (.progress id stage package)).1.goThrough x rest
    | .report _ _, _ => p.goThrough x rest
    | .delay ms, _ => if ms = 0 then p.goThrough x rest else wait (.time (p.state.now + ms))

/-- Goes on with an operation whose obstacle is gone. -/
def resume (p : Playback) (x : Performance) : Playback :=
  match x.obstacle, x.script.broken with
  | .gate name, some reply =>
    if p.destroyed.contains name then (p.happen (.reply x.task reply)).1
    else p.goThrough x x.left
  | _, _ => p.goThrough x x.left

def withoutPerformance (p : Playback) (task : TaskId) : Playback :=
  { p with performances := p.performances.filter (·.task ≠ task) }

/-- Lets a task go forward until it has to wait, at most `fuel` steps. An operation that ends
wins over its time limit. -/
def poll (task : TaskId) : Nat → Playback → Playback
  | 0, p => p
  | fuel + 1, p =>
    match p.performances.find? (·.task = task) with
    | some x =>
      if p.isBlocked x.obstacle then
        match p.state.limit? task with
        | some limit =>
          if p.state.now < limit then p
          else
            let (p, _) := (p.withoutPerformance task).happen (.expire task)
            poll task fuel (p.enqueueOthers task)
        | none => p
      else
        let p := (p.withoutPerformance task).resume x
        poll task fuel (p.enqueueOthers task)
    | none =>
      let (p, went) := p.happen (.run task)
      if went then poll task fuel (p.enqueueOthers task) else p

/-- More steps than any terminating script needs. -/
def stepLimit : Nat := 100000

/-- Removes the operations that nobody waits for any more. -/
def dropOrphans (p : Playback) : Playback :=
  { p with performances := p.performances.filter fun x => p.state.isWaiting x.task }

/-- Lets the tasks of the queue go forward until the queue is empty. -/
def drain : Nat → Playback → Playback
  | 0, p => p
  | fuel + 1, p =>
    match p.ready with
    | [] => p
    | task :: rest => drain fuel (poll task stepLimit { p with ready := rest })

def dueTimers (p : Playback) : List Nat :=
  if p.state.isAlive then
    (p.state.roster.retries.sleepers.filter fun x => !x.awake && x.due ≤ p.state.now).map (·.id)
  else []

/-- The tasks whose operation can go on or has passed its time limit. -/
def dueTasks (p : Playback) : List TaskId :=
  (p.performances.filter fun x =>
    !p.isBlocked x.obstacle ||
      match p.state.limit? x.task with
      | some limit => limit ≤ p.state.now
      | none => false).map (·.task)

/-- Lets everything go forward that can without the clock moving, at most `fuel` rounds. -/
def settle : Nat → Playback → Playback
  | 0, p => p
  | fuel + 1, p =>
    let p := p.dropOrphans
    let timers := p.dueTimers
    let p := timers.foldl (fun p id => (p.happen (.wake id)).1) p
    let p := p.enqueue (p.dueTasks ++ timers.map .timer)
    let p := p.enqueue (p.state.tasks.filter fun t => (p.state.runTask t).isSome)
    if p.ready.isEmpty then p else settle fuel (p.drain stepLimit)

def nextTime? (p : Playback) : Option Nat :=
  (p.state.dueTimes ++ p.performances.filterMap fun x =>
    match x.obstacle with
    | .time due => some due
    | _ => none).min?

/-- Moves the clock to a time and lets everything happen that comes due on the way. -/
def runUntil (goal : Nat) : Nat → Playback → Playback
  | 0, p => p
  | fuel + 1, p =>
    match p.nextTime? with
    | some time =>
      if time ≤ goal then runUntil goal fuel ((p.happen (.advance time)).1.settle stepLimit)
      else (p.happen (.advance goal)).1
    | none => (p.happen (.advance goal)).1

end Playback

end ServerFleet.Manager
