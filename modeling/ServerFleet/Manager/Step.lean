import ServerFleet.Manager.State

/-!
The manager as a transition system. A label says what happens: a call comes in, a task goes one
step forward, launchers and clients reply or report something, a time limit or a timer passes,
the clock moves. `step?` gives the next state with what can be seen from outside, or nothing when
the label cannot happen. Everything that is done under the lock of the roster is one step.
-/

namespace ServerFleet.Manager

/-- What a task has begun and now waits for. -/
inductive Operation where
  /-- Launch the server of an attempt. -/
  | launch
  /-- Connect a client to a server, which may have a process of its own. -/
  | connect (hasProcess : Bool)
  | client (client : ClientId) (call : ClientCall)
deriving Inhabited

/-- The end of an operation. -/
inductive Reply where
  /-- The server runs, perhaps as a process of its own. -/
  | launched (hasProcess : Bool)
  /-- The program of the server is missing. -/
  | missing
  /-- The server could not be launched, or no client could be connected. -/
  | failed
  | connected
  | client (reply : ClientReply)
deriving Inhabited

/-- What can be seen of a step from outside. -/
inductive Effect where
  /-- A task began an operation. -/
  | began (task : TaskId) (operation : Operation)
  /-- An event was sent to the subscribers; of a start or an end, for which client. -/
  | announced (event : Event) (client : Option ClientId)
  /-- A call came to its end. -/
  | answered (call : CallId) (answer : Answer)
deriving Inhabited

/-- Something that happens. -/
inductive Label where
  /-- A call comes in. -/
  | start (request : Request)
  /-- A task goes one step forward. -/
  | run (task : TaskId)
  /-- The operation of a task ends. -/
  | reply (task : TaskId) (reply : Reply)
  /-- A launcher reports progress of an installation. -/
  | progress (attempt : AttemptId) (stage : InstallStage) (package : String)
  /-- The time limit of the operation of a task passes. -/
  | expire (task : TaskId)
  /-- A timer of the retries comes due. -/
  | wake (timer : Nat)
  /-- A client reports something. -/
  | report (client : ClientId) (event : ClientEvent)
  /-- A client has other diagnostics to show for a file. -/
  | publish (client : ClientId) (file : Path) (found : List Diagnostic)
  /-- The clock moves to a time. -/
  | advance (time : Nat)
  /-- A call is given up by its caller. -/
  | cancel (call : CallId)
  /-- The last holder of the manager lets it go. -/
  | release
  /-- Something changes in the system the manager runs on. -/
  | surround (surroundings : Surroundings)

/-- A step: the state after it and what was seen of it. -/
abbrev Step := Option (State × List Effect)

namespace State

def limitFrom (s : State) (timeout : Option Nat) : Option Nat := timeout.map (s.now + ·)

/-- Begins to shut a client down on behalf of an attempt. -/
def shutDownFor (s : State) (id : AttemptId) (stage : ClientId → AttemptStage)
    (client : ClientId) : State × List Effect :=
  (s.updateAttempt id fun a => { a with stage := stage client },
    [.began (.attempt id) (.client client .shutdown)])

/-- Enters the outcome of an attempt, which also tells those who wait for it. -/
def settleAttempt (s : State) (id : AttemptId) (a : Attempt) (o : Outcome) :
    State × List Effect :=
  let (roster, settled) := s.roster.settle s.now a.key a.epoch o
  let s := { s with roster }.updateAttempt id fun a =>
    { a with stage := .finished, published := some settled.published }
  let retrying := settled.retrying.toList.map fun n =>
    Effect.announced (.serverRetrying a.key.serverId a.key.root n) none
  match settled.started, settled.published, settled.discarded with
  | true, some client, _ =>
    (s.updateAttempt id fun a => { a with stage := .announcing client }, retrying)
  | _, _, some client =>
    let (s, effects) := s.shutDownFor id .discarding client
    (s, retrying ++ effects)
  | _, _, none => (s, retrying)

def runAttempt (s : State) (id : AttemptId) : Step := do
  let a ← s.attempts.find? id
  match a.stage with
  | .reserved =>
    return (s.updateAttempt id fun a => { a with stage := .launching },
      [.began (.attempt id) .launch])
  | .concluded o => return s.settleAttempt id a o
  | .announcing client =>
    return (s.updateAttempt id fun a => { a with stage := .finished },
      [.announced (.serverStarted a.key.serverId a.key.root) (some client)])
  | _ => none

def replyToAttempt (s : State) (id : AttemptId) (reply : Reply) : Step := do
  let a ← s.attempts.find? id
  let conclude (o : Outcome) : Step :=
    some (s.updateAttempt id fun a => { a with stage := .concluded o }, [])
  match a.stage, reply with
  | .launching, .launched hasProcess =>
    return (s.updateAttempt id fun a => { a with stage := .connecting },
      [.began (.attempt id) (.connect hasProcess)])
  | .launching, .missing => conclude .unavailable
  | .launching, .failed => conclude .failed
  | .connecting, .failed => conclude .failed
  | .connecting, .connected =>
    let client := s.clients.size
    let record : ClientRecord :=
      ⟨a.key, id, s.nextNumber a.key.serverId, [], .idle, .empty⟩
    let s := { s with clients := s.clients.insert client record }
    return (s.updateAttempt id fun a =>
        { a with stage := .handshaking client (s.limitFrom s.settings.handshakeTimeout) },
      [.began (.attempt id) (.client client .handshake)])
  | .handshaking client _, .client .done => conclude (.ready client)
  | .handshaking client _, .client _ => return s.shutDownFor id .abandoning client
  | .abandoning _, .client _ => conclude .failed
  | .discarding _, .client _ =>
    return (s.updateAttempt id fun a => { a with stage := .finished }, [])
  | _, _ => none

def finish (s : State) (id : CallId) (answer : Answer) : State × List Effect :=
  (s.updateCall id fun c => { c with stage := .finished answer, errands := [] },
    [.answered id answer])

def goTo (s : State) (id : CallId) (stage : CallStage) : State × List Effect :=
  (s.updateCall id fun c => { c with stage }, [])

/-- Lets a call wait for errands, after which it gives its answer. -/
def joinErrands (s : State) (id : CallId) (errands : List Errand) (answer : Answer) :
    State × List Effect :=
  (s.updateCall id fun c => { c with stage := .joining answer, errands }, [])

def shutdownErrands (clients : List (InstanceKey × ClientId)) : List Errand :=
  clients.map fun (k, client) => ⟨k, client, .shutdown, .fresh⟩

def awaitErrands (s : State) (file : Path) (clients : List ClientId) : List Errand :=
  clients.map fun client =>
    ⟨(s.clients.find? client).elim ⟨"", ⟨[]⟩⟩ (·.key), client,
      .awaitDiagnostics file s.settings.diagnosticsTimeout, .fresh⟩

/-- The first step of a call. One that is about a file sets out to route it. -/
def enter (s : State) (id : CallId) : Request → State × List Effect
  | .allDiagnostics => s.finish id (.diagnostics s.allDiagnostics.files)
  | .diagnosticsForFile file => s.finish id (.fileDiagnostics (s.diagnosticsFor (s.absolute file)))
  | .status => s.finish id (.status s.status)
  | .registry => s.finish id (.ids s.settings.registry.ids)
  | .isServerEnabled server =>
    s.finish id (.flag (s.settings.registry.contains server && !s.roster.isDisabled server))
  | .setServerEnabled server enabled =>
    if !s.settings.registry.contains server then s.finish id (.flag false)
    else
      let (roster, changed, removed) :=
        if enabled then
          let (roster, changed) := s.roster.enable server
          (roster, changed, [])
        else s.roster.disable server
      let s := { s with roster }
      if changed then s.goTo id (.announcing server enabled removed)
      else s.joinErrands id (shutdownErrands removed) (.flag true)
  | .resetServer server =>
    let (roster, cleared) := s.roster.forgetBroken server
    { s with roster }.goTo id (.forgetting server cleared)
  | .shutdown =>
    let (roster, removed) := s.roster.shutDown
    { s with roster }.joinErrands id (shutdownErrands removed) .done
  | request =>
    match request.routed? with
    | some file =>
      let file := s.absolute file
      (s.updateCall id fun c =>
        { c with file, stage := .routing (s.settings.registry.forFile file) [] }, [])
    | none => s.finish id .done

/-- Looks an instance up for a call. -/
def enlist (s : State) (id : CallId) (k : InstanceKey) (left : List ServerDefinition)
    (found : List ClientId) : State × List Effect :=
  match s.roster.enlist k s.attempts.size with
  | (_, .refused) => s.goTo id (.routing left found)
  | (_, .live client) => s.goTo id (.routing left (found ++ [client]))
  | (_, .joined attempt) => s.goTo id (.joined attempt left found)
  | (roster, .reserved attempt) =>
    { s.addAttempt k false with roster }.goTo id (.joined attempt left found)

/-- Takes notice of an errand that has ended, or ends a call whose errands are all done. The end
of a client that was shut down is announced. -/
def joinNext (s : State) (id : CallId) (c : Call) (answer : Answer) : Step :=
  match Errand.collect c.errands with
  | some (e, errands) =>
    some (s.updateCall id fun c => { c with errands },
      match e.call with
      | .shutdown => [.announced (.serverClosed e.key.serverId e.key.root) (some e.client)]
      | _ => [])
  | none =>
    if c.errands.all (·.stage = .collected) then some (s.finish id answer) else none

def runCall (s : State) (id : CallId) : Step := do
  let c ← s.calls.find? id
  match c.stage with
  | .entering => return s.enter id c.request
  | .routing [] found =>
    match c.request with
    | .clientsForFile _ => return s.finish id (.clients found)
    | _ => return s.goTo id (.visiting found [])
  | .routing (d :: left) found =>
    if s.roster.isDisabled d.id then return s.goTo id (.routing left found)
    match d.detectRoot s.surroundings.tree s.surroundings.cwd c.file with
    | none => return s.goTo id (.routing left found)
    | some root => return s.goTo id (.admitting ⟨d.id, root⟩ left found)
  | .admitting k left found => return s.enlist id k left found
  | .joined attempt left found =>
    let result ← (s.attempts.find? attempt).bind (·.published)
    return s.goTo id (.routing left (found ++ result.toList))
  | .visiting [] replies =>
    match c.request.awaited replies with
    | [] => return s.finish id (c.request.answer replies)
    | clients =>
      return s.joinErrands id (s.awaitErrands c.file clients) (c.request.answer replies)
  | .visiting (client :: left) replies =>
    let call ← c.request.clientCall? c.file
    return (s.updateCall id fun c => { c with stage := .contacting client left replies },
      [.began (.call id) (.client client call)])
  | .announcing server enabled removed =>
    let (s, effects) := s.joinErrands id (shutdownErrands removed) (.flag true)
    return (s, .announced (.serverStatusChanged server enabled) none :: effects)
  | .forgetting server cleared =>
    return { s with roster := s.roster.forgetRetries server }.finish id (.count cleared)
  | .joining answer => s.joinNext id c answer
  | _ => none

def replyToCall (s : State) (id : CallId) (reply : Reply) : Step := do
  let c ← s.calls.find? id
  match c.stage, reply with
  | .contacting client left replies, .client r =>
    let left := if c.request.isSatisfied r then [] else left
    return s.goTo id (.visiting left (replies ++ [(client, r)]))
  | _, _ => none

/-- An errand of a call that is still in progress. -/
def errand? (s : State) (id : CallId) (place : Nat) : Option Errand := do
  let c ← s.calls.find? id
  if c.stage.isOver then none else c.errands[place]?

def moveErrand (s : State) (id : CallId) (place : Nat) (stage : ErrandStage) : State :=
  s.updateCall id fun c => { c with errands := c.errands.modify place fun e => { e with stage } }

/-- The time that an errand may take, if it is limited. -/
def errandTimeout : ClientCall → Option Nat
  | .awaitDiagnostics _ limit => some limit
  | _ => none

def runErrand (s : State) (id : CallId) (place : Nat) : Step := do
  let e ← s.errand? id place
  match e.stage with
  | .fresh =>
    return (s.moveErrand id place (.underway (s.limitFrom (errandTimeout e.call))),
      [.began (.errand id place) (.client e.client e.call)])
  | _ => none

def replyToErrand (s : State) (id : CallId) (place : Nat) (reply : Reply) : Step := do
  let e ← s.errand? id place
  match e.stage, reply with
  | .underway _, .client _ => return (s.moveErrand id place .finished, [])
  | _, _ => none

/-- A step in the handling of what a client reports. Once the roster is gone nobody listens. -/
def runPump (s : State) (id : ClientId) : Step := do
  let c ← s.clients.find? id
  let k := c.key
  match c.pump, c.inbox with
  | .idle, event :: rest =>
    if !s.isAlive then
      return (s.updateClient id fun c => { c with inbox := [], pump := .deaf }, [])
    let s := s.updateClient id fun c => { c with inbox := rest }
    match event with
    | .diagnostics file found =>
      return (s, [.announced (.diagnostics k.serverId file found) none])
    | .closed =>
      let (roster, removed) := s.roster.closeClient k id
      if removed then
        return ({ s with roster }.updateClient id fun c => { c with pump := .announcing }, [])
      else return (s, [])
    | .error =>
      let (roster, removed) := s.roster.breakClient k id
      if removed then
        return ({ s with roster }.updateClient id fun c => { c with pump := .failing },
          [.began (.pump id) (.client id .shutdown)])
      else return (s, [])
  | .announcing, _ =>
    return (s.updateClient id fun c => { c with pump := .idle },
      [.announced (.serverClosed k.serverId k.root) (some id)])
  | _, _ => none

/-- The end of the shutdown of a client that reported an error. -/
def replyToPump (s : State) (id : ClientId) (reply : Reply) : Step := do
  let c ← s.clients.find? id
  match c.pump, reply with
  | .failing, .client _ =>
    return (s.updateClient id fun c => { c with pump := .announcing }, [])
  | _, _ => none

/-- A step of a timer: it leaves the retries, and what it was set up for is done, unless it was
replaced or the roster is gone. -/
def runTimer (s : State) (id : Nat) : Step := do
  match s.fired.find? (·.1 = id) with
  | some (_, plan) =>
    let s := { s with fired := s.fired.filter (·.1 ≠ id) }
    if !s.isAlive then return (s, [])
    let (roster, begun) := s.roster.retry plan s.attempts.size
    if begun then return ({ s.addAttempt plan.key true with roster }, []) else return (s, [])
  | none =>
    let (retries, sleeper) ← s.roster.retries.unhook? id
    let s := { s with roster := { s.roster with retries } }
    match sleeper with
    | some x => return ({ s with fired := s.fired ++ [(id, x.action)] }, [])
    | none => return (s, [])

def runTask (s : State) : TaskId → Step
  | .attempt id => s.runAttempt id
  | .call id => s.runCall id
  | .errand id place => s.runErrand id place
  | .pump id => s.runPump id
  | .timer id => s.runTimer id

def replyToTask (s : State) (task : TaskId) (reply : Reply) : Step :=
  match task with
  | .attempt id => s.replyToAttempt id reply
  | .call id => s.replyToCall id reply
  | .errand id place => s.replyToErrand id place reply
  | .pump id => s.replyToPump id reply
  | .timer _ => none

def limit? (s : State) : TaskId → Option Nat
  | .attempt id => do
    match (← s.attempts.find? id).stage with
    | .handshaking _ limit => limit
    | _ => none
  | .errand id place => do
    match (← s.errand? id place).stage with
    | .underway limit => limit
    | _ => none
  | _ => none

/-- What happens to a task when its time limit has passed. -/
def expireTask (s : State) (task : TaskId) : Step := do
  let limit ← s.limit? task
  if s.now < limit then none
  match task with
  | .attempt id =>
    match (← s.attempts.find? id).stage with
    | .handshaking client _ => return s.shutDownFor id .abandoning client
    | _ => none
  | .errand id place => return (s.moveErrand id place .finished, [])
  | _ => none

def isWaiting (s : State) : TaskId → Bool
  | .attempt id => (s.attempts.find? id).any (·.stage.isWaiting)
  | .call id => (s.calls.find? id).any (·.stage.isWaiting)
  | .errand id place => (s.errand? id place).any (·.stage.isWaiting)
  | .pump id => (s.clients.find? id).any (·.pump = .failing)
  | .timer _ => false

def tasks (s : State) : List TaskId :=
  s.calls.entries.flatMap (fun (id, c) =>
    .call id :: (List.range c.errands.length).map (.errand id)) ++
  s.attempts.keys.map .attempt ++ s.clients.keys.map .pump ++
  s.fired.map (fun f => .timer f.1) ++ s.roster.retries.sleepers.map fun x => .timer x.id

/-- Whether no task can go forward by itself. -/
def isIdle (s : State) : Bool := s.tasks.all fun t => (s.runTask t).isNone

/-- The times at which something is due: limits of operations and sleeping timers. -/
def dueTimes (s : State) : List Nat :=
  s.tasks.filterMap s.limit? ++
    if s.isAlive then (s.roster.retries.sleepers.filter (!·.awake)).map (·.due) else []

/-- Makes a label happen. The clock moves only when no task can go forward, and never past a
time at which something is due. -/
def step? (s : State) : Label → Step
  | .start request =>
    if s.released then none
    else
      some ({ s with calls := s.calls.insert s.calls.size ⟨request, default, .entering, []⟩ }, [])
  | .run task => s.runTask task
  | .reply task reply => s.replyToTask task reply
  | .progress id stage package => do
    let a ← s.attempts.find? id
    if a.stage ≠ .launching then none
    return (s, [.announced (.serverInstalling a.key.serverId stage package) none])
  | .expire task => s.expireTask task
  | .wake id => do
    if !s.isAlive then none
    let retries ← s.roster.retries.wake? s.now id
    return ({ s with roster := { s.roster with retries } }, [])
  | .report id event => do
    let c ← s.clients.find? id
    if c.pump = .deaf then none
    return (s.updateClient id fun c => { c with inbox := c.inbox ++ [event] }, [])
  | .publish id file found =>
    some (s.updateClient id fun c => { c with diagnostics := c.diagnostics.insert file found }, [])
  | .advance time =>
    if s.now ≤ time && s.isIdle && s.dueTimes.all (time ≤ ·) then
      some ({ s with now := time }, [])
    else none
  | .cancel id => do
    let c ← s.calls.find? id
    if c.stage.isOver then none
    return (s.updateCall id fun c => { c with stage := .cancelled, errands := [] }, [])
  | .release => if s.released then none else some ({ s with released := true }, [])
  | .surround surroundings => some ({ s with surroundings }, [])

end State

end ServerFleet.Manager
