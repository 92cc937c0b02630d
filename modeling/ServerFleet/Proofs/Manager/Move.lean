import ServerFleet.Manager.Step
import ServerFleet.Proofs.Retry.Records

/-!
Everything that a step of the manager can do, as one relation. Each constructor of `State.Move`
names a kind of step with the parts of the state it changes. Proofs about steps go by cases on
this relation and never open `step?`.
-/

namespace ServerFleet.Manager

/-- The steps of an attempt that change nothing but its stage. -/
inductive Attempt.Goes (id : AttemptId) (a : Attempt) :
    Label → AttemptStage → List Effect → Prop
  | launch (h : a.stage = .reserved) :
      Goes id a (.run (.attempt id)) .launching [.began (.attempt id) .launch]
  | connect {process : Bool} (h : a.stage = .launching) :
      Goes id a (.reply (.attempt id) (.launched process)) .connecting
        [.began (.attempt id) (.connect process)]
  | missing (h : a.stage = .launching) :
      Goes id a (.reply (.attempt id) .missing) (.concluded .unavailable) []
  | launchFailed (h : a.stage = .launching) :
      Goes id a (.reply (.attempt id) .failed) (.concluded .failed) []
  | connectFailed (h : a.stage = .connecting) :
      Goes id a (.reply (.attempt id) .failed) (.concluded .failed) []
  | ready {client : ClientId} {limit : Option Nat} (h : a.stage = .handshaking client limit) :
      Goes id a (.reply (.attempt id) (.client .done)) (.concluded (.ready client)) []
  | refuse {client : ClientId} {limit : Option Nat} {reply : ClientReply}
      (h : a.stage = .handshaking client limit) (hr : reply ≠ .done) :
      Goes id a (.reply (.attempt id) (.client reply)) (.abandoning client)
        [.began (.attempt id) (.client client .shutdown)]
  | expire {client : ClientId} {limit : Option Nat} (h : a.stage = .handshaking client limit) :
      Goes id a (.expire (.attempt id)) (.abandoning client)
        [.began (.attempt id) (.client client .shutdown)]
  | abandoned {client : ClientId} {reply : ClientReply} (h : a.stage = .abandoning client) :
      Goes id a (.reply (.attempt id) (.client reply)) (.concluded .failed) []
  | announce {client : ClientId} (h : a.stage = .announcing client) :
      Goes id a (.run (.attempt id)) .finished
        [.announced (.serverStarted a.key.serverId a.key.root) (some client)]
  | discarded {client : ClientId} {reply : ClientReply} (h : a.stage = .discarding client) :
      Goes id a (.reply (.attempt id) (.client reply)) .finished []

/-- The steps of a client that change nothing but its record. -/
inductive ClientRecord.Goes (id : ClientId) (c : ClientRecord) :
    Label → ClientRecord → List Effect → Prop
  | report {event : ClientEvent} (h : c.pump ≠ .deaf) :
      Goes id c (.report id event) { c with inbox := c.inbox ++ [event] } []
  | publish {file : Path} {found : List Diagnostic} :
      Goes id c (.publish id file found)
        { c with diagnostics := c.diagnostics.insert file found } []
  | forward {file : Path} {found : List Diagnostic} {rest : List ClientEvent}
      (h : c.pump = .idle) (hi : c.inbox = .diagnostics file found :: rest) :
      Goes id c (.run (.pump id)) { c with inbox := rest }
        [.announced (.diagnostics c.key.serverId file found) none]
  | failed {reply : ClientReply} (h : c.pump = .failing) :
      Goes id c (.reply (.pump id) (.client reply)) { c with pump := .announcing } []
  | announce (h : c.pump = .announcing) :
      Goes id c (.run (.pump id)) { c with pump := .idle }
        [.announced (.serverClosed c.key.serverId c.key.root) (some id)]

/-- The steps of an errand. -/
inductive Errand.Goes (call : CallId) (place : Nat) (e : Errand) :
    Label → ErrandStage → List Effect → Prop
  | begin {now : Nat} (h : e.stage = .fresh) :
      Goes call place e (.run (.errand call place))
        (.underway ((State.errandTimeout e.call).map (now + ·)))
        [.began (.errand call place) (.client e.client e.call)]
  | reply {limit : Option Nat} {reply : ClientReply} (h : e.stage = .underway limit) :
      Goes call place e (.reply (.errand call place) (.client reply)) .finished []
  | expire {limit : Nat} (h : e.stage = .underway (some limit)) :
      Goes call place e (.expire (.errand call place)) .finished []

namespace Call

def finish (c : Call) (answer : Answer) : Call :=
  { c with stage := .finished answer, errands := [] }

/-- A call that waits for errands before it gives its answer. -/
def await (c : Call) (errands : List Errand) (answer : Answer) : Call :=
  { c with stage := .joining answer, errands }

/-- A call that has changed the status of a server and is to shut the removed clients down. A
status that was as wished before is not announced. -/
def dismiss (c : Call) (server : String) (enabled changed : Bool)
    (removed : List (InstanceKey × ClientId)) : Call :=
  if changed then { c with stage := .announcing server enabled removed }
  else c.await (State.shutdownErrands removed) (.flag true)

end Call

/-- What is announced when notice is taken of an errand that has ended: the end of a client that
was shut down. -/
def Errand.farewell (e : Errand) : List Effect :=
  match e.call with
  | .shutdown => [.announced (.serverClosed e.key.serverId e.key.root) (some e.client)]
  | _ => []

/-- What entering the outcome of an attempt makes of the roster. -/
inductive Roster.Settles (r : Roster) (now : Nat) (k : InstanceKey) (epoch : Nat) :
    Outcome → Roster → Settlement → Prop
  | stale {o : Outcome} (h : r.epoch ≠ epoch) : Settles r now k epoch o r (Roster.Outcome.stale o)
  | discarded {client : ClientId} (h : r.epoch = epoch) (hd : r.isDisabled k.serverId = true) :
      Settles r now k epoch (.ready client) { r with starting := r.starting.erase k }
        ⟨none, false, some client, none⟩
  | started {client : ClientId} (h : r.epoch = epoch) (hd : r.isDisabled k.serverId = false) :
      Settles r now k epoch (.ready client)
        { r with
          starting := r.starting.erase k
          live := r.live.insert k client
          broken := r.broken.erase k
          retries := r.retries.clear k }
        ⟨some client, true, none, none⟩
  | unavailable (h : r.epoch = epoch) :
      Settles r now k epoch .unavailable
        { r with
          starting := r.starting.erase k
          broken := r.broken.erase k
          retries := r.retries.clear k }
        ⟨none, false, none, none⟩
  | dropped (h : r.epoch = epoch) (hd : r.isDisabled k.serverId = true) :
      Settles r now k epoch .failed
        { r with
          starting := r.starting.erase k
          broken := r.broken.insert k .failedAttempt }
        ⟨none, false, none, none⟩
  | failed (h : r.epoch = epoch) (hd : r.isDisabled k.serverId = false) :
      Settles r now k epoch .failed
        { r with
          starting := r.starting.erase k
          broken := r.broken.insert k .failedAttempt
          retries := (r.retries.schedule now k ⟨k, r.epoch⟩).1 }
        ⟨none, false, none, (r.retries.schedule now k ⟨k, r.epoch⟩).2⟩

/-- How an attempt goes on once its outcome is entered. -/
def Settlement.stage (x : Settlement) : AttemptStage :=
  match x.started, x.published, x.discarded with
  | true, some client, _ => .announcing client
  | _, _, some client => .discarding client
  | _, _, none => .finished

/-- What is seen when the outcome of an attempt is entered. -/
def Settlement.effects (x : Settlement) (id : AttemptId) (k : InstanceKey) : List Effect :=
  x.retrying.toList.map (fun n => Effect.announced (.serverRetrying k.serverId k.root n) none) ++
    match x.stage with
    | .discarding client => [.began (.attempt id) (.client client .shutdown)]
    | _ => []

namespace State

/-- The steps of a call that change nothing but the call. -/
inductive CallGoes (s : State) (id : CallId) (c : Call) : Label → Call → List Effect → Prop
  | answer {answer : Answer} (h : c.stage = .entering ∧ c.request ≠ .shutdown ∨
        (∃ found, c.stage = .routing [] found) ∨ ∃ replies, c.stage = .visiting [] replies) :
      CallGoes s id c (.run (.call id)) (c.finish answer) [.answered id answer]
  | route {file : Path} (h : c.stage = .entering) (hf : c.request.routed? = some file) :
      CallGoes s id c (.run (.call id))
        { c with
          file := s.absolute file
          stage := .routing (s.settings.registry.forFile (s.absolute file)) [] } []
  | skip {d : ServerDefinition} {left : List ServerDefinition} {found : List ClientId}
      (h : c.stage = .routing (d :: left) found) :
      CallGoes s id c (.run (.call id)) { c with stage := .routing left found } []
  | detect {d : ServerDefinition} {left : List ServerDefinition} {found : List ClientId}
      {root : Path} (h : c.stage = .routing (d :: left) found)
      (hd : s.roster.isDisabled d.id = false) :
      CallGoes s id c (.run (.call id)) { c with stage := .admitting ⟨d.id, root⟩ left found } []
  | refuse {k : InstanceKey} {left : List ServerDefinition} {found : List ClientId}
      (h : c.stage = .admitting k left found)
      (hk : (s.roster.isDisabled k.serverId || s.roster.broken.contains k) = true) :
      CallGoes s id c (.run (.call id)) { c with stage := .routing left found } []
  | find {k : InstanceKey} {left : List ServerDefinition} {found : List ClientId}
      {client : ClientId} (h : c.stage = .admitting k left found)
      (hk : s.roster.live.find? k = some client) :
      CallGoes s id c (.run (.call id)) { c with stage := .routing left (found ++ [client]) } []
  | join {k : InstanceKey} {left : List ServerDefinition} {found : List ClientId}
      {attempt : AttemptId} (h : c.stage = .admitting k left found)
      (hk : s.roster.starting.find? k = some attempt) :
      CallGoes s id c (.run (.call id)) { c with stage := .joined attempt left found } []
  | obtain {attempt : AttemptId} {left : List ServerDefinition} {found : List ClientId}
      {a : Attempt} {result : Option ClientId} (h : c.stage = .joined attempt left found)
      (ha : s.attempts.find? attempt = some a) (hp : a.published = some result) :
      CallGoes s id c (.run (.call id))
        { c with stage := .routing left (found ++ result.toList) } []
  | visit {found : List ClientId} (h : c.stage = .routing [] found) :
      CallGoes s id c (.run (.call id)) { c with stage := .visiting found [] } []
  | ask {client : ClientId} {left : List ClientId} {replies : List (ClientId × ClientReply)}
      {file : Path} {call : ClientCall} (h : c.stage = .visiting (client :: left) replies)
      (hr : c.request.clientCall? file = some call) :
      CallGoes s id c (.run (.call id)) { c with stage := .contacting client left replies }
        [.began (.call id) (.client client call)]
  | reply {client : ClientId} {left left' : List ClientId}
      {replies : List (ClientId × ClientReply)} {r : ClientReply}
      (h : c.stage = .contacting client left replies) :
      CallGoes s id c (.reply (.call id) (.client r))
        { c with stage := .visiting left' (replies ++ [(client, r)]) } []
  | await {file : Path} {clients : List ClientId} {replies : List (ClientId × ClientReply)}
      {answer : Answer} (h : c.stage = .visiting [] replies) :
      CallGoes s id c (.run (.call id)) (c.await (s.awaitErrands file clients) answer) []
  | announce {server : String} {enabled : Bool} {removed : List (InstanceKey × ClientId)}
      (h : c.stage = .announcing server enabled removed) :
      CallGoes s id c (.run (.call id)) (c.await (shutdownErrands removed) (.flag true))
        [.announced (.serverStatusChanged server enabled) none]
  | collect {answer : Answer} {e : Errand} {errands : List Errand}
      (h : c.stage = .joining answer) (he : Errand.collect c.errands = some (e, errands)) :
      CallGoes s id c (.run (.call id)) { c with errands } e.farewell
  | finish {answer : Answer} (h : c.stage = .joining answer)
      (hc : ∀ e ∈ c.errands, e.stage = .collected) :
      CallGoes s id c (.run (.call id)) (c.finish answer) [.answered id answer]

/-- The steps of a manager. -/
inductive Move (s : State) : Label → State → List Effect → Prop
  | start {request : Request} (h : s.released = false) :
      Move s (.start request)
        { s with calls := s.calls.insert s.calls.size ⟨request, default, .entering, []⟩ } []
  | cancel {id : CallId} {c : Call} (hc : s.calls.find? id = some c)
      (h : c.stage.isOver = false) :
      Move s (.cancel id)
        { s with calls := s.calls.insert id { c with stage := .cancelled, errands := [] } } []
  | advance {time : Nat} (h : s.now ≤ time) : Move s (.advance time) { s with now := time } []
  | release : Move s .release { s with released := true } []
  | surround {surroundings : Surroundings} :
      Move s (.surround surroundings) { s with surroundings } []
  | progress {id : AttemptId} {a : Attempt} {stage : InstallStage} {package : String}
      (ha : s.attempts.find? id = some a) (h : a.stage = .launching) :
      Move s (.progress id stage package) s
        [.announced (.serverInstalling a.key.serverId stage package) none]
  | unheard {id : ClientId} {file : Path} {found : List Diagnostic}
      (hc : s.clients.find? id = none) : Move s (.publish id file found) s []
  | attempt {id : AttemptId} {a : Attempt} {l : Label} {stage : AttemptStage}
      {effects : List Effect} (ha : s.attempts.find? id = some a) (h : a.Goes id l stage effects) :
      Move s l { s with attempts := s.attempts.insert id { a with stage } } effects
  | connected {id : AttemptId} {a : Attempt} {number : Nat} {limit : Option Nat}
      (ha : s.attempts.find? id = some a) (h : a.stage = .connecting) :
      Move s (.reply (.attempt id) .connected)
        { s with
          clients := s.clients.insert s.clients.size ⟨a.key, id, number, [], .idle, .empty⟩
          attempts := s.attempts.insert id
            { a with stage := .handshaking s.clients.size limit } }
        [.began (.attempt id) (.client s.clients.size .handshake)]
  | settle {id : AttemptId} {a : Attempt} {outcome : Outcome} {roster : Roster}
      {settlement : Settlement} (ha : s.attempts.find? id = some a)
      (h : a.stage = .concluded outcome)
      (hr : s.roster.Settles s.now a.key a.epoch outcome roster settlement) :
      Move s (.run (.attempt id))
        { s with
          roster
          attempts := s.attempts.insert id
            { a with stage := settlement.stage, published := some settlement.published } }
        (settlement.effects id a.key)
  | call {id : CallId} {c c' : Call} {l : Label} {effects : List Effect}
      (hc : s.calls.find? id = some c) (h : s.CallGoes id c l c' effects) :
      Move s l { s with calls := s.calls.insert id c' } effects
  | errand {id : CallId} {place : Nat} {c : Call} {e : Errand} {l : Label} {stage : ErrandStage}
      {effects : List Effect} (hc : s.calls.find? id = some c) (h : c.stage.isOver = false)
      (he : c.errands[place]? = some e) (hg : e.Goes id place l stage effects) :
      Move s l
        { s with
          calls := s.calls.insert id
            { c with errands := c.errands.modify place fun e => { e with stage } } } effects
  | reserve {id : CallId} {c : Call} {k : InstanceKey} {left : List ServerDefinition}
      {found : List ClientId} (hc : s.calls.find? id = some c)
      (h : c.stage = .admitting k left found)
      (hk : (s.roster.isDisabled k.serverId || s.roster.broken.contains k) = false)
      (hl : s.roster.live.find? k = none) (hs : s.roster.starting.find? k = none) :
      Move s (.run (.call id))
        { s with
          roster := { s.roster with starting := s.roster.starting.insert k s.attempts.size }
          attempts := s.attempts.insert s.attempts.size
            ⟨k, s.roster.epoch, false, .reserved, none⟩
          calls := s.calls.insert id
            { c with stage := .joined s.attempts.size left found } } []
  | enable {id : CallId} {c : Call} {server : String} (hc : s.calls.find? id = some c)
      (h : c.stage = .entering) (hr : c.request = .setServerEnabled server true) :
      Move s (.run (.call id))
        { s with
          roster := (s.roster.enable server).1
          calls := s.calls.insert id (c.dismiss server true (s.roster.enable server).2 []) } []
  | disable {id : CallId} {c : Call} {server : String} (hc : s.calls.find? id = some c)
      (h : c.stage = .entering) (hr : c.request = .setServerEnabled server false) :
      Move s (.run (.call id))
        { s with
          roster := (s.roster.disable server).1
          calls := s.calls.insert id (c.dismiss server false (s.roster.disable server).2.1
            (s.roster.liveOf server)) } []
  | forgetBroken {id : CallId} {c : Call} {server : String} (hc : s.calls.find? id = some c)
      (h : c.stage = .entering) (hr : c.request = .resetServer server) :
      Move s (.run (.call id))
        { s with
          roster := (s.roster.forgetBroken server).1
          calls := s.calls.insert id
            { c with stage := .forgetting server (s.roster.forgetBroken server).2 } } []
  | forgetRetries {id : CallId} {c : Call} {server : String} {cleared : Nat}
      (hc : s.calls.find? id = some c) (h : c.stage = .forgetting server cleared) :
      Move s (.run (.call id))
        { s with
          roster := s.roster.forgetRetries server
          calls := s.calls.insert id (c.finish (.count cleared)) } [.answered id (.count cleared)]
  | shutDown {id : CallId} {c : Call} (hc : s.calls.find? id = some c) (h : c.stage = .entering)
      (hr : c.request = .shutdown) :
      Move s (.run (.call id))
        { s with
          roster := s.roster.shutDown.1
          calls := s.calls.insert id (c.await (shutdownErrands s.roster.live.entries) .done) } []
  | client {id : ClientId} {c c' : ClientRecord} {l : Label} {effects : List Effect}
      (hc : s.clients.find? id = some c) (h : c.Goes id l c' effects) :
      Move s l { s with clients := s.clients.insert id c' } effects
  | deafen {id : ClientId} {c : ClientRecord} (hc : s.clients.find? id = some c)
      (hp : c.pump = .idle) (h : s.isAlive = false) :
      Move s (.run (.pump id))
        { s with clients := s.clients.insert id { c with inbox := [], pump := .deaf } } []
  | ignore {id : ClientId} {c : ClientRecord} {event : ClientEvent} {rest : List ClientEvent}
      (hc : s.clients.find? id = some c) (hp : c.pump = .idle) (hi : c.inbox = event :: rest)
      (h : s.roster.isRegistered c.key id = false) :
      Move s (.run (.pump id)) { s with clients := s.clients.insert id { c with inbox := rest } } []
  | close {id : ClientId} {c : ClientRecord} {rest : List ClientEvent}
      (hc : s.clients.find? id = some c) (hp : c.pump = .idle) (hi : c.inbox = .closed :: rest)
      (h : s.roster.isRegistered c.key id = true) (ha : s.isAlive = true) :
      Move s (.run (.pump id))
        { s with
          roster := { s.roster with live := s.roster.live.erase c.key }
          clients := s.clients.insert id { c with inbox := rest, pump := .announcing } } []
  | fault {id : ClientId} {c : ClientRecord} {rest : List ClientEvent}
      (hc : s.clients.find? id = some c) (hp : c.pump = .idle) (hi : c.inbox = .error :: rest)
      (h : s.roster.isRegistered c.key id = true) (ha : s.isAlive = true) :
      Move s (.run (.pump id))
        { s with
          roster := { s.roster with
            live := s.roster.live.erase c.key
            broken := s.roster.broken.insert c.key .clientError }
          clients := s.clients.insert id { c with inbox := rest, pump := .failing } }
        [.began (.pump id) (.client id .shutdown)]
  | drop {timer : Nat} {plan : RetryPlan} (hf : (timer, plan) ∈ s.fired)
      (h : s.isAlive = true → s.roster.epoch ≠ plan.epoch ∨
        s.roster.isDisabled plan.key.serverId = true ∨ s.roster.live.contains plan.key = true ∨
          s.roster.starting.contains plan.key = true) :
      Move s (.run (.timer timer)) { s with fired := s.fired.filter (·.1 ≠ timer) } []
  | retry {timer : Nat} {plan : RetryPlan} (hf : (timer, plan) ∈ s.fired)
      (he : s.roster.epoch = plan.epoch) (hd : s.roster.isDisabled plan.key.serverId = false)
      (hl : s.roster.live.contains plan.key = false)
      (hs : s.roster.starting.contains plan.key = false) (ha : s.isAlive = true) :
      Move s (.run (.timer timer))
        { s with
          roster := { s.roster with
            starting := s.roster.starting.insert plan.key s.attempts.size }
          attempts := s.attempts.insert s.attempts.size
            ⟨plan.key, s.roster.epoch, true, .reserved, none⟩
          fired := s.fired.filter (·.1 ≠ timer) } []
  | unhook {timer : Nat} {retries : RetryScheduler RetryPlan} {sleeper : Option (Sleeper RetryPlan)}
      (h : s.roster.retries.unhook? timer = some (retries, sleeper)) :
      Move s (.run (.timer timer))
        { s with
          roster := { s.roster with retries }
          fired := s.fired ++ sleeper.toList.map fun x => (timer, x.action) } []
  | wake {timer : Nat} {retries : RetryScheduler RetryPlan}
      (h : s.roster.retries.wake? s.now timer = some retries) :
      Move s (.wake timer) { s with roster := { s.roster with retries } } []

end State

end ServerFleet.Manager
