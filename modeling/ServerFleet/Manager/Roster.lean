import ServerFleet.Instance.Status
import ServerFleet.Retry.Scheduler

/-!
The roster of server instances: which ones are live, which are being started and which are
broken, together with the disabled servers and the retries. Every operation here is one
indivisible step of the manager. A shutdown begins a new epoch; an attempt or a retry that was
set up in an earlier epoch leaves the roster as it is.
-/

namespace ServerFleet.Manager

/-- Identifies a client for as long as the manager lives. -/
abbrev ClientId := Nat

/-- Identifies an attempt to start an instance. -/
abbrev AttemptId := Nat

/-- Why an instance is broken. -/
inductive BrokenCause where
  /-- An attempt to start it failed. -/
  | failedAttempt
  /-- Its running client reported an error. -/
  | clientError
deriving DecidableEq

/-- What a retry is to do when its delay is over. -/
structure RetryPlan where
  key : InstanceKey
  /-- The epoch in which it was set up. -/
  epoch : Nat

/-- The instances the manager knows. -/
structure Roster where
  /-- Instances whose handshake is done, with their clients. -/
  live : Table InstanceKey ClientId
  /-- Instances that are being started, with the attempt that starts them. -/
  starting : Table InstanceKey AttemptId
  /-- Instances that routing leaves out. -/
  broken : Table InstanceKey BrokenCause
  /-- The ids of the servers that routing leaves out. -/
  disabled : List String
  epoch : Nat
  retries : RetryScheduler RetryPlan

/-- How an attempt to start an instance ended. -/
inductive Outcome where
  /-- The handshake with a client is done. -/
  | ready (client : ClientId)
  /-- The program of the server is missing. -/
  | unavailable
  | failed
deriving DecidableEq

/-- What routing finds for an instance. -/
inductive Admission where
  /-- The instance is left out. -/
  | refused
  | live (client : ClientId)
  /-- An attempt is under way already. -/
  | joined (attempt : AttemptId)
  /-- A new attempt was entered and is to be started. -/
  | reserved (attempt : AttemptId)
deriving DecidableEq

/-- What became of an attempt that was settled. -/
structure Settlement where
  /-- The client that those who wait for the attempt are given. -/
  published : Option ClientId
  /-- Whether the client went live. -/
  started : Bool
  /-- A client that came too late and is to be shut down. -/
  discarded : Option ClientId
  /-- The number of the retry that was scheduled. -/
  retrying : Option Nat
deriving DecidableEq

namespace Roster

def create (delays : List Nat) (disabled : List String) : Roster where
  live := .empty
  starting := .empty
  broken := .empty
  disabled
  epoch := 0
  retries := .create delays

/-- Whether routing leaves a server out. -/
def isDisabled (r : Roster) (server : String) : Bool := r.disabled.contains server

/-- Looks an instance up for routing and enters a new attempt if there is nothing to join. -/
def enlist (r : Roster) (k : InstanceKey) (fresh : AttemptId) : Roster × Admission :=
  if r.isDisabled k.serverId || r.broken.contains k then (r, .refused)
  else
    match r.live.find? k, r.starting.find? k with
    | some client, _ => (r, .live client)
    | none, some attempt => (r, .joined attempt)
    | none, none => ({ r with starting := r.starting.insert k fresh }, .reserved fresh)

/-- Marks an instance broken after a failed attempt and schedules a retry, unless its server is
disabled; gives the number of the retry. -/
def fail (r : Roster) (now : Nat) (k : InstanceKey) : Roster × Option Nat :=
  let r := { r with broken := r.broken.insert k .failedAttempt }
  if r.isDisabled k.serverId then (r, none)
  else
    let (retries, attempt) := r.retries.schedule now k ⟨k, r.epoch⟩
    ({ r with retries }, attempt)

/-- Enters the outcome of an attempt of the current epoch. -/
def settleCurrent (r : Roster) (now : Nat) (k : InstanceKey) (o : Outcome) :
    Roster × Settlement :=
  let r := { r with starting := r.starting.erase k }
  match o with
  | .ready client =>
    if r.isDisabled k.serverId then (r, ⟨none, false, some client, none⟩)
    else
      ({ r with
          live := r.live.insert k client
          broken := r.broken.erase k
          retries := r.retries.clear k },
        ⟨some client, true, none, none⟩)
  | .unavailable =>
    ({ r with broken := r.broken.erase k, retries := r.retries.clear k },
      ⟨none, false, none, none⟩)
  | .failed =>
    let (r, attempt) := r.fail now k
    (r, ⟨none, false, none, attempt⟩)

/-- What is left to do about an attempt of an earlier epoch. -/
def Outcome.stale : Outcome → Settlement
  | .ready client => ⟨none, false, some client, none⟩
  | _ => ⟨none, false, none, none⟩

/-- Enters the outcome of an attempt that was reserved in some epoch. -/
def settle (r : Roster) (now : Nat) (k : InstanceKey) (epoch : Nat) (o : Outcome) :
    Roster × Settlement :=
  if r.epoch = epoch then r.settleCurrent now k o else (r, Outcome.stale o)

/-- Enters the attempt of a retry, unless the retry is out of date or no longer needed. -/
def retry (r : Roster) (plan : RetryPlan) (fresh : AttemptId) : Roster × Bool :=
  if r.epoch ≠ plan.epoch || r.isDisabled plan.key.serverId || r.live.contains plan.key ||
      r.starting.contains plan.key then (r, false)
  else ({ r with starting := r.starting.insert plan.key fresh }, true)

/-- Whether a client is the one that is live under a key. -/
def isRegistered (r : Roster) (k : InstanceKey) (client : ClientId) : Bool :=
  r.live.find? k == some client

/-- Removes a client that reported its end; a client that is not registered changes nothing. -/
def closeClient (r : Roster) (k : InstanceKey) (client : ClientId) : Roster × Bool :=
  if r.isRegistered k client then ({ r with live := r.live.erase k }, true) else (r, false)

/-- Removes a client that reported an error and marks its instance broken; a client that is not
registered changes nothing. -/
def breakClient (r : Roster) (k : InstanceKey) (client : ClientId) : Roster × Bool :=
  if r.isRegistered k client then
    ({ r with live := r.live.erase k, broken := r.broken.insert k .clientError }, true)
  else (r, false)

def liveOf (r : Roster) (server : String) : List (InstanceKey × ClientId) :=
  r.live.entries.filter fun e => e.1.serverId == server

/-- Enables a server; tells whether it was disabled. -/
def enable (r : Roster) (server : String) : Roster × Bool :=
  ({ r with disabled := r.disabled.filter (· ≠ server) }, r.isDisabled server)

/-- Disables a server and removes its live instances; tells whether it was enabled, and which
instances are to be shut down. -/
def disable (r : Roster) (server : String) : Roster × Bool × List (InstanceKey × ClientId) :=
  ({ r with
      disabled := if r.isDisabled server then r.disabled else r.disabled ++ [server]
      live := r.live.filter fun k _ => !(k.serverId == server) },
    !r.isDisabled server, r.liveOf server)

/-- Forgets that instances of a server are broken; gives their number. -/
def forgetBroken (r : Roster) (server : String) : Roster × Nat :=
  let broken := r.broken.filter fun k _ => !(k.serverId == server)
  ({ r with broken }, r.broken.size - broken.size)

def forgetRetries (r : Roster) (server : String) : Roster :=
  { r with retries := (r.retries.clearServer server).1 }

/-- Begins a new epoch without instances and retries; gives the clients that are to be shut
down. -/
def shutDown (r : Roster) : Roster × List (InstanceKey × ClientId) :=
  ({ r with
      live := .empty
      starting := .empty
      broken := .empty
      epoch := r.epoch + 1
      retries := r.retries.cancelAll },
    r.live.entries)

def sortByKey {α : Type} (entries : List (InstanceKey × α)) : List (InstanceKey × α) :=
  entries.mergeSort fun a b => (a.1.compare b.1).isLE

/-- The live clients in the order of their instances. -/
def liveClients (r : Roster) : List (InstanceKey × ClientId) := sortByKey r.live.entries

/-- The known instances with their states: an instance that is being started counts as starting,
whatever else it is. -/
def states (r : Roster) : Table InstanceKey InstanceState :=
  let running := r.live.entries.foldl (fun t e => t.insert e.1 InstanceState.running) .empty
  let known := r.broken.entries.foldl
    (fun t e => if t.contains e.1 then t else t.insert e.1 .broken) running
  r.starting.entries.foldl (fun t e => t.insert e.1 .spawning) known

/-- The instances of a server in the order of their roots. -/
def instances (r : Roster) (server : String) : List InstanceStatus :=
  ((sortByKey r.states.entries).filter fun e => e.1.serverId == server).map fun e =>
    ⟨e.1.root, e.2, r.retries.retryCount e.1⟩

end Roster

end ServerFleet.Manager
