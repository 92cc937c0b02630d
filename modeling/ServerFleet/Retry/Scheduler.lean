import ServerFleet.Instance.Key
import ServerFleet.Table

/-!
Bounded retries with growing delays, one record for each instance. A record counts the retries
scheduled so far and names the timer that is pending, if any. Timers sleep on their own: one that
wakes up runs its action only if its record still names it, so a timer that was replaced or
cleared never runs its action, even when it was already awake.
-/

namespace ServerFleet

/-- The delays before the retries of an instance, in milliseconds; their number is the budget. -/
def defaultRetryDelays : List Nat := [1000, 2000, 4000, 8000, 16000]

/-- The bookkeeping of one instance. -/
structure RetryRecord where
  /-- The retries scheduled so far. -/
  attempts : Nat
  /-- The timer that is pending. -/
  timer : Option Nat
deriving DecidableEq, Inhabited

/-- A timer on its own: it sleeps until it is due, and is awake until it is unhooked. -/
structure Sleeper (α : Type u) where
  id : Nat
  key : InstanceKey
  due : Nat
  action : α
  awake : Bool

/-- The retries of all instances. -/
structure RetryScheduler (α : Type u) where
  delays : List Nat
  records : Table InstanceKey RetryRecord
  sleepers : List (Sleeper α)
  /-- The number of the next timer; numbers are never used again. -/
  nextTimer : Nat

namespace RetryScheduler

variable {α : Type u}

def create (delays : List Nat) : RetryScheduler α := ⟨delays, .empty, [], 0⟩

def maxRetries (s : RetryScheduler α) : Nat := s.delays.length

/-- The delay before the retry with a number; retries count from one. -/
def delayFor (s : RetryScheduler α) (attempt : Nat) : Option Nat :=
  if attempt = 0 then none else s.delays[attempt - 1]?

def retryCount (s : RetryScheduler α) (k : InstanceKey) : Nat :=
  ((s.records.find? k).map (·.attempts)).getD 0

def isPending (s : RetryScheduler α) (k : InstanceKey) : Bool :=
  ((s.records.find? k).bind (·.timer)).isSome

/-- Takes timers away while they sleep; one that is awake is left to find itself unhooked. -/
def abort (s : RetryScheduler α) (ids : List Nat) : RetryScheduler α :=
  { s with sleepers := s.sleepers.filter fun x => x.awake || !ids.contains x.id }

/-- Schedules the next retry of an instance in the place of a pending one, and gives its number.
When the budget is spent nothing is scheduled. -/
def schedule (s : RetryScheduler α) (now : Nat) (k : InstanceKey) (action : α) :
    RetryScheduler α × Option Nat :=
  let record := (s.records.find? k).getD ⟨0, none⟩
  match s.delays[record.attempts]? with
  | none => ({ s with records := s.records.insert k record }, none)
  | some delay =>
    let s := s.abort record.timer.toList
    let attempt := record.attempts + 1
    ({ s with
        records := s.records.insert k ⟨attempt, some s.nextTimer⟩
        sleepers := s.sleepers ++ [⟨s.nextTimer, k, now + delay, action, false⟩]
        nextTimer := s.nextTimer + 1 },
      some attempt)

def timersOf (records : Table InstanceKey RetryRecord) : List Nat :=
  records.values.filterMap (·.timer)

/-- Forgets an instance and takes its pending timer away. -/
def clear (s : RetryScheduler α) (k : InstanceKey) : RetryScheduler α :=
  let s := s.abort (timersOf (s.records.filter fun k' _ => k' == k))
  { s with records := s.records.erase k }

def recordsOf (s : RetryScheduler α) (server : String) : Table InstanceKey RetryRecord :=
  s.records.filter fun k _ => k.serverId == server

/-- Forgets every instance of a server; gives their number. -/
def clearServer (s : RetryScheduler α) (server : String) : RetryScheduler α × Nat :=
  let gone := s.recordsOf server
  let s := s.abort (timersOf gone)
  ({ s with records := s.records.filter fun k _ => !(k.serverId == server) }, gone.size)

/-- Forgets every instance. -/
def cancelAll (s : RetryScheduler α) : RetryScheduler α :=
  let s := s.abort (timersOf s.records)
  { s with records := .empty }

def wake? (s : RetryScheduler α) (now id : Nat) : Option (RetryScheduler α) :=
  if s.sleepers.any fun x => x.id == id && !x.awake && x.due ≤ now then
    some { s with sleepers := s.sleepers.map fun x =>
      if x.id == id then { x with awake := true } else x }
  else none

/-- Ends a timer that is awake. If its record still names it, the record lets go of it and its
action is to be run. -/
def unhook? (s : RetryScheduler α) (id : Nat) : Option (RetryScheduler α × Option (Sleeper α)) :=
  match s.sleepers.find? fun x => x.id == id && x.awake with
  | none => none
  | some x =>
    let s := { s with sleepers := s.sleepers.filter fun y => !(y.id == id) }
    match s.records.find? x.key with
    | some record =>
      if record.timer = some id then
        some ({ s with records := s.records.insert x.key { record with timer := none } }, some x)
      else some (s, none)
    | none => some (s, none)

/-- Wakes and ends a timer that is due, without a pause in between. -/
def fire? (s : RetryScheduler α) (now id : Nat) :
    Option (RetryScheduler α × Option (Sleeper α)) :=
  (s.wake? now id).bind (·.unhook? id)

end RetryScheduler

end ServerFleet
