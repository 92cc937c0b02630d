import ServerFleet.Retry.Scheduler
import ServerFleet.Json.Basic

/-!
Retry actions written as short scripts, played on a clock that only moves when it is told to.
Everything that is due runs at its own time; timers and waits that are due together run in the
order in which they were set up.
-/

namespace ServerFleet.Retry

/-- One entry of a scripted action. -/
inductive Command where
  /-- Schedules the same action for the same instance. -/
  | again
  /-- Forgets the instance. -/
  | clear
  /-- Forgets every instance of the server. -/
  | clearServer
  /-- Forgets every instance. -/
  | cancelAll
  /-- Notes the bookkeeping of the instance. -/
  | look
  /-- Waits for a number of milliseconds. -/
  | wait (ms : Nat)
deriving DecidableEq

/-- A scripted action. -/
structure Script where
  /-- What the action notes when it starts. -/
  label : Json
  commands : List Command

/-- What an action notes. -/
inductive Note where
  /-- The action started. -/
  | started (label : Json)
  | scheduled (attempt : Option Nat)
  | cleared (count : Nat)
  | looked (count : Nat) (pending : Bool)

/-- A note with the time and the instance it was made for. -/
structure Fired where
  time : Nat
  key : InstanceKey
  note : Note

/-- An action that waits before its next entries. -/
structure Waiting where
  key : InstanceKey
  script : Script
  left : List Command
  due : Nat
  /-- The place in the order in which timers and waits were set up. -/
  order : Nat

/-- A scheduler under a clock, with the actions at work. -/
structure Playback where
  now : Nat
  /-- The scheduler, until it is dropped. Each timer carries its place in the order. -/
  scheduler : Option (RetryScheduler (Script × Nat))
  waiting : List Waiting
  order : Nat
  /-- The notes, latest first. -/
  notes : List Fired

namespace Playback

def create (delays : List Nat) : Playback := ⟨0, some (.create delays), [], 0, []⟩

def note (p : Playback) (k : InstanceKey) (n : Note) : Playback :=
  { p with notes := ⟨p.now, k, n⟩ :: p.notes }

def schedule (p : Playback) (k : InstanceKey) (script : Script) : Playback × Option Nat :=
  match p.scheduler with
  | none => (p, none)
  | some s =>
    let (s, attempt) := s.schedule p.now k (script, p.order)
    ({ p with scheduler := some s, order := p.order + 1 }, attempt)

def update (p : Playback) (f : RetryScheduler (Script × Nat) → RetryScheduler (Script × Nat)) :
    Playback :=
  { p with scheduler := p.scheduler.map f }

/-- Runs the entries of an action up to its end or its next wait. -/
def runCommands (p : Playback) (k : InstanceKey) (script : Script) : List Command → Playback
  | [] => p
  | c :: rest =>
    match p.scheduler with
    | none => p
    | some s =>
      match c with
      | .again =>
        let (p, attempt) := p.schedule k script
        (p.note k (.scheduled attempt)).runCommands k script rest
      | .clear => (p.update (·.clear k)).runCommands k script rest
      | .clearServer =>
        let (s, count) := s.clearServer k.serverId
        (Playback.note { p with scheduler := some s } k (.cleared count)).runCommands k script rest
      | .cancelAll => (p.update (·.cancelAll)).runCommands k script rest
      | .look => (p.note k (.looked (s.retryCount k) (s.isPending k))).runCommands k script rest
      | .wait ms =>
        { p with
          waiting := p.waiting ++ [⟨k, script, rest, p.now + ms, p.order⟩]
          order := p.order + 1 }

/-- What is due next: a timer of the scheduler or a wait. -/
inductive Next where
  | timer (id due order : Nat)
  | wait (w : Waiting)

def Next.due : Next → Nat
  | timer _ due _ => due
  | wait w => w.due

def Next.order : Next → Nat
  | timer _ _ order => order
  | wait w => w.order

def candidates (p : Playback) : List Next :=
  (match p.scheduler with
    | some s => s.sleepers.map fun x => .timer x.id x.due x.action.2
    | none => []) ++ p.waiting.map .wait

/-- What is due first; of several the one set up first. -/
def next? (p : Playback) : Option Next :=
  p.candidates.foldl (fun best n =>
    match best with
    | none => some n
    | some b =>
      if n.due < b.due || (n.due == b.due && n.order < b.order) then some n else some b) none

/-- Runs what is due next, at its own time. -/
def runNext (p : Playback) (n : Next) : Playback :=
  let p := { p with now := max p.now n.due }
  match n with
  | .timer id _ _ =>
    match p.scheduler.bind (·.fire? p.now id) with
    | some (s, some x) =>
      let p := { p with scheduler := some s }
      (p.note x.key (.started x.action.1.label)).runCommands x.key x.action.1 x.action.1.commands
    | some (s, none) => { p with scheduler := some s }
    | none => p
  | .wait w =>
    let p := { p with waiting := p.waiting.filter fun v => v.order != w.order }
    p.runCommands w.key w.script w.left

/-- Runs everything that is due up to a time, at most `fuel` timers and waits. -/
def runUntil (limit : Nat) : Nat → Playback → Playback
  | 0, p => p
  | fuel + 1, p =>
    match p.next? with
    | some n => if n.due ≤ limit then runUntil limit fuel (p.runNext n) else p
    | none => p

def roundLimit : Nat := 100000

def settle (p : Playback) : Playback := runUntil p.now roundLimit p

/-- Moves the clock, running what comes due on the way. -/
def sleep (p : Playback) (ms : Nat) : Playback :=
  let goal := p.now + ms
  { runUntil goal roundLimit p with now := goal }

/-- Drops the scheduler: its timers never fire, and actions stop at their next entry. -/
def drop (p : Playback) : Playback := { p with scheduler := none }

/-- Takes the notes made since they were taken last, in order of time and of the texts of their
keys. -/
def takeNotes (p : Playback) : Playback × List Fired :=
  let sorted := p.notes.reverse.mergeSort fun a b =>
    ((Ord.compare a.time b.time).then (compareText a.key.display b.key.display)).isLE
  ({ p with notes := [] }, sorted)

end Playback

end ServerFleet.Retry
