import ServerFleet.Launch.Command
import ServerFleet.Launch.SystemError
import ServerFleet.Path.Basic

/-!
Launching a command on a host. A missing program is installed when there is an install command,
and only then; one that is still missing afterwards ends the launch without a server and without
an error. The launch records what it did, so that its reports and the programs it ran can be read
off.
-/

namespace ServerFleet

/-- What a launch asks of the system it runs on. A run of the install command may change the
state of the system, and with it what can be found. -/
structure Host (σ π : Type) where
  /-- Where the program of a command lies. -/
  find? : σ → String → Option Path
  /-- Runs an install command to its end in a directory. -/
  install : σ → String → List String → Path → σ × Except IoError ExitStatus
  /-- Starts a program with the arguments and the environment of a command in a directory. -/
  start : σ → Path → Command → Path → σ × Except IoError π

/-- Something a launch does. -/
inductive LaunchAct where
  /-- It reports a stage of the installation. -/
  | report (stage : InstallStage)
  /-- It runs the install command. -/
  | runInstaller
  /-- It starts the server. -/
  | startServer
deriving DecidableEq

/-- A launch that has come to its end. -/
structure Launch (σ π : Type) where
  /-- The state of the system afterwards. -/
  state : σ
  /-- What was done, in order. -/
  acts : List LaunchAct
  /-- The running server, or none when its program is missing. -/
  outcome : Except LaunchError (Option π)

namespace Launch

def reports (l : Launch σ π) : List InstallStage :=
  l.acts.filterMap fun
    | .report stage => some stage
    | _ => none

/-- Does something before a launch. -/
def after (acts : List LaunchAct) (l : Launch σ π) : Launch σ π :=
  { l with acts := acts ++ l.acts }

end Launch

namespace Command

variable {σ π : Type}

def isInstalled (c : Command) (h : Host σ π) (s : σ) : Bool := (h.find? s c.program).isSome

/-- Starts the program of a command where it is found. -/
def start (c : Command) (h : Host σ π) (root : Path) (s : σ) : Launch σ π :=
  match h.find? s c.program with
  | none => ⟨s, [], .ok none⟩
  | some program =>
    match h.start s program c root with
    | (s, .ok p) => ⟨s, [.startServer], .ok (some p)⟩
    | (s, .error e) => ⟨s, [.startServer], .error (.spawn c.program e)⟩

/-- Runs an install command and starts the program it installed. -/
def installThenStart (c : Command) (h : Host σ π) (installer : String) (arguments : List String)
    (root : Path) (s : σ) : Launch σ π :=
  match h.install s installer arguments root with
  | (s, .error e) =>
    ⟨s, [.report .installing, .runInstaller], .error (.install installer e.message)⟩
  | (s, .ok status) =>
    if status.succeeded then
      (c.start h root s).after [.report .installing, .runInstaller, .report .complete]
    else ⟨s, [.report .installing, .runInstaller], .error (.install installer status.message)⟩

def launch (c : Command) (h : Host σ π) (root : Path) (s : σ) : Launch σ π :=
  match h.find? s c.program, c.install with
  | none, installer :: arguments => c.installThenStart h installer arguments root s
  | _, _ => c.start h root s

end Command

end ServerFleet
