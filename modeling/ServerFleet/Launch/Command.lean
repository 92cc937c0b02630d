import ServerFleet.Launch.SystemError

/-!
Servers that are started by running a command, and by an install command when the program is
missing: the stages of an installation, and why a start fails. A missing program is no error: a
launch then ends without a server.
-/

namespace ServerFleet

/-- How to run a server as a program. -/
structure Command where
  /-- The program, by path or by a name looked up in the search directories. -/
  program : String
  arguments : List String
  /-- Variables added to the environment of the server. -/
  environment : List (String × String)
  /-- The command that installs the program; empty when there is none. -/
  install : List String
deriving DecidableEq, Inhabited

namespace Command

/-- Whether the program can be installed when it is missing. -/
def canInstall (c : Command) : Bool := !c.install.isEmpty

end Command

/-- How a server comes to life. -/
inductive Launcher where
  /-- As a program of its own. -/
  | command (c : Command)
  /-- Inside the process that manages it. -/
  | hosted
deriving DecidableEq, Inhabited

/-- A stage of installing a server. -/
inductive InstallStage where
  /-- Package metadata is resolved. -/
  | fetching
  /-- An archive or a package is downloaded. -/
  | downloading
  /-- The package manager runs. -/
  | installing
  /-- A downloaded archive is unpacked. -/
  | extracting
  /-- The program is in place. -/
  | complete
deriving DecidableEq, Inhabited

namespace InstallStage

def all : List InstallStage := [fetching, downloading, installing, extracting, complete]

def name : InstallStage → String
  | fetching => "fetching"
  | downloading => "downloading"
  | installing => "installing"
  | extracting => "extracting"
  | complete => "complete"

def ofName? (s : String) : Option InstallStage := all.find? (·.name = s)

end InstallStage

/-- How a receiver of installation progress is shown. -/
def progressReporterText : String := "ProgressReporter \x7b .. \x7d"

/-- A failure to start a server. -/
inductive LaunchError where
  /-- The program could not be run. -/
  | spawn (command : String) (cause : IoError)
  /-- The install command did not succeed. -/
  | install (command : String) (reason : String)
deriving DecidableEq

def LaunchError.message : LaunchError → String
  | .spawn command cause => s!"failed to spawn `{command}`: {cause.message}"
  | .install command reason => s!"install command `{command}` failed: {reason}"

end ServerFleet
