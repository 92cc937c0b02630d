import ServerFleet.CommandLine.Doctor
import ServerFleet.CommandLine.Route
import ServerFleet.CommandLine.Servers
import ServerFleet.Config.Load

/-!
The program behind the command line, from arguments to output. Mistaken arguments end it with
exit code 2 before anything is read; a configuration that cannot be used, with exit code 1 before
anything is written.
-/

namespace ServerFleet.CommandLine

/-- How a run of the program ends. -/
structure Result where
  exitCode : Nat
  output : String
  errors : String

def joinLines (lines : List String) : String := String.join (lines.map (· ++ "\n"))

def Result.success (lines : List String) : Result := ⟨0, joinLines lines, ""⟩

/-- A cause below an error: the first line of its text behind a label, the others below it. -/
def causeText (label indent text : String) : String :=
  "\n" ++ label ++ ("\n" ++ indent).intercalate (text.splitOn "\n")

/-- The text of an error with its causes. A single cause has no number. -/
def errorText (message : String) (causes : List String) : String :=
  "Error: " ++ message ++
    match causes with
    | [] => ""
    | [cause] => "\n\nCaused by:" ++ causeText "    " "    " cause
    | causes => "\n\nCaused by:" ++ String.join (causes.zipIdx.map fun (cause, n) =>
        causeText s!"    {n}: " "       " cause)

def Result.failure (message : String) (causes : List String) : Result :=
  ⟨1, "", errorText message causes ++ "\n"⟩

def Action.lines (w : Workplace) (c : Config) (r : Registry) (config : Option Path) :
    Action → List String
  | .servers true => [serversJson w c r]
  | .servers false => serversTable w c r
  | .route files => files.flatMap (routeLines w c r)
  | .doctor colorless => doctorLines w c r config colorless

/-- Carries an action out. -/
def Action.run (w : Workplace) (config : Option Path) (action : Action) : Result :=
  match Config.load w.tree w.cwd w.environment config with
  | .error e => .failure e.message []
  | .ok c =>
    match Registry.ofConfig c with
    | .error e => .failure "Invalid server configuration" e.causes
    | .ok r => .success (action.lines w c r config)

/-- Runs the program. -/
def run (w : Workplace) (arguments : List String) : Result :=
  match Invocation.read? arguments with
  | none => ⟨2, "", "error: the arguments are mistaken; see --help\n"⟩
  | some (.help topic) => .success topic.lines
  | some .version => .success [programName ++ " " ++ programVersion]
  | some (.run action config) => action.run w config

end ServerFleet.CommandLine
