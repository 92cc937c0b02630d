import ServerFleet.Path.Basic

/-!
The arguments of the command line: which command is asked for, with its options and files.
Reading stops at the first argument that decides, be it a request for help or a mistake.
-/

namespace ServerFleet.CommandLine

/-- What the program can be asked to do. -/
inductive Action where
  /-- List the registered servers, as a table or as JSON. -/
  | servers (json : Bool)
  /-- Show where files are routed. -/
  | route (files : List Path)
  /-- Check the servers for the working directory. -/
  | doctor (colorless : Bool)
deriving DecidableEq

/-- What help is about. -/
inductive Topic where
  | program
  | servers
  | route
  | doctor
  | help
deriving DecidableEq

/-- What the arguments ask for. -/
inductive Invocation where
  | help (topic : Topic)
  | version
  /-- An action, with the configuration file that is asked for. -/
  | run (action : Action) (config : Option Path)
deriving DecidableEq

def commands : List (String × Topic) :=
  [("servers", .servers), ("route", .route), ("doctor", .doctor), ("help", .help)]

/-- Whether an argument is read as an option: it starts with a dash and is more than that. -/
def isOption (a : String) : Bool := a.startsWith "-" && a != "-"

/-- The value of an option, which may neither be empty nor look like an option. -/
def optionValue? (a : String) : Option Path :=
  if a = "" || isOption a then none else some (.ofString a)

/-- What an argument in the place of an option means. -/
inductive Switch where
  | help
  | version
  /-- The configuration file, given behind `=`, or as the next argument. -/
  | config (value : Option String)
  | json
  | colorless
deriving DecidableEq

/-- The option an argument stands for. -/
def Switch.of? (a : String) : Option Switch :=
  match a with
  | "--help" => some .help
  | "--version" => some .version
  | "--config" => some (.config none)
  | "--json" => some .json
  | "--nocolor" => some .colorless
  | a =>
    match a.toList with
    | '-' :: 'h' :: _ => some .help
    | '-' :: 'V' :: _ => some .version
    | '-' :: '-' :: 'c' :: 'o' :: 'n' :: 'f' :: 'i' :: 'g' :: '=' :: value =>
      some (.config (some (String.ofList value)))
    | _ => none

/-- The value of the option for the configuration file, and the arguments behind it. -/
def configValue? (value : Option String) (rest : List String) : Option (Path × List String) :=
  match value, rest with
  | some v, rest => if v = "" then none else some (.ofString v, rest)
  | none, a :: rest => (optionValue? a).map (·, rest)
  | none, [] => none

/-- What has been read of the arguments of a command. -/
structure Draft where
  config : Option Path
  /-- Whether the one flag of the command was given. -/
  flagged : Bool
  files : List Path

/-- The action of a command whose arguments have all been read. -/
def Draft.action? (d : Draft) : Topic → Option Action
  | .servers => some (.servers d.flagged)
  | .doctor => some (.doctor d.flagged)
  | .route => if d.files.isEmpty then none else some (.route d.files)
  | _ => none

/-- Adds a file, which only one command takes; its name may not be empty. -/
def Draft.addFile? (d : Draft) (topic : Topic) (a : String) : Option Draft :=
  if topic = .route && a != "" then some { d with files := d.files ++ [.ofString a] } else none

def flagOf? : Topic → Option Switch
  | .servers => some .json
  | .doctor => some .colorless
  | _ => none

/-- Reads the arguments behind a command. Fuel: the number of arguments. -/
def readCommand (topic : Topic) (outer : Option Path) : Nat → Draft → List String →
    Option Invocation
  | _, d, [] => (d.action? topic).map fun action => .run action (d.config.or outer)
  | 0, _, _ :: _ => none
  | fuel + 1, d, a :: rest =>
    if a = "--" then
      (rest.foldlM (fun (d : Draft) a => d.addFile? topic a) d).bind fun d =>
        (d.action? topic).map fun action => .run action (d.config.or outer)
    else if isOption a then
      match Switch.of? a with
      | some .help => some (.help topic)
      | some (.config value) =>
        match d.config, configValue? value rest with
        | none, some (path, rest) =>
          readCommand topic outer fuel { d with config := some path } rest
        | _, _ => none
      | some switch =>
        if flagOf? topic = some switch && !d.flagged then
          readCommand topic outer fuel { d with flagged := true } rest
        else none
      | none => none
    else
      match d.addFile? topic a with
      | some d => readCommand topic outer fuel d rest
      | none => none

def readHelp : List String → Option Invocation
  | [] => some (.help .program)
  | [name] => (commands.find? (·.1 = name)).map fun c => .help c.2
  | _ => none

/-- Reads all arguments, with the configuration file that was read so far. Fuel: the number of
arguments. -/
def readAll (config : Option Path) : Nat → List String → Option Invocation
  | _, [] => none
  | 0, _ :: _ => none
  | fuel + 1, a :: rest =>
    if a = "--" then none
    else if isOption a then
      match Switch.of? a with
      | some .help => some (.help .program)
      | some .version => some .version
      | some (.config value) =>
        match config, configValue? value rest with
        | none, some (path, rest) => readAll (some path) fuel rest
        | _, _ => none
      | _ => none
    else
      match commands.find? (·.1 = a) with
      | some (_, .help) => readHelp rest
      | some (_, topic) => readCommand topic config rest.length ⟨none, false, []⟩ rest
      | none => none

/-- What the arguments ask for; none when they are mistaken. -/
def Invocation.read? (arguments : List String) : Option Invocation :=
  readAll none arguments.length arguments

end ServerFleet.CommandLine
