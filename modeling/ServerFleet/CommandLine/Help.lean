import ServerFleet.CommandLine.Arguments
import ServerFleet.Text.Layout

/-!
The help texts of the command line.
-/

namespace ServerFleet.CommandLine

def programName : String := "conductor"

def programVersion : String := "0.4.0"

def Topic.about : Topic → String
  | .program => "Orchestrates multiple language servers per project"
  | .servers => "List registered language servers"
  | .route => "Show which servers and project roots each file resolves to"
  | .doctor => "Check language server installation for the current workspace"
  | .help => "Print this message or the help of the given subcommand(s)"

/-- What follows the name of the program in the line on usage. -/
def Topic.usage : Topic → String
  | .program => "[OPTIONS] <COMMAND>"
  | .servers => "servers [OPTIONS]"
  | .route => "route [OPTIONS] <FILES>..."
  | .doctor => "doctor [OPTIONS]"
  | .help => "help [COMMAND]..."

/-- The arguments of a command that are not options, with their meanings. -/
def Topic.operands : Topic → List (String × String)
  | .route => [("<FILES>...", "Files to route")]
  | .help => [("[COMMAND]...", "Print help for the subcommand(s)")]
  | _ => []

def Topic.options : Topic → List (String × String)
  | .program =>
    [("    --config <CONFIG>", "Path to configuration file"), ("-h, --help", "Print help"),
      ("-V, --version", "Print version")]
  | .servers =>
    ("    --json", "Print JSON instead of a table") :: common
  | .route => common
  | .doctor => ("    --nocolor", "Disable colored output") :: common
  | .help => []
where
  /-- The options of every command. -/
  common : List (String × String) :=
    [("    --config <CONFIG>", "Path to configuration file"), ("-h, --help", "Print help")]

/-- A heading with a table of two columns below it; nothing without rows. -/
def helpSection (heading : String) (rows : List (String × String)) : List String :=
  let width := (rows.map (·.1.length)).foldl max 0
  if rows.isEmpty then []
  else "" :: heading :: rows.map fun (term, meaning) =>
    "  " ++ Text.padRight term width ++ "  " ++ meaning

def Topic.lines (t : Topic) : List String :=
  [t.about, "", "Usage: " ++ programName ++ " " ++ t.usage] ++
    (if t = .program then helpSection "Commands:" (commands.map fun (name, t) => (name, t.about))
      else []) ++
    helpSection "Arguments:" t.operands ++ helpSection "Options:" t.options

end ServerFleet.CommandLine
