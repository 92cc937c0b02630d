import ServerFleet.Path.Basic

/-!
The variables of a process, with the ones that name directories: the home directory, the directory
of the configuration files of the user and the directories in which programs are looked up.
-/

namespace ServerFleet

/-- The variables of a process. -/
abbrev Environment := List (String × String)

namespace Environment

def get? (e : Environment) (name : String) : Option String := (e.find? (·.1 = name)).map (·.2)

def set (e : Environment) (name value : String) : Environment :=
  e.filter (·.1 ≠ name) ++ [(name, value)]

/-- The home directory when the environment does not name one. -/
def fallbackHome : String := "/root"

def home (e : Environment) : Path :=
  match e.get? "HOME" with
  | some h => .ofString (if h = "" then fallbackHome else h)
  | none => .ofString fallbackHome

/-- The directory of the configuration files of the user. A variable may name another one, by an
absolute path. -/
def configDirectory (e : Environment) : Path :=
  let standard := e.home.join (.ofString ".config")
  match e.get? "XDG_CONFIG_HOME" with
  | some d => if (Path.ofString d).isAbsolute then .ofString d else standard
  | none => standard

/-- The directories in which programs are looked up, in order. -/
def searchPath (e : Environment) : List Path :=
  match e.get? "PATH" with
  | some p => ((Bytes.ofString p).splitOn Bytes.colon).map Path.mk
  | none => []

end Environment

end ServerFleet
