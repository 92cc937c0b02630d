import ServerFleet.Environment
import ServerFleet.Launch.SystemError
import ServerFleet.Tree.Basic

/-!
Finding programs. `findProgram?` is the lookup before a launch: only files that may be run count,
and a name with a separator is taken from the working directory. `runnable` and `runnableByName`
are the lookups of the system when a program starts; they say why there is nothing to run.
-/

namespace ServerFleet

namespace Tree

/-- Whether a path leads to a file that may be run. -/
def isProgram (t : Tree) (cwd : Location) (p : Path) : Bool :=
  match t.lookup cwd p with
  | .ok (.file _ executable) => executable
  | _ => false

def Missing.toError : Missing → IoError
  | .noEntry => .notFound
  | .notDirectory => .notDirectory
  | .tooManyLinks => .tooManyLinks

def runnable (t : Tree) (cwd : Location) (p : Path) : Except IoError Bytes :=
  match t.lookup cwd p with
  | .ok (.file contents true) => .ok contents
  | .ok _ => .error .permissionDenied
  | .error e => .error e.toError

end Tree

namespace Environment

/-- A search directory with its leading `~` replaced by the home directory. -/
def expandHome (e : Environment) (dir : Path) : Path :=
  match dir.components, e.get? "HOME" with
  | .name [126] :: rest, some home =>
    if home = "" then dir
    else rest.foldl (fun p c => p.join ⟨c.spelling⟩) (.ofString home)
  | _, _ => dir

def candidates (e : Environment) (cwd : Path) (program : Path) : List Path :=
  if 1 < program.components.length then
    if program.isAbsolute then [program]
    else [((program.components.dropWhile (· = .here)).foldl
      (fun p c => p.join ⟨c.spelling⟩) cwd)]
  else e.searchPath.map fun dir => (e.expandHome dir).join program

end Environment

/-- The first place where a program lies that may be run. -/
def findProgram? (t : Tree) (cwd : Location) (e : Environment) (program : Path) : Option Path :=
  (e.candidates (Path.ofLocation cwd) program).find? (t.isProgram cwd)

/-- Whether the lookup of a name goes on to the next directory after a failure. -/
def IoError.passesOn (e : IoError) : Bool :=
  e = .notFound || e = .notDirectory || e = .permissionDenied

/-- Tries the search directories in order. A file that may not be run is remembered as the reason
when no other one is found. -/
def runnableIn (t : Tree) (cwd : Location) (name : Path) (failure : IoError) :
    List Path → Except IoError (Path × Bytes)
  | [] => .error failure
  | dir :: rest =>
    let p := dir.join name
    match t.runnable cwd p with
    | .ok contents => .ok (p, contents)
    | .error e =>
      if e.passesOn then
        runnableIn t cwd name (if e = .permissionDenied then e else failure) rest
      else .error e

/-- The program that starts under a name: the file itself if the name has a separator, else the
first one in the search directories. -/
def runnableByName (t : Tree) (cwd : Location) (e : Environment) (name : Path) :
    Except IoError (Path × Bytes) :=
  if name.bytes = [] then .error .notFound
  else if name.bytes.contains Bytes.slash then
    (t.runnable cwd name).map (name, ·)
  else runnableIn t cwd name .notFound e.searchPath

end ServerFleet
