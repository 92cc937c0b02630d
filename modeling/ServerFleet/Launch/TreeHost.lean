import ServerFleet.Launch.Host
import ServerFleet.Shell.Run

/-!
The host whose programs lie in a file tree. An install command may change the tree; a started
program is kept as a process that can be run to its end on an input.
-/

namespace ServerFleet

/-- A program that was started. -/
structure Process where
  image : Image
  cwd : Location
  environment : Environment
deriving Inhabited

namespace Process

def start (t : Tree) (cwd : Location) (e : Environment) (program : Path) (arguments : List String)
    (root : Path) : Except IoError Process := do
  let texts := program.bytes :: root.bytes ::
    (arguments ++ e.flatMap fun (n, v) => [n, v]).map Bytes.ofString
  if texts.any (·.contains 0) then throw .zeroOctet
  let dir ← match t.locate cwd root with
    | .ok dir => pure dir
    | .error m => throw m.toError
  if t.entry? dir ≠ some .directory then throw .notDirectory
  let (file, contents) ← runnableByName t dir e program
  let image ← Image.load t dir Image.maxLevels file contents
    (arguments.map Bytes.ofString)
  return ⟨image, dir, e⟩

/-- Runs a process to its end: how it ended, what it wrote, and the tree it left. -/
def finish (p : Process) (t : Tree) (input : Bytes) : ExitStatus × Bytes × Tree :=
  let (status, s) := (Shell.State.start t p.cwd p.environment [] [] input).run p.image
  (status, s.written, s.tree)

end Process

/-- The host of a file tree for a process with a working directory and an environment. -/
def treeHost (cwd : Location) (e : Environment) : Host Tree Process where
  find? t program := findProgram? t cwd e (.ofString program)
  install t program arguments root :=
    match Process.start t cwd e (.ofString program) arguments root with
    | .error failure => (t, .error failure)
    | .ok p =>
      let (status, _, t) := p.finish t []
      (t, .ok status)
  start t program c root :=
    let e := c.environment.foldl (fun e (n, v) => e.set n v) e
    (t, Process.start t cwd e program c.arguments root)

end ServerFleet
