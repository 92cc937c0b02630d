import ServerFleet.CommandLine.Program

/-!
The program. It takes a picture of the part of the file system that can matter (the working
directory down to the depth of a scan, every directory above it and above the files that are
named, the search path and the configuration files), runs on the picture and writes the result.
Whether a file may be run is not visible from here; every file of the picture counts as runnable.
-/

namespace ServerFleet.CommandLine

/-- The files whose contents matter, by name. -/
def readNames : List String :=
  [".gitignore", ".ignore", ".gitconfig", "exclude", "ignore", "config", "config.toml"]

def pictureFile (path : String) (t : Tree) : IO Tree := do
  try
    let contents ← IO.FS.readBinFile ⟨path⟩
    return t.place [] (.ofString path) (.file contents.toList true)
  catch _ => return t

/-- Puts a directory into the picture, with everything in it down to a depth. -/
def pictureDirectory : Nat → String → Tree → IO Tree
  | 0, path, t => return t.place [] (.ofString path) .directory
  | depth + 1, path, t => do
    try
      let dir ← IO.FS.realPath ⟨path⟩
      let mut t := t.place [] (.ofString dir.toString) .directory
      if dir.toString != path then
        t := t.place [] (.ofString path) (.link (.ofString dir.toString))
      for entry in ← dir.readDir do
        let inner := entry.path.toString
        match (← entry.path.symlinkMetadata).type with
        | .dir => t ← pictureDirectory depth inner t
        | .symlink =>
          try
            let target ← IO.FS.realPath entry.path
            t := t.place [] (.ofString inner) (.link (.ofString target.toString))
            if !(← target.isDir) then
              t := t.place [] (.ofString target.toString) (.file [] true)
          catch _ => pure ()
        | _ =>
          if readNames.contains entry.fileName then t ← pictureFile inner t
          else t := t.place [] (.ofString inner) (.file [] true)
      return t
    catch _ => return t

/-- The variables that matter. -/
def variableNames : List String :=
  ["HOME", "PATH", "XDG_CONFIG_HOME", "CONDUCTOR_DIAGNOSTICS_TIMEOUT_MS",
    "CONDUCTOR_INITIALIZE_TIMEOUT_MS", "CONDUCTOR_BUILTIN_SERVERS"]

/-- The environment of the program, as far as it matters. -/
def readEnvironment : IO Environment :=
  variableNames.filterMapM fun name => do return (← IO.getEnv name).map (name, ·)

/-- The directories that matter beside the working directory, for the files that are named. -/
def namedDirectories (cwd : Path) (e : Environment) (files : List Path) : List Path :=
  (files.flatMap fun f => (Path.absolute cwd f).properAncestors) ++ cwd.ancestors ++
    e.searchPath ++ [e.home, (Config.userPath e).parent?.getD cwd]

/-- What the program sees. -/
def survey (files : List Path) (config : Option Path) : IO Workplace := do
  let cwd := (← IO.currentDir).toString
  let environment ← readEnvironment
  let root := Path.ofString cwd
  let mut t ← pictureDirectory (scanDepth + 1) cwd ⟨.empty⟩
  for dir in namedDirectories root environment files do
    t ← pictureDirectory 1 dir.display t
  for file in config do
    let path := (Path.absolute root file).display
    for spelling in path :: Config.ownFormats.extensions.map (path ++ "." ++ ·) do
      t ← pictureFile spelling t
  return {
    tree := t
    cwd := (root.bytes.splitOn Bytes.slash).filter (· ≠ [])
    environment
    columns := defaultColumns
    interactive := ← (← IO.getStdout).isTty
  }

end ServerFleet.CommandLine

open ServerFleet CommandLine in
def main (arguments : List String) : IO UInt32 := do
  let (files, config) := match Invocation.read? arguments with
    | some (.run (.route files) config) => (files, config)
    | some (.run _ config) => ([], config)
    | _ => ([], none)
  let result := run (← survey files config) arguments
  IO.print result.output
  IO.eprint result.errors
  return result.exitCode.toUInt32
