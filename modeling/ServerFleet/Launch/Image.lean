import ServerFleet.Launch.Search
import ServerFleet.Tree.Edit

/-!
What runs when a file is started: a program of the system, directly or as the interpreter that the
first line of the file names.
-/

namespace ServerFleet

/-- The programs that belong to the system. -/
inductive SystemProgram where
  /-- The command shell. -/
  | shell
  /-- Sets whether files may be run. -/
  | changeMode
  /-- Writes the contents of files. -/
  | concatenate
  /-- Makes directories. -/
  | makeDirectory
  /-- Makes empty files. -/
  | touch
  /-- Copies a file. -/
  | copy
  /-- Removes files and directories. -/
  | remove
  /-- Waits. -/
  | sleep
deriving DecidableEq, Inhabited

namespace SystemProgram

def all : List (String × SystemProgram) :=
  [("sh", shell), ("chmod", changeMode), ("cat", concatenate), ("mkdir", makeDirectory),
    ("touch", touch), ("cp", copy), ("rm", remove), ("sleep", sleep)]

/-- How the contents of a program of the system begin. -/
def magic : Bytes := Bytes.ofString "\x7fELF"

def ofContents? (contents : Bytes) : Option SystemProgram :=
  (all.find? fun e => magic ++ Bytes.ofString e.1 = contents).map (·.2)

/-- The directories that hold the programs of the system. -/
def directories : List Path := ["/bin", "/usr/bin"].map Path.ofString

end SystemProgram

/-- A tree with the programs of the system added. -/
def Tree.withSystem (t : Tree) : Tree :=
  SystemProgram.directories.foldl (fun t dir =>
    SystemProgram.all.foldl (fun t e =>
      t.place [] (dir.join (.ofString e.1))
        (.file (SystemProgram.magic ++ Bytes.ofString e.1) true)) t) t

/-- A program of the system that is about to run, with its arguments. -/
structure Image where
  program : SystemProgram
  arguments : List Bytes
deriving Inhabited

namespace Image

/-- The interpreter that the first line of a script names, with its argument if it has one. -/
def interpreter? (contents : Bytes) : Option (Path × List Bytes) :=
  match contents with
  | 35 :: 33 :: rest =>
    let isBlank (b : UInt8) : Bool := b = 32 || b = 9
    let line := ((rest.takeWhile (· ≠ Bytes.newline)).dropWhile isBlank).reverse.dropWhile isBlank
    let line := line.reverse
    let name := line.takeWhile (!isBlank ·)
    let argument := (line.drop name.length).dropWhile isBlank
    if name = [] then none
    else some (⟨name⟩, if argument = [] then [] else [argument])
  | _ => none

/-- The image of a file that is started. An interpreter may be a script itself, a few levels
deep. -/
def load (t : Tree) (cwd : Location) :
    Nat → Path → Bytes → List Bytes → Except IoError Image
  | levels, file, contents, arguments =>
    match SystemProgram.ofContents? contents with
    | some program => .ok ⟨program, arguments⟩
    | none =>
      match interpreter? contents with
      | none => .error .badFormat
      | some (interpreter, extra) =>
        match levels with
        | 0 => .error .tooManyLinks
        | levels + 1 =>
          match t.runnable cwd interpreter with
          | .error e => .error e
          | .ok inner => load t cwd levels interpreter inner (extra ++ file.bytes :: arguments)

/-- How many scripts may interpret one another. -/
def maxLevels : Nat := 5

end Image

end ServerFleet
