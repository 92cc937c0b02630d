import ServerFleet.Shell.Reader
import ServerFleet.Shell.State

/-!
Running scripts. A script may loop for ever, so every run counts down a number of nested steps;
`runImage` starts with enough of them for any script that ends soon.
-/

namespace ServerFleet.Shell

/-- The fields of a word that are complete, the last first, and the one that is being made. -/
structure Fields where
  complete : List Bytes
  current : Option Bytes

namespace Fields

def empty : Fields := ⟨[], none⟩

/-- Adds to the current field, which then exists. -/
def add (f : Fields) (t : Bytes) : Fields := { f with current := some (f.current.getD [] ++ t) }

/-- Ends the current field. -/
def cut (f : Fields) : Fields :=
  match f.current with
  | some t => ⟨t :: f.complete, none⟩
  | none => f

/-- Adds a value that is split at separators. -/
def addSplit (f : Fields) (t : Bytes) : Fields :=
  t.foldl (fun f b => if isSeparator b then f.cut else f.add [b]) f

/-- Adds values with the end of a field between neighbours. -/
def addEach (f : Fields) (add : Fields → Bytes → Fields) : List Bytes → Fields
  | [] => f
  | [t] => add f t
  | t :: ts => (add f t).cut.addEach add ts

def toList (f : Fields) : List Bytes := f.cut.complete.reverse

end Fields

def addParameter (s : State) (name : String) (quoted : Bool) (f : Fields) : Fields :=
  if name = "@" && quoted then f.addEach Fields.add s.arguments
  else if name = "@" || (name = "*" && !quoted) then f.addEach Fields.addSplit s.arguments
  else if quoted then f.add (s.parameter name)
  else f.addSplit (s.parameter name)

def withoutLastLines (t : Bytes) : Bytes := (t.reverse.dropWhile (· = Bytes.newline)).reverse

def State.start (tree : Tree) (cwd : Location) (e : Environment) (name : Bytes)
    (arguments : List Bytes) (input : Bytes) : State where
  tree
  cwd
  bindings := e.map fun (n, v) => ⟨n, Bytes.ofString v, true⟩
  name
  arguments
  input
  written := []
  output := .captured
  errors := .discarded
  status := 0

/-- Takes over what a shell inside another one has left behind. -/
def State.after (inner outer : State) : State :=
  { outer with
    tree := inner.tree, input := inner.input, written := inner.written, status := inner.status }

/-- How a shell inside another one ends for the outer one. -/
def Flow.outside : Flow → Flow
  | .killed n => .killed n
  | _ => .onward

def State.open (s : State) (stream : Stream) (how : Redirect) (target : Bytes) : Option State :=
  let point (s : State) (sink : Sink) : State :=
    match stream with
    | .errors => { s with errors := sink }
    | _ => { s with output := sink }
  let p := Path.mk target
  match how with
  | .sameAs .errors => some (point s s.errors)
  | .sameAs _ => some (point s s.output)
  | .readFrom =>
    if p.display = "/dev/null" then some { s with input := [] }
    else (s.tree.read? s.cwd p).map fun contents => { s with input := contents }
  | .writeTo =>
    if p.display = "/dev/null" then some (point s .discarded)
    else (s.tree.write? s.cwd p []).bind fun tree =>
      (tree.locate s.cwd p).toOption.map fun loc => point { s with tree } (.file loc)
  | .appendTo =>
    if p.display = "/dev/null" then some (point s .discarded)
    else (s.tree.write? s.cwd p ((s.tree.read? s.cwd p).getD [])).bind fun tree =>
      (tree.locate s.cwd p).toOption.map fun loc => point { s with tree } (.file loc)

def runSystem (program : SystemProgram) (ws : List Bytes) (s : State) : State :=
  let operands := ws.filter fun w => w.head? ≠ some 45
  let each (f : State → Path → Option State) (ws : List Bytes) : State :=
    ws.foldl (fun s w => (f s ⟨w⟩).getD (s.withStatus 1)) (s.withStatus 0)
  let change (s : State) (t : Option Tree) : Option State := t.map fun tree => { s with tree }
  match program with
  | .shell => s
  | .changeMode =>
    match ws with
    | mode :: files =>
      let digits := Bytes.decodeLossy mode
      let executable := if digits.toNat?.isSome then digits.any ("1357".toList.contains ·)
        else mode.contains 43
      each (fun s p => change s (s.tree.setExecutable s.cwd p executable)) files
    | [] => s.withStatus 1
  | .concatenate =>
    if operands = [] then ({ s with input := [] }.print s.input).withStatus 0
    else each (fun s p => (s.tree.read? s.cwd p).map s.print) operands
  | .makeDirectory =>
    each (fun s p =>
      if s.tree.pathExists s.cwd p && operands.length = ws.length then none
      else some { s with tree := (s.tree.makeDirectories
        (if p.isAbsolute then [] else s.cwd) (Tree.moves p)).1 }) operands
  | .touch =>
    each (fun s p => if s.tree.pathExists s.cwd p then some s
      else change s (s.tree.write? s.cwd p [])) operands
  | .copy =>
    match operands with
    | [source, target] =>
      let target := if s.tree.isDirectory s.cwd ⟨target⟩ then
          (Path.mk target).join ⟨((Path.mk source).fileName?).getD []⟩
        else ⟨target⟩
      match s.tree.lookup s.cwd ⟨source⟩ with
      | .ok (.file contents executable) =>
        let fresh := !s.tree.pathExists s.cwd target
        match s.tree.write? s.cwd target contents with
        | some tree =>
          let tree := if fresh then (tree.setExecutable s.cwd target executable).getD tree
            else tree
          { s with tree }.withStatus 0
        | none => s.withStatus 1
      | _ => s.withStatus 1
    | _ => s.withStatus 1
  | .remove =>
    each (fun s p =>
      match s.tree.locate s.cwd p with
      | .ok loc => some { s with tree := ⟨s.tree.entries.filter fun l _ => !loc.isPrefixOf l⟩ }
      | .error _ => if operands.length = ws.length then none else some s) operands
  | .sleep => s.withStatus 0

mutual

/-- The fields of a word, and the state after its substitutions. -/
def addPieces : Nat → List Piece → Fields → State → Fields × State
  | 0, _, f, s => (f, s)
  | _ + 1, [], f, s => (f, s)
  | n + 1, .text t :: rest, f, s => addPieces n rest (f.add t) s
  | n + 1, .parameter name quoted :: rest, f, s =>
    addPieces n rest (addParameter s name quoted f) s
  | n + 1, .substitution body quoted :: rest, f, s =>
    let (inner, _) := runAll n body { s with written := [], output := .captured }
    let t := withoutLastLines inner.written
    let s := { inner.after s with written := s.written }
    addPieces n rest (if quoted then f.add t else f.addSplit t) s

/-- The fields of words, and the state after their substitutions. -/
def expandWords : Nat → List Word → State → List Bytes × State
  | 0, _, s => ([], s)
  | _ + 1, [], s => ([], s)
  | n + 1, w :: ws, s =>
    let (f, s) := addPieces n w .empty s
    let (rest, s) := expandWords n ws s
    (f.toList ++ rest, s)

def expandText : Nat → Word → State → Bytes × State
  | 0, _, s => ([], s)
  | n + 1, w, s =>
    let (f, s) := addPieces n (w.map Piece.quoted) .empty s
    ([32].intercalate f.toList, s)

def assignAll : Nat → List (String × Word) → State → State
  | 0, _, s => s
  | _ + 1, [], s => s
  | n + 1, (name, w) :: rest, s =>
    let (t, s) := expandText n w s
    assignAll n rest (s.assign name t)

/-- Runs the program of an image with the streams of a shell. -/
def runImage : Nat → Image → State → State × Flow
  | 0, _, s => (s, .leave)
  | n + 1, image, s =>
    match image.program, image.arguments with
    | .shell, arguments =>
      let run (text : Bytes) (name : Bytes) (arguments : List Bytes) : State × Flow :=
        match Script.parse? (Bytes.decodeLossy text) with
        | some script =>
          let (inner, flow) := runAll n script
            { s with name, arguments, bindings := s.bindings.filter (·.exported), status := 0 }
          (inner.after s, match flow with
            | .killed k => .killed k
            | _ => .leave)
        | none => (s.withStatus 2, .leave)
      match arguments with
      | [] => run s.input (Bytes.ofString "sh") []
      | [45, 99] :: text :: more => run text (more.headD (Bytes.ofString "sh")) more.tail
      | file :: arguments =>
        match s.tree.read? s.cwd ⟨file⟩ with
        | some text => run text file arguments
        | none => (s.withStatus 2, .leave)
    | program, arguments => (runSystem program arguments s, .leave)

/-- Runs a program by its name and comes back with its exit code. -/
def runProgram : Nat → Bytes → List Bytes → State → State × Flow
  | 0, _, _, s => (s, .leave)
  | n + 1, name, arguments, s =>
    let loaded : Except IoError Image := do
      let (file, contents) ← runnableByName s.tree s.cwd s.environment ⟨name⟩
      match Image.load s.tree s.cwd Image.maxLevels file contents arguments with
      | .error e =>
        if e = .badFormat then return ⟨.shell, file.bytes :: arguments⟩ else throw e
      | .ok image => return image
    match loaded with
    | .error e => (s.withStatus (if e = .notFound then 127 else 126), .onward)
    | .ok image =>
      let (inner, flow) := runImage n image s
      (inner.after s |>.withStatus (match flow with
        | .killed k => 128 + k
        | _ => inner.status), .onward)

def runCommand : Nat → Command → State → State × Flow
  | 0, _, s => (s, .leave)
  | n + 1, c, s =>
    match c with
    | .simple assigned ws =>
      let (fields, s) := expandWords n ws s
      match fields with
      | [] =>
        let inner := assignAll n assigned s
        let substitutes := assigned.any fun a => a.2.any (· matches .substitution ..)
        (if substitutes then inner else inner.withStatus 0, .onward)
      | name :: arguments =>
        let inner := assignAll n assigned s
        let inner := { inner with bindings := inner.bindings.map fun v =>
          { v with exported := v.exported || assigned.any (·.1 = v.name) } }
        let name' := Bytes.decodeLossy name
        let restore (r : State × Flow) : State × Flow :=
          if assigned.isEmpty then r else ({ r.1 with bindings := s.bindings }, r.2)
        match name' with
        | "exec" =>
          match arguments with
          | [] => (s, .onward)
          | name :: arguments =>
            let (s, _) := runProgram n name arguments inner
            (s, .leave)
        | "eval" =>
          match Script.parse? (Bytes.decodeLossy ([32].intercalate arguments)) with
          | some script => runAll n script inner
          | none => (s.withStatus 2, .leave)
        | _ =>
          match inner.runBuiltin name' arguments with
          | some r => restore r
          | none => restore (runProgram n name arguments inner)
    | .each name ws body =>
      let (fields, s) := expandWords n ws s
      runEach n name fields body s
    | .loop whileSuccess condition body => runLoop n whileSuccess condition body 0 s
    | .branch condition yes no =>
      match runAll n condition s with
      | (s, .onward) =>
        if s.status = 0 then runAll n yes s else runAll n no (s.withStatus 0)
      | r => r
    | .group body => runAll n body s
    | .subshell body =>
      let (inner, flow) := runAll n body s
      (inner.after s, flow.outside)
    | .both first second =>
      match runCommand n first s with
      | (s, .onward) => if s.status = 0 then runCommand n second s else (s, .onward)
      | r => r
    | .either first second =>
      match runCommand n first s with
      | (s, .onward) => if s.status = 0 then (s, .onward) else runCommand n second s
      | r => r
    | .negate c =>
      match runCommand n c s with
      | (s, .onward) => (s.withStatus (if s.status = 0 then 1 else 0), .onward)
      | r => r
    | .pipe first second =>
      let (inner, flow) := runCommand n first { s with written := [], output := .captured }
      match flow with
      | .killed k => (inner.after s, .killed k)
      | _ =>
        let (inner', flow') := runCommand n second
          { inner.after s with written := s.written, input := inner.written }
        ({ inner'.after s with input := inner.input }, flow'.outside)
    | .redirect c stream how target =>
      let (t, s) := expandText n target s
      match s.open stream how t with
      | none => (s.withStatus 2, .onward)
      | some opened =>
        let (inner, flow) := runCommand n c opened
        ({ inner with
            output := s.output, errors := s.errors
            input := if stream = .input then s.input else inner.input }, flow)

def runAll : Nat → List Command → State → State × Flow
  | 0, _, s => (s, .leave)
  | _ + 1, [], s => (s, .onward)
  | n + 1, c :: rest, s =>
    match runCommand n c s with
    | (s, .onward) => runAll n rest s
    | r => r

def runEach : Nat → String → List Bytes → List Command → State → State × Flow
  | 0, _, _, _, s => (s, .leave)
  | _ + 1, _, [], _, s => (s, .onward)
  | n + 1, name, field :: fields, body, s =>
    match runAll n body (s.assign name field) with
    | (s, .onward) => runEach n name fields body s
    | (s, .nextRound (k + 2)) => (s, .nextRound (k + 1))
    | (s, .nextRound _) => runEach n name fields body s
    | (s, .exitLoops (k + 2)) => (s, .exitLoops (k + 1))
    | (s, .exitLoops _) => (s, .onward)
    | r => r

/-- Runs a body as long as a condition holds. The exit code is that of the last round. -/
def runLoop : Nat → Bool → List Command → List Command → Nat → State → State × Flow
  | 0, _, _, _, _, s => (s, .leave)
  | n + 1, whileSuccess, condition, body, status, s =>
    match runAll n condition s with
    | (s, .onward) =>
      if (s.status == 0) == whileSuccess then
        match runAll n body s with
        | (s, .onward) => runLoop n whileSuccess condition body s.status s
        | (s, .nextRound (k + 2)) => (s, .nextRound (k + 1))
        | (s, .nextRound _) => runLoop n whileSuccess condition body s.status s
        | (s, .exitLoops (k + 2)) => (s, .exitLoops (k + 1))
        | (s, .exitLoops _) => (s, .onward)
        | r => r
      else (s.withStatus status, .onward)
    | r => r

end

def stepLimit : Nat := 10000

/-- How the run of an image ends: its exit status and the state of its streams. -/
def State.run (s : State) (image : Image) : ExitStatus × State :=
  match runImage stepLimit image s with
  | (s, .killed k) => (.signal k, s)
  | (s, _) => (.code s.status, s)

end ServerFleet.Shell
