import ServerFleet.Shell.Printing
import ServerFleet.Launch.SystemError
import ServerFleet.Launch.Image

/-!
The state of a running shell, and the commands of the shell that need nothing but it.
-/

namespace ServerFleet.Shell

/-- Where an output stream leads. -/
inductive Sink where
  /-- To whoever runs the shell. -/
  | captured
  | discarded
  | file (loc : Location)

/-- A variable. -/
structure Variable where
  name : String
  value : Bytes
  /-- Whether programs that are started see it. -/
  exported : Bool

/-- The state of a shell. -/
structure State where
  tree : Tree
  cwd : Location
  bindings : List Variable
  /-- The name the shell was started under. -/
  name : Bytes
  arguments : List Bytes
  /-- What is left of the input. -/
  input : Bytes
  /-- What was written to whoever runs the shell. -/
  written : Bytes
  output : Sink
  errors : Sink
  /-- The exit code of the last command. -/
  status : Nat

/-- How a command ends. -/
inductive Flow where
  /-- The next command runs. -/
  | onward
  /-- The shell ends with the exit code of its state. -/
  | leave
  /-- A signal ends the shell. -/
  | killed (signal : Nat)
  /-- Leaves a number of enclosing loops. -/
  | exitLoops (n : Nat)
  /-- Goes on with the next round of the enclosing loop of that number. -/
  | nextRound (n : Nat)
deriving DecidableEq

namespace State

def write (s : State) (sink : Sink) (t : Bytes) : State :=
  match sink with
  | .captured => { s with written := s.written ++ t }
  | .discarded => s
  | .file loc =>
    match s.tree.entry? loc with
    | some (.file old executable) =>
      { s with tree := ⟨s.tree.entries.insert loc (.file (old ++ t) executable)⟩ }
    | _ => s

def print (s : State) (t : Bytes) : State := s.write s.output t

def withStatus (s : State) (status : Nat) : State := { s with status }

def value? (s : State) (name : String) : Option Bytes :=
  (s.bindings.find? (·.name = name)).map (·.value)

def assign (s : State) (name : String) (value : Bytes) : State :=
  if s.bindings.any (·.name = name) then
    { s with bindings := s.bindings.map fun v => if v.name = name then { v with value } else v }
  else { s with bindings := s.bindings ++ [⟨name, value, false⟩] }

def environment (s : State) : Environment :=
  (s.bindings.filter (·.exported)).map fun v => (v.name, Bytes.decodeLossy v.value)

/-- The number of the shell among the processes. -/
def processId : Bytes := Bytes.ofString "4711"

def parameter (s : State) (name : String) : Bytes :=
  match name with
  | "0" => s.name
  | "#" => Bytes.ofString (toString s.arguments.length)
  | "?" => Bytes.ofString (toString s.status)
  | "$" => processId
  | "*" => [32].intercalate s.arguments
  | "@" => [32].intercalate s.arguments
  | name =>
    match name.toNat? with
    | some n => (s.arguments[n - 1]?).getD []
    | none =>
      match name.splitOn ":-" with
      | [name, fallback] =>
        match s.value? name with
        | some (b :: bs) => b :: bs
        | _ => Bytes.ofString fallback
      | _ => (s.value? name).getD []

end State

def isSeparator (b : UInt8) : Bool := b = 32 || b = 9 || b = Bytes.newline

def trimmed (bs : Bytes) : Bytes :=
  ((bs.dropWhile isSeparator).reverse.dropWhile isSeparator).reverse

/-- Gives the fields of a line to variables; the last one takes all that is left. -/
def assignFields (s : State) (line : Bytes) : List String → State
  | [] => s
  | [name] => s.assign name (trimmed line)
  | name :: names =>
    let line := line.dropWhile isSeparator
    let field := line.takeWhile (!isSeparator ·)
    assignFields (s.assign name field) (line.drop field.length) names

/-- The next line of the input, whether its end was there, and what follows. -/
def nextLine (input : Bytes) : Bytes × Bool × Bytes :=
  let line := input.takeWhile (· ≠ Bytes.newline)
  match input.drop line.length with
  | [] => (line, false, [])
  | _ :: rest => (line, true, rest)

/-- A line in which a backslash stands for the octet behind it. -/
def withoutBackslashes : Bytes → Bytes
  | 92 :: b :: rest => b :: withoutBackslashes rest
  | b :: rest => b :: withoutBackslashes rest
  | [] => []

def State.readLine (s : State) (raw : Bool) (names : List String) : State :=
  let (line, ended, rest) := nextLine s.input
  let line := if raw then line else withoutBackslashes line
  (assignFields { s with input := rest } line names).withStatus (if ended then 0 else 1)

/-- Whether a test with some operands holds; none when it is malformed. -/
def testHolds? (s : State) (ws : List Bytes) : Option Bool :=
  let isA (p : Bytes) (f : Entry → Bool) : Bool :=
    match s.tree.lookup s.cwd ⟨p⟩ with
    | .ok e => f e
    | .error _ => false
  match ws.map Bytes.decodeLossy, ws with
  | [], _ => some false
  | [_], [w] => some (w ≠ [])
  | ["!", _], [_, w] => some (w = [])
  | [op, _], [_, w] =>
    match op with
    | "-n" => some (w ≠ [])
    | "-z" => some (w = [])
    | "-e" => some (isA w fun _ => true)
    | "-f" => some (isA w fun e => e matches .file ..)
    | "-d" => some (isA w fun e => e matches .directory)
    | "-x" => some (isA w fun e => !(e matches .file _ false))
    | "-s" => some (isA w fun e => !(e matches .file [] _))
    | "-r" => some (isA w fun _ => true)
    | _ => none
  | [_, op, _], [a, _, b] =>
    let numbers (f : Int → Int → Bool) : Option Bool :=
      some (f (leadingNumber a) (leadingNumber b))
    match op with
    | "=" => some (a = b)
    | "!=" => some (a ≠ b)
    | "-eq" => numbers (· == ·)
    | "-ne" => numbers (· != ·)
    | "-lt" => numbers (· < ·)
    | "-le" => numbers (· ≤ ·)
    | "-gt" => numbers (· > ·)
    | "-ge" => numbers (· ≥ ·)
    | _ => none
  | _, _ => none

/-- A test, with its leading `!` signs taken into account. -/
def test? (s : State) : List Bytes → Option Bool
  | [33] :: w :: rest => (test? s (w :: rest)).map (!·)
  | ws => testHolds? s ws

def signalNumber? (text : String) : Option Nat :=
  match text.toNat? with
  | some n => some n
  | none =>
    let name := if text.startsWith "SIG" then (text.drop 3).toString else text
    (ExitStatus.signalNames.findIdx? (· = name)).map (· + 1)

/-- Sends a signal to processes. Only the shell itself is there to receive one. -/
def State.kill (s : State) (signal : Nat) (targets : List Bytes) : State × Flow :=
  if targets.contains State.processId then
    if signal = 0 then (s.withStatus 0, .onward) else (s, .killed signal)
  else (s.withStatus 1, .onward)

/-- A command that is built into the shell and runs no other one; none for any other name. -/
def State.runBuiltin (s : State) (name : String) (ws : List Bytes) : Option (State × Flow) :=
  let number (fallback : Nat) : Nat :=
    (ws.head?.bind fun w => (Bytes.decodeLossy w).toNat?).getD fallback
  let texts := ws.map Bytes.decodeLossy
  let done (s : State) : Option (State × Flow) := some (s.withStatus 0, .onward)
  let verdict (v : Option Bool) : Option (State × Flow) :=
    some (s.withStatus (match v with | some true => 0 | some false => 1 | none => 2), .onward)
  match name with
  | ":" => done s
  | "true" => done s
  | "false" => some (s.withStatus 1, .onward)
  | "echo" => done (s.print (echoText ws))
  | "printf" =>
    match ws with
    | format :: rest => done (s.print (formatText format rest.length rest))
    | [] => some (s.withStatus 2, .onward)
  | "pwd" => done (s.print ((Path.ofLocation s.cwd).bytes ++ [Bytes.newline]))
  | "cd" =>
    let target := match ws with
      | w :: _ => Path.mk w
      | [] => ⟨(s.value? "HOME").getD []⟩
    match s.tree.locate s.cwd target with
    | .ok loc =>
      if s.tree.entry? loc = some .directory then done { s with cwd := loc }
      else some (s.withStatus 2, .onward)
    | .error _ => some (s.withStatus 2, .onward)
  | "read" =>
    match texts with
    | "-r" :: names => some (s.readLine true names, .onward)
    | names => some (s.readLine false names, .onward)
  | "exit" => some (s.withStatus (number s.status % 256), .leave)
  | "kill" =>
    match texts, ws with
    | "-s" :: name :: _, _ :: _ :: targets =>
      some ((signalNumber? name).elim (s.withStatus 1, .onward) (s.kill · targets))
    | option :: _, w :: targets =>
      if option.startsWith "-" then
        some ((signalNumber? (option.drop 1).toString).elim (s.withStatus 1, .onward)
          (s.kill · targets))
      else some (s.kill 15 (w :: targets))
    | _, _ => some (s.withStatus 2, .onward)
  | "test" => verdict (test? s ws)
  | "[" => if ws.getLast? = some [93] then verdict (test? s ws.dropLast) else verdict none
  | "export" =>
    done (texts.foldl (fun s t =>
      let (name, s) := match t.splitOn "=" with
        | name :: value :: more =>
          (name, s.assign name (Bytes.ofString ("=".intercalate (value :: more))))
        | _ => (t, s)
      { s with bindings := s.bindings.map fun v =>
          if v.name = name then { v with exported := true } else v }) s)
  | "unset" => done { s with bindings := s.bindings.filter (!texts.contains ·.name) }
  | "shift" => done { s with arguments := s.arguments.drop (number 1) }
  | "set" => done (if texts.head? = some "--" then { s with arguments := ws.tail } else s)
  | "break" => some (s.withStatus 0, .exitLoops (max 1 (number 1)))
  | "continue" => some (s.withStatus 0, .nextRound (max 1 (number 1)))
  | "umask" => done s
  | "wait" => done s
  | "trap" => done s
  | _ => none

end ServerFleet.Shell
