import ServerFleet.Shell.Script

/-!
Reading scripts. Every reader takes what is left of the text and gives back what follows; the
nested ones count down a depth that the length of the text bounds.
-/

namespace ServerFleet.Shell

/-- A reader of a part of a script. -/
abbrev Reader := StateT (List Char) Option

def octets (c : Char) : Bytes := Bytes.ofString (String.singleton c)

def endsWord (c : Char) : Bool := " \t\n;&|<>()".toList.contains c

def isNameChar (c : Char) : Bool := c.isAlphanum || c == '_'

/-- Skips blanks, continued lines and a comment. -/
def skipBlanks : List Char → List Char
  | ' ' :: rest => skipBlanks rest
  | '\t' :: rest => skipBlanks rest
  | '\\' :: '\n' :: rest => skipBlanks rest
  | '#' :: rest => rest.dropWhile (· ≠ '\n')
  | cs => cs

def skipSeparators (cs : List Char) : List Char :=
  go cs.length cs
where
  /-- Skips at most a number of separators. -/
  go : Nat → List Char → List Char
    | 0, cs => cs
    | n + 1, cs =>
      match skipBlanks cs with
      | '\n' :: rest => go n rest
      | ';' :: rest => go n rest
      | '&' :: rest => go n rest
      | cs => cs

def skipLines (cs : List Char) : List Char :=
  go cs.length cs
where
  /-- Skips at most a number of line ends. -/
  go : Nat → List Char → List Char
    | 0, cs => cs
    | n + 1, cs =>
      match skipBlanks cs with
      | '\n' :: rest => go n rest
      | cs => cs

/-- The words that close a part of a command. -/
def closers : List String := ["done", "do", "then", "elif", "else", "fi", "\x7d"]

def plainWord (cs : List Char) : String := String.ofList (cs.takeWhile (!endsWord ·))

def expectWord (w : String) : Reader Unit := fun cs =>
  let cs := skipSeparators cs
  if plainWord cs = w then some ((), cs.drop w.length) else none

/-- The name of a parameter, behind its `$`: a name, one digit or a special sign. -/
def parameterName? : List Char → Option (String × List Char)
  | '\x7b' :: rest =>
    let name := rest.takeWhile (· ≠ '\x7d')
    match rest.drop name.length with
    | _ :: rest => some (String.ofList name, rest)
    | [] => none
  | c :: rest =>
    if c.isDigit || "@*#?$!-".toList.contains c then some (String.singleton c, rest)
    else if isNameChar c then
      some (String.ofList (c :: rest.takeWhile isNameChar), rest.dropWhile isNameChar)
    else none
  | [] => none

/-- An assignment in front of a command: its name and what follows the `=`. -/
def assignment? (cs : List Char) : Option (String × List Char) :=
  match cs.takeWhile isNameChar, cs.dropWhile isNameChar with
  | c :: name, '=' :: rest =>
    if c.isDigit then none else some (String.ofList (c :: name), rest)
  | _, _ => none

/-- A redirection sign: its stream, what it does when the target is known, and what follows. -/
def redirection? (cs : List Char) : Option (Stream × Redirect × Bool × List Char) :=
  let sign (s : Option Stream) : List Char → Option (Stream × Redirect × Bool × List Char)
    | '>' :: '>' :: rest => some (s.getD .output, .appendTo, true, rest)
    | '>' :: '&' :: '1' :: rest => some (s.getD .output, .sameAs .output, false, rest)
    | '>' :: '&' :: '2' :: rest => some (s.getD .output, .sameAs .errors, false, rest)
    | '>' :: rest => some (s.getD .output, .writeTo, true, rest)
    | '<' :: rest => some (s.getD .input, .readFrom, true, rest)
    | _ => none
  match cs with
  | '1' :: rest => sign (some .output) rest
  | '2' :: rest => sign (some .errors) rest
  | '0' :: rest => sign (some .input) rest
  | cs => sign none cs

mutual

/-- The pieces up to the closing double quote. -/
def quotedPieces : Nat → Reader (List Piece)
  | 0, _ => none
  | n + 1, cs =>
    match cs with
    | '\x22' :: rest => some ([], rest)
    | '$' :: rest => do
      let (p, rest) ← expansion n true rest
      let (ps, rest) ← quotedPieces n rest
      return (p :: ps, rest)
    | '\\' :: c :: rest => do
      let t := if "$\\\x22\x60".toList.contains c then octets c
        else if c = '\n' then [] else octets '\\' ++ octets c
      let (ps, rest) ← quotedPieces n rest
      return (.text t :: ps, rest)
    | c :: rest => do
      let (ps, rest) ← quotedPieces n rest
      return (.text (octets c) :: ps, rest)
    | [] => none

/-- An expansion, behind its `$`. A `$` that starts none stands for itself. -/
def expansion : Nat → Bool → Reader Piece
  | 0, _, _ => none
  | n + 1, quoted, cs =>
    match cs with
    | '(' :: rest => do
      let (body, rest) ← commands n rest
      match skipSeparators rest with
      | ')' :: rest => return (.substitution body quoted, rest)
      | _ => none
    | cs =>
      match parameterName? cs with
      | some (name, rest) => some (.parameter name quoted, rest)
      | none => some (.text (octets '$'), cs)

def pieces : Nat → Reader (List Piece)
  | 0, _ => none
  | n + 1, cs =>
    match cs with
    | '\x27' :: rest => do
      let t := rest.takeWhile (· ≠ '\x27')
      match rest.drop t.length with
      | _ :: rest =>
        let (ps, rest) ← pieces n rest
        return (.text (t.flatMap octets) :: ps, rest)
      | [] => none
    | '\x22' :: '\x22' :: rest => do
      let (ps, rest) ← pieces n rest
      return (.text [] :: ps, rest)
    | '\x22' :: rest => do
      let (qs, rest) ← quotedPieces n rest
      let (ps, rest) ← pieces n rest
      return (qs ++ ps, rest)
    | '\\' :: '\n' :: rest => pieces n rest
    | '\\' :: c :: rest => do
      let (ps, rest) ← pieces n rest
      return (.text (octets c) :: ps, rest)
    | '$' :: rest => do
      let (p, rest) ← expansion n false rest
      let (ps, rest) ← pieces n rest
      return (p :: ps, rest)
    | c :: rest =>
      if endsWord c then some ([], cs)
      else do
        let (ps, rest) ← pieces n rest
        return (.text (octets c) :: ps, rest)
    | [] => some ([], [])

def words : Nat → Reader (List Word)
  | 0, _ => none
  | n + 1, cs =>
    match skipBlanks cs with
    | [] => some ([], [])
    | c :: rest =>
      if endsWord c then some ([], c :: rest)
      else do
        let (w, rest) ← pieces n (c :: rest)
        let (ws, rest) ← words n rest
        return (w :: ws, rest)

/-- A command without a structure of its own, together with its redirections. -/
def simple : Nat → List (String × Word) → List Word → Reader Command
  | 0, _, _, _ => none
  | n + 1, assigned, ws, cs =>
    let cs := skipBlanks cs
    match redirection? cs with
    | some (stream, how, hasTarget, rest) => do
      let (target, rest) ← if hasTarget then pieces n (skipBlanks rest) else some ([], rest)
      let (c, rest) ← simple n assigned ws rest
      return (.redirect c stream how target, rest)
    | none =>
      match cs with
      | [] => some (.simple assigned.reverse ws.reverse, [])
      | c :: _ =>
        if endsWord c then some (.simple assigned.reverse ws.reverse, cs)
        else
          match if ws.isEmpty then assignment? cs else none with
          | some (name, rest) => do
            let (value, rest) ← pieces n rest
            simple n ((name, value) :: assigned) ws rest
          | none => do
            let (w, rest) ← pieces n cs
            simple n assigned (w :: ws) rest

/-- The redirections behind a command with a structure of its own. -/
def redirected : Nat → Command → Reader Command
  | 0, _, _ => none
  | n + 1, c, cs =>
    match redirection? (skipBlanks cs) with
    | some (stream, how, hasTarget, rest) => do
      let (target, rest) ← if hasTarget then pieces n (skipBlanks rest) else some ([], rest)
      redirected n (.redirect c stream how target) rest
    | none => some (c, cs)

/-- What follows the condition of a branch. -/
def branches : Nat → Reader Command
  | 0, _ => none
  | n + 1, cs => do
    let (condition, cs) ← commands n cs
    let (_, cs) ← expectWord "then" cs
    let (yes, cs) ← commands n cs
    let cs := skipSeparators cs
    if plainWord cs = "elif" then
      let (no, cs) ← branches n (cs.drop 4)
      return (.branch condition yes [no], cs)
    else if plainWord cs = "else" then
      let (no, cs) ← commands n (cs.drop 4)
      let (_, cs) ← expectWord "fi" cs
      return (.branch condition yes no, cs)
    else
      let (_, cs) ← expectWord "fi" cs
      return (.branch condition yes [], cs)

def command : Nat → Reader Command
  | 0, _ => none
  | n + 1, cs =>
    let cs := skipBlanks cs
    match cs with
    | '(' :: rest => do
      let (body, rest) ← commands n rest
      match skipSeparators rest with
      | ')' :: rest => redirected n (.subshell body) rest
      | _ => none
    | cs =>
      match plainWord cs with
      | "\x7b" => do
        let (body, cs) ← commands n (cs.drop 1)
        let (_, cs) ← expectWord "\x7d" cs
        redirected n (.group body) cs
      | "!" => do
        let (c, cs) ← command n (cs.drop 1)
        return (.negate c, cs)
      | "if" => do
        let (c, cs) ← branches n (cs.drop 2)
        redirected n c cs
      | "while" => loopFrom n true (cs.drop 5)
      | "until" => loopFrom n false (cs.drop 5)
      | "for" => do
        let cs := skipBlanks (cs.drop 3)
        let name := plainWord cs
        let cs := skipLines (cs.drop name.length)
        let (ws, cs) ← if plainWord cs = "in" then words n (cs.drop 2)
          else some ([[.parameter "@" true]], cs)
        let (_, cs) ← expectWord "do" cs
        let (body, cs) ← commands n cs
        let (_, cs) ← expectWord "done" cs
        redirected n (.each name ws body) cs
      | _ => simple n [] [] cs

def loopFrom : Nat → Bool → Reader Command
  | 0, _, _ => none
  | n + 1, whileSuccess, cs => do
    let (condition, cs) ← commands n cs
    let (_, cs) ← expectWord "do" cs
    let (body, cs) ← commands n cs
    let (_, cs) ← expectWord "done" cs
    redirected n (.loop whileSuccess condition body) cs

def pipeline : Nat → Reader Command
  | 0, _ => none
  | n + 1, cs => do
    let (c, cs) ← command n cs
    match skipBlanks cs with
    | '|' :: '|' :: _ => return (c, cs)
    | '|' :: rest => do
      let (c', rest) ← pipeline n (skipLines rest)
      return (.pipe c c', rest)
    | _ => return (c, cs)

/-- Pipelines joined by `&&` and `||` from left to right. -/
def chain : Nat → Option (Bool × Command) → Reader Command
  | 0, _, _ => none
  | n + 1, before, cs => do
    let (c, cs) ← pipeline n cs
    let c := match before with
      | none => c
      | some (true, b) => .both b c
      | some (false, b) => .either b c
    match skipBlanks cs with
    | '&' :: '&' :: rest => chain n (some (true, c)) (skipLines rest)
    | '|' :: '|' :: rest => chain n (some (false, c)) (skipLines rest)
    | _ => return (c, cs)

/-- Commands up to the end of the text or to what closes them. -/
def commands : Nat → Reader (List Command)
  | 0, _ => none
  | n + 1, cs =>
    match skipSeparators cs with
    | [] => some ([], [])
    | ')' :: rest => some ([], ')' :: rest)
    | cs =>
      if closers.contains (plainWord cs) then some ([], cs)
      else do
        let (c, cs) ← chain n none cs
        let (rest, cs) ← commands n cs
        return (c :: rest, cs)

end

def Script.parse? (text : String) : Option Script :=
  let cs := text.toList
  match commands (8 * cs.length + 8) cs with
  | some (script, []) => some script
  | _ => none

end ServerFleet.Shell
