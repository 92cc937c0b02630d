import ServerFleet.Toml.Scalar

/-!
Reading a TOML document into a JSON object. While it is read, every table remembers how it came
to be, because a table may be opened by a header only once, may be extended by dotted keys only
if they made it, and cannot be touched any more once it was written inline.
-/

namespace ServerFleet.Toml

/-- How a table came to be. -/
inductive Origin where
  /-- By a header of its own. -/
  | header
  /-- On the way to the table of a header. -/
  | onTheWay
  /-- By a dotted key. -/
  | dotted
deriving DecidableEq

/-- A part of a document while it is read. -/
inductive Node where
  | value (j : Json)
  | table (origin : Origin) (members : List (String × Node))
  /-- Tables under one name, the latest first. -/
  | tables (elements : List (List (String × Node)))
deriving Inhabited

abbrev Members := List (String × Node)

def lookup (name : String) (ms : Members) : Option Node := (ms.find? (·.1 = name)).map (·.2)

def store (name : String) (n : Node) : Members → Members
  | [] => [(name, n)]
  | m :: rest => if m.1 = name then (name, n) :: rest else m :: store name n rest

/-- Stores a value under a dotted key. -/
def assign (value : Json) : List String → Members → Option Members
  | [], _ => none
  | [name], ms =>
    match lookup name ms with
    | none => some (store name (.value value) ms)
    | some _ => none
  | name :: rest, ms =>
    match lookup name ms with
    | none => do
      let inner ← assign value rest []
      return store name (.table .dotted inner) ms
    | some (.table .header _) => none
    | some (.table origin inner) => do
      let inner ← assign value rest inner
      return store name (.table origin inner) ms
    | some _ => none

def openTable : List String → Members → Option Members
  | [], _ => none
  | [name], ms =>
    match lookup name ms with
    | none => some (store name (.table .header []) ms)
    | some (.table .onTheWay inner) => some (store name (.table .header inner) ms)
    | some _ => none
  | name :: rest, ms =>
    match lookup name ms with
    | none => do
      let inner ← openTable rest []
      return store name (.table .onTheWay inner) ms
    | some (.table origin inner) => do
      let inner ← openTable rest inner
      return store name (.table origin inner) ms
    | some (.tables (last :: before)) => do
      let inner ← openTable rest last
      return store name (.tables (inner :: before)) ms
    | some _ => none

/-- Opens a further table of an array of tables. -/
def openElement : List String → Members → Option Members
  | [], _ => none
  | [name], ms =>
    match lookup name ms with
    | none => some (store name (.tables [[]]) ms)
    | some (.tables elements) => some (store name (.tables ([] :: elements)) ms)
    | some _ => none
  | name :: rest, ms =>
    match lookup name ms with
    | none => do
      let inner ← openElement rest []
      return store name (.table .onTheWay inner) ms
    | some (.table origin inner) => do
      let inner ← openElement rest inner
      return store name (.table origin inner) ms
    | some (.tables (last :: before)) => do
      let inner ← openElement rest last
      return store name (.tables (inner :: before)) ms
    | some _ => none

def assignWithin (key : List String) (value : Json) : List String → Members → Option Members
  | [], ms => assign value key ms
  | name :: rest, ms =>
    match lookup name ms with
    | some (.table origin inner) => do
      let inner ← assignWithin key value rest inner
      return store name (.table origin inner) ms
    | some (.tables (last :: before)) => do
      let inner ← assignWithin key value rest last
      return store name (.tables (inner :: before)) ms
    | _ => none

mutual

def Node.toJson : Node → Json
  | .value j => j
  | .table _ ms => .object (membersJson ms)
  | .tables elements => .array (elementsJson elements).reverse

def membersJson : List (String × Node) → List (String × Json)
  | [] => []
  | (name, n) :: rest => (name, n.toJson) :: membersJson rest

def elementsJson : List (List (String × Node)) → List Json
  | [] => []
  | ms :: rest => .object (membersJson ms) :: elementsJson rest

end

def isKeyChar (c : Char) : Bool :=
  isDecimal c || ('a' ≤ c && c ≤ 'z') || ('A' ≤ c && c ≤ 'Z') || c == '-' || c == '_'

def keyPart? (cs : List Char) : Option (String × List Char) :=
  match cs with
  | '\x22' :: rest => (basicLine (cs.length + 1) rest).map fun (t, r) => (String.ofList t, r)
  | '\x27' :: rest => (literalLine rest).map fun (t, r) => (String.ofList t, r)
  | other =>
    let name := other.takeWhile isKeyChar
    if name = [] then none else some (String.ofList name, other.drop name.length)

def key? : Nat → List Char → Option (List String × List Char)
  | 0, _ => none
  | fuel + 1, cs => do
    let (part, rest) ← keyPart? (skipBlank cs)
    match skipBlank rest with
    | '.' :: rest =>
      let (parts, rest) ← key? fuel rest
      return (part :: parts, rest)
    | rest => return ([part], rest)

def skipComment? : List Char → Option (List Char)
  | [] => some []
  | '\n' :: rest => some ('\n' :: rest)
  | '\r' :: '\n' :: rest => some ('\r' :: '\n' :: rest)
  | c :: rest => if isPlain c then skipComment? rest else none

/-- Skips white space, line breaks and comments. -/
def skipFiller? : Nat → List Char → Option (List Char)
  | 0, cs => some cs
  | fuel + 1, cs =>
    match skipBlankLines cs with
    | '#' :: rest => do skipFiller? fuel (← skipComment? rest)
    | rest => some rest

mutual

def value? (fuel : Nat) (cs : List Char) : Option (Json × List Char) :=
  match fuel with
  | 0 => none
  | fuel + 1 =>
    match cs with
    | '\x22' :: _ | '\x27' :: _ => do
      let (text, rest) ← quotedText? cs
      return (.string text, rest)
    | '[' :: rest => do
      let (items, rest) ← items? fuel rest
      return (.array items, rest)
    | '\x7b' :: rest => do
      let (members, rest) ← inlineMembers? fuel [] rest
      return (.object (membersJson members), rest)
    | other => do
      let (head, rest) := takeBare other
      return (← bareValue? head, rest)

def items? (fuel : Nat) (cs : List Char) : Option (List Json × List Char) :=
  match fuel with
  | 0 => none
  | fuel + 1 => do
    let cs ← skipFiller? cs.length cs
    match cs with
    | ']' :: rest => return ([], rest)
    | _ =>
      let (item, rest) ← value? fuel cs
      let rest ← skipFiller? rest.length rest
      match rest with
      | ',' :: rest =>
        let (items, rest) ← items? fuel rest
        return (item :: items, rest)
      | ']' :: rest => return ([item], rest)
      | _ => none

/-- The members of an inline table up to its closing brace. -/
def inlineMembers? (fuel : Nat) (found : Members) (cs : List Char) :
    Option (Members × List Char) :=
  match fuel with
  | 0 => none
  | fuel + 1 => do
    let cs ← skipFiller? cs.length cs
    match cs with
    | '\x7d' :: rest => return (found, rest)
    | _ =>
      let (key, rest) ← key? (cs.length + 1) cs
      match rest with
      | '=' :: rest =>
        let (value, rest) ← value? fuel (skipBlank rest)
        let found ← assign value key found
        let rest ← skipFiller? rest.length rest
        match rest with
        | ',' :: rest => inlineMembers? fuel found rest
        | '\x7d' :: rest => return (found, rest)
        | _ => none
      | _ => none

end

/-- The end of a statement: a comment at most, and the end of the line. -/
def endOfLine? (cs : List Char) : Option (List Char) := do
  let cs ← match skipBlank cs with
    | '#' :: rest => skipComment? rest
    | rest => some rest
  if cs = [] then some [] else lineBreak? cs

/-- Reads statement by statement. `within` is the table that was opened last. -/
def statements? : Nat → List String → Members → List Char → Option Members
  | 0, _, _, _ => none
  | fuel + 1, within, ms, cs => do
    let cs ← skipFiller? cs.length cs
    match cs with
    | [] => return ms
    | '[' :: '[' :: rest =>
      let (key, rest) ← key? (rest.length + 1) rest
      match rest with
      | ']' :: ']' :: rest =>
        statements? fuel key (← openElement key ms) (← endOfLine? rest)
      | _ => none
    | '[' :: rest =>
      let (key, rest) ← key? (rest.length + 1) rest
      match rest with
      | ']' :: rest => statements? fuel key (← openTable key ms) (← endOfLine? rest)
      | _ => none
    | other =>
      let (key, rest) ← key? (other.length + 1) other
      match rest with
      | '=' :: rest =>
        let (value, rest) ← value? (rest.length + 1) (skipBlank rest)
        statements? fuel within (← assignWithin key value within ms) (← endOfLine? rest)
      | _ => none

def parse? (text : String) : Option Json := do
  let cs := match text.toList with
    | '\ufeff' :: rest => rest
    | other => other
  let ms ← statements? (cs.length + 1) [] [] cs
  return .object (membersJson ms)

end ServerFleet.Toml
