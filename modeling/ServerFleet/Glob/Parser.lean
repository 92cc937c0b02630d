import ServerFleet.Glob.Basic

/-!
Reading glob patterns. The reader keeps the alternatives that are open as a stack of groups,
each with the branches read so far; a pattern is well-formed when it ends with no group open.
-/

namespace ServerFleet.Glob

/-- How a pattern is read. -/
structure Dialect where
  /-- Whether a `[` that is never closed stands for itself. -/
  lenientClass : Bool
deriving DecidableEq

/-- What has been read: the open groups from the innermost outwards, each with its finished
branches in reverse and the reversed parts before it, and the reversed parts of the branch at
hand. -/
structure Reading where
  outer : List (List Token × List (List Token))
  branch : List Token
  /-- The character before the one at hand. -/
  previous : Option Char
  /-- Set once a `[` was found to be never closed. -/
  classesOff : Bool

namespace Reading

def push (r : Reading) (t : Token) : Reading := { r with branch := t :: r.branch }

def nested (r : Reading) : Bool := !r.outer.isEmpty

def openGroup (r : Reading) : Reading :=
  { r with outer := (r.branch, []) :: r.outer, branch := [] }

/-- Ends a branch at a comma inside a group. -/
def nextBranch (r : Reading) : Reading :=
  match r.outer with
  | [] => r.push (.literal ',')
  | (before, done) :: outer =>
    { r with outer := (before, r.branch.reverse :: done) :: outer, branch := [] }

def closeGroup? (r : Reading) : Option Reading :=
  match r.outer with
  | [] => none
  | (before, done) :: outer =>
    let group := Token.alternatives (r.branch.reverse :: done).reverse
    some { r with outer := outer, branch := group :: before }

/-- Two stars that stand for no directories. -/
def pushTwoStars (r : Reading) : Reading := (r.push .star).push .star

/-- A `**`, with the characters after it. A separator that belongs to it is taken as well. -/
def deepStar (r : Reading) (rest : List Char) : Reading × List Char :=
  if r.branch.isEmpty then
    match rest with
    | [] => (r.push .deepStart, [])
    | '/' :: tail => (r.push .deepStart, tail)
    | other => (r.pushTwoStars, other)
  else
    let afterSeparator := r.previous = some '/'
    let atBranchStart := r.nested && (r.previous = some ',' || r.previous = some '\x7b')
    if !afterSeparator && !atBranchStart then (r.pushTwoStars, rest)
    else
      let replaceLast (t : Token) : Reading :=
        match r.branch with
        | .deepStart :: _ => r
        | .deepEnd :: _ => r
        | _ :: before => { r with branch := t :: before }
        | [] => r
      match rest with
      | [] => (replaceLast .deepEnd, [])
      | '/' :: tail => (replaceLast .deepMiddle, tail)
      | c :: _ =>
        if r.nested && (c = ',' || c = '\x7d') then (replaceLast .deepEnd, rest)
        else (r.pushTwoStars, rest)

end Reading

/-- The items of a class while it is read. -/
structure ClassItems where
  /-- The ranges in reverse. -/
  ranges : List (Char × Char)
  /-- Whether a `-` waits for the end of its range. -/
  inRange : Bool

/-- Ends the last range of a class at `c`. -/
def ClassItems.extend (items : ClassItems) (c : Char) : Except Fault ClassItems :=
  match items.ranges with
  | (low, _) :: before =>
    if c < low then .error (.invalidRange low c) else .ok ⟨(low, c) :: before, false⟩
  | [] => .ok ⟨[(c, c)], false⟩

/-- Reads the items of a class up to the closing bracket. `none` when there is no bracket. -/
def readClass (first : Bool) (items : ClassItems) :
    List Char → Except Fault (Option (ClassItems × List Char))
  | [] => .ok none
  | c :: rest =>
    if c = ']' && !first then .ok (some (items, rest))
    else if c = '-' && !first && !items.inRange then
      readClass false { items with inRange := true } rest
    else if items.inRange && c != ']' then do readClass false (← items.extend c) rest
    else readClass false ⟨(c, c) :: items.ranges, false⟩ rest

/-- A class after its opening bracket, with the characters after it. -/
def readClassToken (cs : List Char) : Except Fault (Option (Token × List Char)) := do
  let (negated, body) := match cs with
    | '!' :: rest => (true, rest)
    | '^' :: rest => (true, rest)
    | other => (false, other)
  match ← readClass true ⟨[], false⟩ body with
  | none => return none
  | some (items, rest) =>
    let ranges := if items.inRange then ('-', '-') :: items.ranges else items.ranges
    return some (.oneOf negated ranges.reverse, rest)

/-- Reads a pattern to its end. Every round takes a character, so the length of the pattern
bounds the rounds. -/
def readTokens (d : Dialect) : Nat → Reading → List Char → Except Fault (List Token)
  | 0, r, _ => .ok r.branch.reverse
  | fuel + 1, r, cs =>
    match cs with
    | [] => if r.nested then .error .unclosedAlternatives else .ok r.branch.reverse
    | c :: rest =>
      let next (r : Reading) (previous : Char) (rest : List Char) :=
        readTokens d fuel { r with previous := some previous } rest
      if c = '?' then next (r.push .any) c rest
      else if c = '*' then
        match rest with
        | '*' :: tail =>
          let (r', left) := r.deepStar tail
          let last := if left.length < tail.length then '/' else '*'
          next r' last left
        | _ => next (r.push .star) c rest
      else if c = '[' && !r.classesOff then do
        match ← readClassToken rest with
        | some (t, left) => next (r.push t) ']' left
        | none =>
          if d.lenientClass then next { r.push (.literal '[') with classesOff := true } c rest
          else .error .unclosedClass
      else if c = '\x7b' then next r.openGroup c rest
      else if c = '\x7d' then
        match r.closeGroup? with
        | some r' => next r' c rest
        | none => .error .unopenedAlternatives
      else if c = ',' then next r.nextBranch c rest
      else if c = '\\' then
        match rest with
        | [] => .error .danglingEscape
        | e :: tail => next (r.push (.literal e)) e tail
      else next (r.push (.literal c)) c rest

def tokens (d : Dialect) (text : String) : Except Fault (List Token) :=
  let cs := text.toList
  readTokens d (cs.length + 1) ⟨[], [], none, false⟩ cs

def parse (d : Dialect) (o : Options) (text : String) : Except Fault Glob := do
  return ⟨text, exprOf o (← tokens d text)⟩

end ServerFleet.Glob
