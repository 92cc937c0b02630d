import ServerFleet.Decimal.Binary64
import ServerFleet.Json.Basic

/-!
Layers of configuration. A layer is put over what is below it: a table is merged name by name, and
any other value takes the place of what was there. The names at the top of a layer are addresses,
such as `server.zls.args[0]`; a name that is no address stands for itself.
-/

namespace ServerFleet.Config

/-- A step of an address below its first name. -/
inductive AddressStep where
  | name (s : String)
  /-- A place in an array; negative ones count from its end. -/
  | index (i : Int)
deriving DecidableEq

/-- The place of a value in a configuration. -/
structure Address where
  root : String
  steps : List AddressStep
deriving DecidableEq

namespace Address

def isNameChar (c : Char) : Bool :=
  ('a' ≤ c && c ≤ 'z') || ('A' ≤ c && c ≤ 'Z') || ('0' ≤ c && c ≤ '9') || c == '_' || c == '-'

def takeName? (cs : List Char) : Option (String × List Char) :=
  let name := cs.takeWhile isNameChar
  if name.isEmpty then none else some (String.ofList name, cs.drop name.length)

def isBlankChar (c : Char) : Bool := c == ' ' || c == '\t'

def takeIndex? (cs : List Char) : Option (Int × List Char) :=
  let cs := cs.dropWhile isBlankChar
  let (negative, cs) := match cs with
    | '-' :: rest => (true, rest)
    | other => (false, other)
  let digits := cs.takeWhile Char.isDigit
  let value : Nat := digits.foldl (fun n c => n * 10 + (c.toNat - 48)) 0
  let fits := if negative then value ≤ twoTo 63 else value < twoTo 63
  match (cs.drop digits.length).dropWhile isBlankChar with
  | ']' :: rest =>
    if digits.isEmpty || !fits then none
    else some (if negative then -(value : Int) else value, rest)
  | _ => none

/-- The steps up to the end of a text. -/
def steps? : Nat → List Char → Option (List AddressStep)
  | _, [] => some []
  | 0, _ => none
  | fuel + 1, c :: rest =>
    if c = '.' then do
      let (n, rest) ← takeName? rest
      return .name n :: (← steps? fuel rest)
    else if c = '[' then do
      let (i, rest) ← takeIndex? rest
      return .index i :: (← steps? fuel rest)
    else none

def parse? (s : String) : Option Address := do
  let (root, rest) ← takeName? s.toList
  return ⟨root, ← steps? rest.length rest⟩

/-- The address a name at the top of a layer stands for. -/
def ofName (s : String) : Address := (parse? s).getD ⟨s, []⟩

end Address

/-- The value under a name, `null` if there is none. -/
def valueAt (name : String) (ms : List (String × Json)) : Json :=
  ((ms.find? (·.1 = name)).map (·.2)).getD .null

/-- The members of a table; a value that is no table has none. -/
def tableMembers : Json → List (String × Json)
  | .object ms => ms
  | _ => []

def arrayItems : Json → List Json
  | .array items => items
  | _ => []

/-- Changes the item at a place of an array, which grows at its end or, for a negative place
before its start, at its front. -/
def changeItem (i : Int) (f : Json → Json) (items : List Json) : List Json :=
  let place : Int := if 0 ≤ i then i else (items.length : Int) + i
  if 0 ≤ place then
    let n := place.toNat
    let grown := items ++ List.replicate (n + 1 - items.length) .null
    grown.set n (f ((grown[n]?).getD .null))
  else
    let front := List.replicate (-place).toNat .null
    (front ++ items).set 0 (f .null)

/-- Changes the value at the end of the steps; on the way, a value of the wrong kind gives way to
an empty table or array. -/
def changeAt (f : Json → Json) : List AddressStep → Json → Json
  | [], v => f v
  | .name n :: rest, v =>
    let ms := tableMembers v
    .object (Json.setMember n (changeAt f rest (valueAt n ms)) ms)
  | .index i :: rest, v => .array (changeItem i (changeAt f rest) (arrayItems v))

mutual

/-- Puts a value over another. -/
def overlay (below : Json) : Json → Json
  | .object ms => .object (overlayMembers (tableMembers below) ms)
  | other => other

def overlayMembers (below : List (String × Json)) : List (String × Json) → List (String × Json)
  | [] => below
  | (n, v) :: rest => overlayMembers (Json.setMember n (overlay (valueAt n below) v) below) rest

end

def putAt (a : Address) (v : Json) (root : List (String × Json)) : List (String × Json) :=
  Json.setMember a.root (changeAt (overlay · v) a.steps (valueAt a.root root)) root

/-- Puts a layer over what is below it. -/
def addLayer (root : List (String × Json)) (layer : List (String × Json)) :
    List (String × Json) :=
  layer.foldl (fun root m => putAt (Address.ofName m.1) m.2 root) root

end ServerFleet.Config
