import ServerFleet.Decimal.Binary64

/-!
JSON values. Numbers are exact integers or double-precision numbers; an object keeps its members
in the order of their insertion, with the latest value for a repeated name.
-/

namespace ServerFleet

open Decimal (Binary64)

/-- A JSON value. -/
inductive Json where
  | null
  | bool (b : Bool)
  | integer (i : Int)
  | float (x : Binary64)
  | string (s : String)
  | array (items : List Json)
  | object (members : List (String × Json))
deriving Inhabited

namespace Json

/-- Gives a name its value: in the place of an earlier member of that name, or at the end. -/
def setMember (name : String) (value : Json) : List (String × Json) → List (String × Json)
  | [] => [(name, value)]
  | (n, v) :: rest => if n = name then (n, value) :: rest else (n, v) :: setMember name value rest

def get? (j : Json) (name : String) : Option Json :=
  match j with
  | object members => (members.find? (·.1 = name)).map (·.2)
  | _ => none

/-- The value of a member, with `null` and absence alike. -/
def getNonNull? (j : Json) (name : String) : Option Json :=
  match j.get? name with
  | some null => none
  | other => other

def asString? : Json → Option String
  | string s => some s
  | _ => none

def asBool? : Json → Option Bool
  | bool b => some b
  | _ => none

def asNat? : Json → Option Nat
  | integer (.ofNat n) => some n
  | _ => none

def asArray? : Json → Option (List Json)
  | array items => some items
  | _ => none

def asObject? : Json → Option (List (String × Json))
  | object members => some members
  | _ => none

def strings (ss : List String) : Json := array (ss.map string)

def nat (n : Nat) : Json := integer n

def ofOption (f : α → Json) : Option α → Json
  | some a => f a
  | none => null

end Json

end ServerFleet
