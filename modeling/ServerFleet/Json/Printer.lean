import ServerFleet.Json.Basic
import ServerFleet.Decimal.Shortest
import ServerFleet.Text.Bytes

/-!
Writing JSON, compactly or with two blanks of indentation for each level. A number that is not
an integer is written with a point or an exponent, and one that is not finite as `null`.
-/

namespace ServerFleet.Json

open Decimal (Binary64)

/-- Fractional numbers keep their point, and have an exponent below `1e-5` and from `1e16` on. -/
def numberLayout : Decimal.Layout := ⟨true, some (-4, 16)⟩

def escapeChar (c : Char) : List Char :=
  if c = '\x22' then ['\\', '\x22']
  else if c = '\\' then ['\\', '\\']
  else if c = '\n' then ['\\', 'n']
  else if c = '\r' then ['\\', 'r']
  else if c = '\t' then ['\\', 't']
  else if c = '\x08' then ['\\', 'b']
  else if c = '\x0c' then ['\\', 'f']
  else if c.toNat < 0x20 then
    ['\\', 'u', '0', '0', Bytes.hexChar (c.toNat / 16), Bytes.hexChar (c.toNat % 16)]
  else [c]

def quoted (s : String) : String :=
  String.ofList ('\x22' :: s.toList.flatMap escapeChar ++ ['\x22'])

def renderLeaf : Json → String
  | bool true => "true"
  | bool false => "false"
  | integer i => toString i
  | float x => if x.isFinite then Decimal.layOut numberLayout x else "null"
  | string s => quoted s
  | _ => "null"

mutual

/-- The text of a value without white space. -/
def compact : Json → String
  | array items => "[" ++ compactItems items ++ "]"
  | object members => "\x7b" ++ compactMembers members ++ "\x7d"
  | null => "null"
  | leaf => renderLeaf leaf

def compactItems : List Json → String
  | [] => ""
  | [j] => compact j
  | j :: rest => compact j ++ "," ++ compactItems rest

def compactMembers : List (String × Json) → String
  | [] => ""
  | [(n, j)] => quoted n ++ ":" ++ compact j
  | (n, j) :: rest => quoted n ++ ":" ++ compact j ++ "," ++ compactMembers rest

end

def newLine (level : Nat) : String := "\n" ++ String.ofList (List.replicate (2 * level) ' ')

mutual

/-- The text of a value over several lines, nested values indented by two blanks a level. -/
def prettyAt (level : Nat) : Json → String
  | array [] => "[]"
  | array (j :: rest) =>
    "[" ++ prettyItems (level + 1) (j :: rest) ++ newLine level ++ "]"
  | object [] => "\x7b\x7d"
  | object (m :: rest) =>
    "\x7b" ++ prettyMembers (level + 1) (m :: rest) ++ newLine level ++ "\x7d"
  | null => "null"
  | leaf => renderLeaf leaf

def prettyItems (level : Nat) : List Json → String
  | [] => ""
  | [j] => newLine level ++ prettyAt level j
  | j :: rest => newLine level ++ prettyAt level j ++ "," ++ prettyItems level rest

def prettyMembers (level : Nat) : List (String × Json) → String
  | [] => ""
  | [(n, j)] => newLine level ++ quoted n ++ ": " ++ prettyAt level j
  | (n, j) :: rest =>
    newLine level ++ quoted n ++ ": " ++ prettyAt level j ++ "," ++ prettyMembers level rest

end

def pretty (j : Json) : String := prettyAt 0 j

end ServerFleet.Json
