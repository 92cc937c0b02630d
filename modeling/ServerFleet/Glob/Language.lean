import ServerFleet.Text.Bytes

/-!
Regular expressions over bytes. `accepts` reads a byte string from left to right and keeps the
set of expressions that may still match what is left; the set is closed under partial
derivatives, so it stays small.
-/

namespace ServerFleet.Glob

/-- A regular expression over bytes. -/
inductive Expr where
  /-- The empty byte string. -/
  | empty
  /-- One byte inside the ranges, or outside all of them when `negated`. -/
  | byte (negated : Bool) (ranges : List (UInt8 × UInt8))
  | seq (first second : Expr)
  | alt (left right : Expr)
  | star (body : Expr)
deriving DecidableEq

namespace Expr

def inRanges (b : UInt8) (ranges : List (UInt8 × UInt8)) : Bool :=
  ranges.any fun (low, high) => low ≤ b && b ≤ high

def exactly (b : UInt8) : Expr := byte false [(b, b)]

def anyByte : Expr := byte true []

def notSlash : Expr := byte true [(Bytes.slash, Bytes.slash)]

/-- The parts one after another. -/
def concat : List Expr → Expr
  | [] => empty
  | [e] => e
  | e :: rest => seq e (concat rest)

/-- One of the parts; nothing but the empty string if there are none. -/
def oneOf : List Expr → Expr
  | [] => empty
  | [e] => e
  | e :: rest => alt e (oneOf rest)

/-- Whether an expression matches the empty byte string. -/
def nullable : Expr → Bool
  | empty => true
  | byte _ _ => false
  | seq r s => r.nullable && s.nullable
  | alt r s => r.nullable || s.nullable
  | star _ => true

/-- `seq`, without an empty first part. -/
def followedBy (r s : Expr) : Expr := if r = empty then s else seq r s

/-- What may follow the byte `b` in a match. -/
def partials (b : UInt8) : Expr → List Expr
  | empty => []
  | byte negated ranges => if inRanges b ranges != negated then [empty] else []
  | seq r s =>
    (r.partials b).map (·.followedBy s) ++ if r.nullable then s.partials b else []
  | alt r s => r.partials b ++ s.partials b
  | star r => (r.partials b).map (·.followedBy (star r))

/-- The expressions that may match what is left after one more byte. -/
def stepAll (states : List Expr) (b : UInt8) : List Expr :=
  (states.flatMap (partials b)).eraseDups

/-- Whether an expression matches a byte string as a whole. -/
def accepts (e : Expr) (text : Bytes) : Bool := (text.foldl stepAll [e]).any nullable

end Expr

end ServerFleet.Glob
