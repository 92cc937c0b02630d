import ServerFleet.Glob.Language

/-!
Glob patterns and what they match. `?` stands for one byte and `*` for any number of them; `**`
between separators stands for any number of directories; braces hold alternatives and square
brackets a class of characters.
-/

namespace ServerFleet.Glob

/-- A part of a glob. -/
inductive Token where
  | literal (c : Char)
  /-- A `?`. -/
  | any
  /-- A `*`. -/
  | star
  /-- A `**` at the start, with the separator after it. -/
  | deepStart
  /-- A `**` at the end, with the separator before it. -/
  | deepEnd
  /-- A `**` with the separators around it. -/
  | deepMiddle
  /-- A class of characters by its ranges. -/
  | oneOf (negated : Bool) (ranges : List (Char × Char))
  /-- Alternatives in braces. -/
  | alternatives (branches : List (List Token))
deriving Inhabited

/-- Why a text is not a glob. -/
inductive Fault where
  | unclosedClass
  | invalidRange (low high : Char)
  | unclosedAlternatives
  | unopenedAlternatives
  | danglingEscape
deriving DecidableEq

def Fault.message : Fault → String
  | .unclosedClass => "unclosed character class; missing ']'"
  | .invalidRange low high => s!"invalid range; '{low}' > '{high}'"
  | .unclosedAlternatives =>
    "unclosed alternate group; missing '\x7d' (maybe escape '\x7b' with '[\x7b]'?)"
  | .unopenedAlternatives =>
    "unopened alternate group; missing '\x7b' (maybe escape '\x7d' with '[\x7d]'?)"
  | .danglingEscape => "dangling '\\'"

/-- How the wildcards treat the path separator. -/
structure Options where
  /-- Whether `?` and `*` refuse the separator. -/
  separatorIsLiteral : Bool
deriving DecidableEq

namespace Token

/-- The bytes of one character in order. -/
def charExpr (c : Char) : Expr := Expr.concat ((Bytes.ofString c.toString).map Expr.exactly)

/-- The byte ranges of a range of characters. A class works on bytes: a range of characters
longer than a byte contributes the bytes of its ends, with a range between the last byte of the
first and the first byte of the last. -/
def byteRanges (range : Char × Char) : List (UInt8 × UInt8) :=
  let low := Bytes.ofString range.1.toString
  let high := Bytes.ofString range.2.toString
  if range.1 = range.2 then low.map fun b => (b, b)
  else
    low.dropLast.map (fun b => (b, b)) ++
      [(low.getLast?.getD 0, high.head?.getD 0)] ++ (high.drop 1).map fun b => (b, b)

/-- A run of bytes that a `*` matches. -/
def starExpr (o : Options) : Expr :=
  .star (if o.separatorIsLiteral then .notSlash else .anyByte)

def separator : Expr := Expr.exactly Bytes.slash

mutual

/-- What one part matches; an empty alternative does not count. -/
def expr (o : Options) : Token → Expr
  | literal c => charExpr c
  | any => if o.separatorIsLiteral then .notSlash else .anyByte
  | star => starExpr o
  | deepStart => .alt (.alt .empty separator) (.seq (.star .anyByte) separator)
  | deepEnd => .seq separator (.star .anyByte)
  | deepMiddle => .alt separator (.seq separator (.seq (.star .anyByte) separator))
  | oneOf negated ranges => .byte negated (ranges.flatMap byteRanges)
  | alternatives branches => Expr.oneOf (branchExprs o branches)

def exprs (o : Options) : List Token → List Expr
  | [] => []
  | t :: rest => t.expr o :: exprs o rest

/-- What the alternatives that are not empty match. An alternative of nothing but empty parts is
empty as well. -/
def branchExprs (o : Options) : List (List Token) → List Expr
  | [] => []
  | branch :: rest =>
    let parts := exprs o branch
    if parts.all (· = .empty) then branchExprs o rest
    else Expr.concat parts :: branchExprs o rest

end

end Token

/-- What a glob matches as a whole; a lone `**` matches everything. -/
def exprOf (o : Options) : List Token → Expr
  | [.deepStart] => .star .anyByte
  | tokens => Expr.concat (Token.exprs o tokens)

end ServerFleet.Glob

namespace ServerFleet

/-- A glob that was read from a text. -/
structure Glob where
  /-- The text as it was written. -/
  text : String
  /-- The byte strings it matches. -/
  expr : Glob.Expr

/-- Whether a glob matches a byte string as a whole. -/
def Glob.isMatch (g : Glob) (name : Bytes) : Bool := g.expr.accepts name

end ServerFleet
