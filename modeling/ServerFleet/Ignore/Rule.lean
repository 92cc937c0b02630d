import ServerFleet.Glob.Parser
import ServerFleet.Text.Visible

/-!
Ignore rules, one on a line. A rule says which paths below its directory it is about, whether only
directories count, and whether they are left out or taken back in. Of several rules of one file
that match a path the last one decides.
-/

namespace ServerFleet.Ignore

/-- What a rule says about a path. -/
inductive Verdict where
  | ignore
  /-- Taken back in, even if it is hidden. -/
  | keep
deriving DecidableEq

/-- A rule of an ignore file. -/
structure Rule where
  glob : Glob
  verdict : Verdict
  onlyDirectories : Bool

/-- Ignore rules: wildcards stop at separators, and a `[` that is never closed stands for
itself. -/
def ruleDialect : Glob.Dialect := ⟨true⟩

def ruleOptions : Glob.Options := ⟨true⟩

def trimEnd (cs : List Char) : List Char := (cs.reverse.dropWhile Text.isBlankChar).reverse

def endsIn (tail cs : List Char) : Bool := tail.isSuffixOf cs

/-- The glob of a rule from its pattern. A pattern without separators may match in every
directory below, and a final `/**` matches what is in a directory, not the directory. -/
def globText (anchored : Bool) (pattern : List Char) : List Char :=
  let spread :=
    if anchored || pattern.contains '/' || pattern == "**".toList then pattern
    else "**/".toList ++ pattern
  if endsIn "/**".toList spread then spread ++ "/*".toList else spread

/-- The parts of a line: the verdict, whether it is anchored, and the pattern. -/
def splitLine (cs : List Char) : Verdict × Bool × List Char :=
  match cs with
  | '\\' :: '!' :: rest => (.ignore, false, '!' :: rest)
  | '\\' :: '#' :: rest => (.ignore, false, '#' :: rest)
  | _ =>
    let (verdict, cs) := match cs with
      | '!' :: rest => (Verdict.keep, rest)
      | other => (.ignore, other)
    match cs with
    | '/' :: rest => (verdict, true, rest)
    | other => (verdict, false, other)

/-- The rule on a line. Empty lines, comments and lines that are not well-formed hold none. -/
def ofLine? (line : List Char) : Option Rule :=
  if line.head? = some '#' then none
  else
    let cs := if endsIn "\\ ".toList line then line else trimEnd line
    if cs.isEmpty then none
    else
      let (verdict, anchored, pattern) := splitLine cs
      let onlyDirectories := pattern.getLast? = some '/'
      let pattern :=
        if onlyDirectories then
          let short := pattern.dropLast
          if short.getLast? = some '\\' then short.dropLast else short
        else pattern
      match Glob.parse ruleDialect ruleOptions (String.ofList (globText anchored pattern)) with
      | .ok g => some ⟨g, verdict, onlyDirectories⟩
      | .error _ => none

/-- The lines of a file up to the first that is not text, without their line breaks. -/
def linesOf (contents : Bytes) : List (List Char) :=
  let parts := contents.splitOn Bytes.newline
  let parts := if parts.getLast? = some [] then parts.dropLast else parts
  let texts := (parts.map Bytes.decode?).takeWhile Option.isSome
  (texts.filterMap id).map fun s =>
    let cs := s.toList
    if cs.getLast? = some '\r' then cs.dropLast else cs

/-- The rules of a file in order. A byte order mark in front does not count. -/
def rulesOf (contents : Bytes) : List Rule :=
  match linesOf contents with
  | [] => []
  | first :: rest => (first.dropWhile (· = '\ufeff') :: rest).filterMap ofLine?

/-- What rules say about a path below their directory. -/
def verdict? (rules : List Rule) (path : Bytes) (isDirectory : Bool) : Option Verdict :=
  (rules.reverse.find? fun r => (!r.onlyDirectories || isDirectory) && r.glob.isMatch path).map
    (·.verdict)

end ServerFleet.Ignore
