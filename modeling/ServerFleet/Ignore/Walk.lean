import ServerFleet.Ignore.Rule
import ServerFleet.Environment
import ServerFleet.Tree.Basic

/-!
Which entries of a file tree a walk leaves out. For an entry the directories above it are asked
from the nearest to the root: rules for all tools come first, then those of the repository, then
those its clone keeps for itself, then those of the user. Rules of a repository stop at its top
directory. An entry no rule speaks of is left out if it is hidden.
-/

namespace ServerFleet.Ignore

/-- The path of a location below a directory. -/
def pathBelow (dir loc : Location) : Bytes := [Bytes.slash].intercalate (loc.drop dir.length)

def pathOf (loc : Location) : Path := ⟨Bytes.slash :: [Bytes.slash].intercalate loc⟩

def below (dir : Location) (name : String) : Path := (pathOf dir).join (.ofString name)

/-- The rules of a file, none if it cannot be read. -/
def rulesAt (t : Tree) (p : Path) : List Rule :=
  match t.read? [] p with
  | some contents => rulesOf contents
  | none => []

/-- Whether a directory is the top of a repository. -/
def isRepository (t : Tree) (dir : Location) : Bool :=
  t.pathExists [] (below dir ".git") || t.pathExists [] (below dir ".jj")

def firstLine? (t : Tree) (cwd : Location) (p : Path) : Option (List Char) := do
  let contents ← t.read? cwd p
  (linesOf contents).head?

/-- The directory with the settings of the repository at `dir`. A `.git` that is a file names the
settings of a linked clone, which name those of the repository. -/
def settingsDirectory? (t : Tree) (cwd dir : Location) : Option Path := do
  let plain := below dir ".git"
  match t.read? [] plain with
  | none => some plain
  | some _ =>
    let line ← firstLine? t [] plain
    let mark := "gitdir: ".toList
    if !mark.isPrefixOf line then none
    let linked := Path.ofString (String.ofList (line.drop mark.length))
    let common ← firstLine? t cwd (linked.join (.ofString "commondir"))
    let target := Path.ofString (String.ofList common)
    some (if common.head? = some '.' then linked.join target else target)

/-- The rules that the clone at `dir` keeps for itself. -/
def ownRules (t : Tree) (cwd dir : Location) : List Rule :=
  match settingsDirectory? t cwd dir with
  | some settings =>
    match t.read? cwd (settings.join (.ofString "info/exclude")) with
    | some contents => rulesOf contents
    | none => []
  | none => []

/-- The value of a setting on a line, if the line is about the file of user rules. -/
def rulesFileOnLine? (line : List Char) : Option (List Char) :=
  let name := "excludesfile".toList
  let cs := line.dropWhile Text.isBlankChar
  if (cs.take name.length).map Char.toLower != name then none
  else
    match (cs.drop name.length).dropWhile Text.isBlankChar with
    | '=' :: rest =>
      let rest := rest.dropWhile Text.isBlankChar
      let rest := match rest with
        | '\x22' :: r => r.dropWhile Text.isBlankChar
        | r => r
      let value := trimEnd rest
      let value := if value.getLast? = some '\x22' && 1 < value.length then trimEnd value.dropLast
        else value
      if value.isEmpty || value.any Text.isBlankChar then none else some value
    | _ => none

/-- The file of user rules that the settings at a path name. -/
def rulesFileIn? (t : Tree) (cwd : Location) (home : Path) (p : Path) : Option Path := do
  let contents ← t.read? cwd p
  let value ← (linesOf contents).findSome? rulesFileOnLine?
  some (.ofString ((String.ofList value).replace "~" home.display))

def userRulesFile (t : Tree) (cwd : Location) (e : Environment) : Path :=
  let home := e.home
  let settings := match e.get? "XDG_CONFIG_HOME" with
    | some d => if d = "" then home.join (.ofString ".config") else .ofString d
    | none => home.join (.ofString ".config")
  ((rulesFileIn? t cwd home (home.join (.ofString ".gitconfig"))).or
    (rulesFileIn? t cwd home (settings.join (.ofString "git/config")))).getD
      (settings.join (.ofString "git/ignore"))

/-- Everything a walk asks about the directories of a tree. -/
structure Rules where
  /-- The rules for all tools in a directory. -/
  shared : Location → List Rule
  /-- The rules of the repository in a directory. -/
  tracked : Location → List Rule
  /-- The rules a clone keeps for itself. -/
  own : Location → List Rule
  /-- Whether a directory is the top of a repository. -/
  isTop : Location → Bool
  /-- The rules of the user, and the directory they start from. -/
  user : List Rule
  userDirectory : Location

def Rules.ofTree (t : Tree) (cwd : Location) (e : Environment) : Rules where
  shared dir := rulesAt t (below dir ".ignore")
  tracked dir := rulesAt t (below dir ".gitignore")
  own dir := ownRules t cwd dir
  isTop dir := isRepository t dir
  user := match t.read? cwd (userRulesFile t cwd e) with
    | some contents => rulesOf contents
    | none => []
  userDirectory := cwd

/-- The directories from `dir` up to the root directory, nearest first. -/
def upward (dir : Location) : List Location :=
  (List.range (dir.length + 1)).map fun n => dir.take (dir.length - n)

/-- The directories from the nearest up to the first top of a repository, that one included. -/
def withinRepository (isTop : Location → Bool) : List Location → List Location
  | [] => []
  | d :: rest => if isTop d then [d] else d :: withinRepository isTop rest

/-- The first verdict of rule lists, one for each directory. -/
def firstVerdict? (rules : Location → List Rule) (loc : Location) (isDirectory : Bool)
    (dirs : List Location) : Option Verdict :=
  dirs.findSome? fun d => verdict? (rules d) (pathBelow d loc) isDirectory

def Rules.verdict? (r : Rules) (loc : Location) (isDirectory : Bool) : Option Verdict :=
  let dirs := upward loc.dropLast
  let shared := firstVerdict? r.shared loc isDirectory dirs
  if dirs.any r.isTop then
    let near := withinRepository r.isTop dirs
    let userPath := if r.userDirectory.isPrefixOf loc then pathBelow r.userDirectory loc
      else pathBelow [] loc
    shared.or <| (firstVerdict? r.tracked loc isDirectory near).or <|
      (firstVerdict? r.own loc isDirectory near).or <|
        Ignore.verdict? r.user userPath isDirectory
  else shared

def isHidden (name : Bytes) : Bool := name.head? == some Bytes.dot

/-- Whether a walk leaves an entry out. -/
def Rules.skips (r : Rules) (loc : Location) (isDirectory : Bool) : Bool :=
  match r.verdict? loc isDirectory with
  | some .ignore => true
  | some .keep => false
  | none => (loc.getLast?.map isHidden).getD false

end ServerFleet.Ignore
