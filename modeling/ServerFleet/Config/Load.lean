import ServerFleet.Config.Decode
import ServerFleet.Config.Layer
import ServerFleet.Environment
import ServerFleet.Json.Parser
import ServerFleet.Toml.Document
import ServerFleet.Tree.Basic

/-!
Loading a configuration: the defaults, the file of the user if there is one, a file that was asked
for, and the environment, each a layer over the ones before.
-/

namespace ServerFleet

namespace Config

/-- Why a configuration could not be loaded. -/
inductive LoadError where
  /-- A file is missing, of an unknown format or not well-formed. -/
  | build
  /-- The values do not have the expected shape. -/
  | shape
deriving DecidableEq

def LoadError.message : LoadError → String
  | .build => "Failed to build configuration"
  | .shape => "Failed to deserialize configuration"

/-- A format of configuration files: how the names of its files end behind a dot, and which table a
text stands for. -/
structure Format where
  extension : String
  read? : String → Option (List (String × Json))
  plain : extension ≠ "" ∧ Bytes.dot ∉ Bytes.ofString extension ∧
    Bytes.slash ∉ Bytes.ofString extension := by decide +kernel

/-- The formats that files may have, in the order in which their extensions are tried. -/
abbrev Formats := List Format

/-- A text without a byte order mark in front. -/
def withoutMark (s : String) : String :=
  match s.toList with
  | '\ufeff' :: rest => String.ofList rest
  | _ => s

/-- A path with an extension put behind its last name, as seen from the root. -/
def withExtension? (cwd : Location) (p : Path) (e : String) : Option Path := do
  let full := (Path.ofLocation cwd).join p
  let name ← full.fileName?
  let directory ← full.parent?
  return directory.join ⟨name ++ Bytes.dot :: Bytes.ofString e⟩

namespace Formats

def extensions (fs : Formats) : List String := fs.map (·.extension)

def forPath? (fs : Formats) (p : Path) : Option Format :=
  p.extension?.bind fun e => fs.find? (Bytes.ofString ·.extension = e)

/-- The file a path stands for and its format: the file itself, which must have a known
extension, or else the one with an extension added. -/
def findFile? (fs : Formats) (t : Tree) (cwd : Location) (p : Path) : Option (Bytes × Format) :=
  match t.read? cwd p with
  | some contents => (fs.forPath? p).map (contents, ·)
  | none =>
    fs.findSome? fun f =>
      (withExtension? cwd p f.extension).bind fun p => (t.read? cwd p).map (·, f)

def fileLayer (fs : Formats) (t : Tree) (cwd : Location) (p : Path) :
    Except LoadError (List (String × Json)) :=
  match fs.findFile? t cwd p with
  | none => .error .build
  | some (contents, format) =>
    match format.read? (withoutMark (Bytes.decodeLossy contents)) with
    | some ms => .ok ms
    | none => .error .build

end Formats

/-- How the names of the variables that are read begin, in lower case. -/
def variableMark : List Char := "conductor_".toList

/-- Lower case, as far as it matters for names of variables: letters of ASCII and the Kelvin
sign. -/
def loweredName (s : String) : List Char :=
  s.toList.map fun c => if c = '\u212a' then 'k' else c.toLower

/-- The layer of the environment. All its values are texts. -/
def environmentLayer (e : Environment) : List (String × Json) :=
  e.filterMap fun (name, value) =>
    let name := loweredName name
    if variableMark.isPrefixOf name then
      some (String.ofList (name.drop variableMark.length), .string value)
    else none

def defaultLayer : List (String × Json) :=
  [("diagnostics_timeout_ms", .nat defaultDiagnosticsTimeout), ("builtin_servers", .bool true)]

/-- The configuration that layers describe, the lowest first. -/
def ofLayers (layers : List (List (String × Json))) : Except LoadError Config :=
  match Reading.lenient.config (.object (layers.foldl addLayer [])) with
  | some c => .ok c
  | none => .error .shape

/-- Loads a configuration from the file of the user, which may be missing, a file that was asked
for, which must be there, and the environment. -/
def Formats.loadLayers (fs : Formats) (t : Tree) (cwd : Location) (e : Environment)
    (user asked : Option Path) : Except LoadError Config := do
  let userLayer ← match user with
    | some p => if t.pathExists cwd p then fs.fileLayer t cwd p else .ok []
    | none => .ok []
  let askedLayer ← match asked with
    | some p => fs.fileLayer t cwd p
    | none => .ok []
  ofLayers [defaultLayer, userLayer, askedLayer, environmentLayer e]

def userPath (e : Environment) : Path :=
  (e.configDirectory.join (.ofString "lsp-conductor")).join (.ofString "config.toml")

namespace Format

def toml : Format where
  extension := "toml"
  read? text := (Toml.parse? text).bind Json.asObject?

def json : Format where
  extension := "json"
  read? text := (Json.parse? text).bind Json.asObject?

end Format

/-- The formats with a reader in this library. A further format, such as YAML, is a further entry;
nothing but the list depends on which there are. -/
def ownFormats : Formats := [.toml, .json]

/-- Loads a configuration from given files in the formats of this library. -/
def loadLayers (t : Tree) (cwd : Location) (e : Environment) (user asked : Option Path) :
    Except LoadError Config :=
  ownFormats.loadLayers t cwd e user asked

/-- Loads a configuration from the file of the user, a file that may be asked for and the
environment. -/
def load (t : Tree) (cwd : Location) (e : Environment) (asked : Option Path) :
    Except LoadError Config :=
  loadLayers t cwd e (some (userPath e)) asked

end Config

end ServerFleet
