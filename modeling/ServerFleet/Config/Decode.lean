import ServerFleet.Config.Basic
import ServerFleet.Decimal.Shortest

/-!
Reading a configuration out of a value. What counts as a text, a number or a switch is given by a
reading: the strict one takes each kind as it is, the lenient one converts between texts, numbers
and switches. A record may be given by name or as an array of its members in order; members that
are missing have their defaults.
-/

namespace ServerFleet.Config

/-- How the leaves and records of a configuration are read. -/
structure Reading where
  text : Json → Option String
  flag : Json → Option Bool
  /-- A number of sixty-four bits without sign. -/
  number : Json → Option Nat
  /-- Whether an array may hold more than the members of a record. -/
  surplus : Bool

namespace Reading

def maxNumber : Nat := twoTo 64 - 1

/-- Takes each kind as it is. -/
def strict : Reading where
  text := Json.asString?
  flag := Json.asBool?
  number j := j.asNat?.filter (· ≤ maxNumber)
  surplus := false

def lowered (s : String) : String := String.ofList (s.toList.map Char.toLower)

/-- The numeral of a text: digits, with a plus sign in front at most. -/
def numeral? (s : String) : Option Nat :=
  let digits := match s.toList with
    | '+' :: rest => rest
    | other => other
  if digits.isEmpty || !digits.all Char.isDigit then none
  else some (digits.foldl (fun n c => n * 10 + (c.toNat - 48)) 0)

/-- How a fractional number is written as a text: without an exponent. -/
def textLayout : Decimal.Layout := ⟨false, none⟩

def onWords : List String := ["true", "on", "yes"]

def offWords : List String := ["false", "off", "no"]

def lenientText : Json → Option String
  | .string s => some s
  | .bool b => some (toString b)
  | .integer i => some (toString i)
  | .float x => some (Decimal.layOut textLayout x)
  | _ => none

def lenientFlag : Json → Option Bool
  | .bool b => some b
  | .integer i => some (decide (i ≠ 0))
  | .float x => some (!x.isZero)
  | .string s =>
    let word := lowered s
    if word = "1" ∨ word ∈ onWords then some true
    else if word = "0" ∨ word ∈ offWords then some false
    else none
  | _ => none

def lenientNumber : Json → Option Nat
  | .integer (.ofNat n) => if n ≤ maxNumber then some n else none
  | .bool b => some b.toNat
  | .float x =>
    if x.isNaN then some 0
    else if x.isNegative then some 0
    else
      match x.roundedMagnitude? with
      | some n => some (min n maxNumber)
      | none => some maxNumber
  | .string s =>
    let word := lowered s
    if word ∈ onWords then some 1
    else if word ∈ offWords then some 0
    else (numeral? s).filter (· ≤ maxNumber)
  | _ => none

/-- Converts between texts, numbers and switches. -/
def lenient : Reading := ⟨lenientText, lenientFlag, lenientNumber, true⟩

/-- The members of a record: by name, or by position up to the last one given. -/
def members? (r : Reading) (names : List String) : Json → Option (List (String × Json))
  | .object ms => some ms
  | .array items =>
    if r.surplus || items.length ≤ names.length then some (names.zip items) else none
  | _ => none

/-- Reads one member of a record, with a default if it is missing. -/
def member (ms : List (String × Json)) (name : String) (read : Json → Option α) (fallback : α) :
    Option α :=
  match ms.find? (·.1 = name) with
  | some (_, j) => read j
  | none => some fallback

/-- A value that may be `null`. -/
def nullable (read : Json → Option α) : Json → Option (Option α)
  | .null => some none
  | j => (read j).map some

def list (read : Json → Option α) : Json → Option (List α)
  | .array items => items.mapM read
  | _ => none

def dictionary (read : Json → Option α) : Json → Option (List (String × α))
  | .object ms => ms.mapM fun m => do return (m.1, ← read m.2)
  | _ => none

/-- A value of any shape. -/
def whole (j : Json) : Option Json := some j

def serverFields : List String := ["command", "args", "env", "name", "extensions",
  "root_patterns", "exclude_patterns", "installable", "install", "initialization_options",
  "enabled"]

def server (r : Reading) (j : Json) : Option ServerConfig := do
  let ms ← r.members? serverFields j
  return {
    command := ← member ms "command" r.text ""
    args := ← member ms "args" (list r.text) []
    env := ← member ms "env" (dictionary r.text) []
    name := ← member ms "name" (nullable r.text) none
    extensions := ← member ms "extensions" (list r.text) []
    rootPatterns := ← member ms "root_patterns" (list r.text) []
    excludePatterns := ← member ms "exclude_patterns" (list r.text) []
    installable := ← member ms "installable" r.flag false
    install := ← member ms "install" (list r.text) []
    initializationOptions := ← member ms "initialization_options" (nullable whole) none
    enabled := ← member ms "enabled" r.flag true
  }

def configFields : List String := ["diagnostics_timeout_ms", "initialize_timeout_ms",
  "retry_delays_ms", "builtin_servers", "disabled", "server"]

def config (r : Reading) (j : Json) : Option Config := do
  let ms ← r.members? configFields j
  return {
    diagnosticsTimeout := ← member ms "diagnostics_timeout_ms" r.number defaultDiagnosticsTimeout
    initializeTimeout := ← member ms "initialize_timeout_ms" (nullable r.number) none
    retryDelays := ← member ms "retry_delays_ms" (list r.number) defaultRetryDelays
    builtinServers := ← member ms "builtin_servers" r.flag true
    disabled := ← member ms "disabled" (list r.text) []
    servers := sortServers (← member ms "server" (dictionary r.server) [])
  }

end Reading

end ServerFleet.Config
