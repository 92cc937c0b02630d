import ServerFleet.Decimal.Binary64
import ServerFleet.Json.Basic
import ServerFleet.Protocol.Uri

/-!
The forms of protocol values. A shape says which JSON values fit; `conform` gives a fitting
value in its normal form: members that the shape does not name are dropped, and so are optional
members that are `null`. A record may also be given as an array of all its members in order.
-/

namespace ServerFleet.Protocol

/-- A form of JSON values. -/
inductive Shape where
  | text
  | flag
  /-- An integer between two bounds, both included. -/
  | integer (low high : Int)
  /-- Any value at all. -/
  | anything
  /-- A reference to a resource. -/
  | reference
  /-- One of a few words. -/
  | word (words : List String)
  | list (item : Shape)
  /-- Members by name; the mark says whether a member is required. -/
  | record (fields : List (String × Bool × Shape))
  /-- The first shape that fits. -/
  | oneOf (shapes : List Shape)
deriving Inhabited

namespace Shape

/-- The members of a record as they were given: by name, or by position. -/
def given? (names : List String) : Json → Option (List (Option Json))
  | j@(.object _) => some (names.map j.get?)
  | .array items => if items.length = names.length then some (items.map some) else none
  | _ => none

mutual

/-- The normal form of a value that fits a shape. -/
def conform : Shape → Json → Option Json
  | text, .string s => some (.string s)
  | flag, .bool b => some (.bool b)
  | integer low high, .integer i => if low ≤ i ∧ i ≤ high then some (.integer i) else none
  | anything, j => some j
  | reference, .string s => if Uri.isReference s then some (.string s) else none
  | word words, .string s => if words.contains s then some (.string s) else none
  | list item, .array js => (js.mapM (conform item)).map .array
  | record fields, j =>
    match given? (fields.map (·.1)) j with
    | some values => (conformFields fields values).map .object
    | none => none
  | oneOf shapes, j => conformFirst shapes j
  | _, _ => none

def conformFields : List (String × Bool × Shape) → List (Option Json) →
    Option (List (String × Json))
  | [], _ => some []
  | (name, required, shape) :: fields, values =>
    let value := values.head?.join
    let rest := values.drop 1
    if required then
      match value with
      | none => none
      | some j => do
        let v ← conform shape j
        return (name, v) :: (← conformFields fields rest)
    else
      match value with
      | none | some .null => conformFields fields rest
      | some j => do
        let v ← conform shape j
        return (name, v) :: (← conformFields fields rest)

def conformFirst : List Shape → Json → Option Json
  | [], _ => none
  | shape :: shapes, j =>
    match conform shape j with
    | some v => some v
    | none => conformFirst shapes j

end

def required (name : String) (s : Shape) : String × Bool × Shape := (name, true, s)

def optional (name : String) (s : Shape) : String × Bool × Shape := (name, false, s)

def count : Shape := integer 0 (twoTo 32 - 1)

def code : Shape := integer (-twoTo 31) (twoTo 31 - 1)

def position : Shape := record [required "line" count, required "character" count]

def range : Shape := record [required "start" position, required "end" position]

def location : Shape := record [required "uri" reference, required "range" range]

def relatedInformation : Shape :=
  record [required "location" location, required "message" text]

def diagnostic : Shape := record [
  required "range" range, optional "severity" code, optional "code" (oneOf [code, text]),
  optional "codeDescription" (record [required "href" reference]), optional "source" text,
  required "message" text, optional "relatedInformation" (list relatedInformation),
  optional "tags" (list code), optional "data" anything]

def markedText : Shape :=
  oneOf [text, record [required "language" text, required "value" text]]

def markup : Shape :=
  record [required "kind" (word ["plaintext", "markdown"]), required "value" text]

def hover : Shape := record [
  required "contents" (oneOf [markedText, list markedText, markup]), optional "range" range]

def textEdit : Shape := record [required "range" range, required "newText" text]

def insertOrReplace : Shape :=
  record [required "newText" text, required "insert" range, required "replace" range]

def command : Shape := record [
  required "title" text, required "command" text, optional "arguments" (list anything)]

def completionItem : Shape := record [
  required "label" text,
  optional "labelDetails" (record [optional "detail" text, optional "description" text]),
  optional "kind" code, optional "detail" text, optional "documentation" (oneOf [text, markup]),
  optional "deprecated" flag, optional "preselect" flag, optional "sortText" text,
  optional "filterText" text, optional "insertText" text, optional "insertTextFormat" code,
  optional "insertTextMode" code, optional "textEdit" (oneOf [textEdit, insertOrReplace]),
  optional "additionalTextEdits" (list textEdit), optional "command" command,
  optional "commitCharacters" (list text), optional "data" anything,
  optional "tags" (list code)]

end Shape

end ServerFleet.Protocol
