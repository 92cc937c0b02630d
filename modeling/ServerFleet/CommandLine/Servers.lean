import ServerFleet.CommandLine.Workplace
import ServerFleet.Json.Printer
import ServerFleet.Text.Layout

/-!
The list of the registered servers, as a table and as JSON. The columns of the table are padded
by characters; the first one is as wide as the longest id has octets, and the last one is cut so
that a row fits the terminal, down to a least width.
-/

namespace ServerFleet.CommandLine

def idWidth (r : Registry) : Nat := max (longestId r) 2

/-- The width of the other columns together with the gaps. -/
def fixedWidth : Nat := 24

/-- The room that the extensions have at least. -/
def leastExtensionWidth : Nat := 12

def extensionWidth (columns idWidth : Nat) : Nat :=
  max (columns - (idWidth + fixedWidth)) leastExtensionWidth

def tableRow (width : Nat) (id enabled installed extensions : String) : String :=
  Text.padRight id width ++ "  " ++ Text.padRight enabled 8 ++ "  " ++
    Text.padRight installed 9 ++ "  " ++ extensions

def yesOrNo (b : Bool) : String := if b then "yes" else "no"

def extensionList (d : ServerDefinition) : String := " ".intercalate d.extensions

def serversTable (w : Workplace) (c : Config) (r : Registry) : List String :=
  if r.isEmpty then [noServers]
  else
    let width := idWidth r
    tableRow width "ID" "ENABLED" "INSTALLED" "EXTENSIONS" :: r.servers.map fun d =>
      tableRow width d.id (yesOrNo (c.isEnabled d.id)) (yesOrNo (w.isInstalled d))
        (Text.truncate (extensionList d) (extensionWidth w.columns width))

def serverJson (w : Workplace) (c : Config) (d : ServerDefinition) : Json :=
  .object [("id", .string d.id), ("name", .string d.name), ("enabled", .bool (c.isEnabled d.id)),
    ("installed", .bool (w.isInstalled d)), ("installable", .bool d.installable),
    ("extensions", .strings d.extensions), ("root_patterns", .strings d.rootPatterns),
    ("exclude_patterns", .strings d.excludePatterns)]

def serversJson (w : Workplace) (c : Config) (r : Registry) : String :=
  (Json.array (r.servers.map (serverJson w c))).pretty

end ServerFleet.CommandLine
