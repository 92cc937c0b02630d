/-!
Byte strings and their reading as UTF-8. A byte string splits into characters and ill-formed
runs; `decode?` succeeds when there is no ill-formed run, and `decodeLossy` puts one
replacement character in the place of each.
-/

namespace ServerFleet

/-- A sequence of octets, such as a file name, a path or the contents of a file. -/
abbrev Bytes := List UInt8

namespace Bytes

/-- The UTF-8 form of a text. -/
def ofString (s : String) : Bytes := s.toUTF8.toList

/-- The code of `/`, which separates the names in a path. -/
def slash : UInt8 := 47

/-- The code of `.`, which starts a hidden name and an extension. -/
def dot : UInt8 := 46

/-- The code of `:`, which separates the directories of a search path. -/
def colon : UInt8 := 58

def newline : UInt8 := 10

/-- An unfinished character: the bits read so far, how many octets are still owed, and the
least and greatest octet the next one may be. -/
structure Pending where
  value : Nat
  owed : Nat
  low : UInt8
  high : UInt8

/-- What an octet between two characters is the start of. -/
inductive Lead where
  | ascii (c : Char)
  | longer (p : Pending)
  | illFormed

/-- The well-formed first octets of UTF-8, with the narrowed range of the second one. -/
def lead (b : UInt8) : Lead :=
  let n := b.toNat
  if n < 0x80 then .ascii (Char.ofNat n)
  else if n < 0xC2 then .illFormed
  else if n < 0xE0 then .longer ⟨n - 0xC0, 1, 0x80, 0xBF⟩
  else if n = 0xE0 then .longer ⟨0, 2, 0xA0, 0xBF⟩
  else if n = 0xED then .longer ⟨0xD, 2, 0x80, 0x9F⟩
  else if n < 0xF0 then .longer ⟨n - 0xE0, 2, 0x80, 0xBF⟩
  else if n = 0xF0 then .longer ⟨0, 3, 0x90, 0xBF⟩
  else if n = 0xF4 then .longer ⟨4, 3, 0x80, 0x8F⟩
  else if n < 0xF4 then .longer ⟨n - 0xF0, 3, 0x80, 0xBF⟩
  else .illFormed

/-- The characters of a byte string in order, with `none` for each longest ill-formed run that
could have begun a character. -/
def scalarsAfter : Option Pending → Bytes → List (Option Char)
  | none, [] => []
  | some _, [] => [none]
  | some p, b :: rest =>
    if p.low ≤ b ∧ b ≤ p.high then
      let value := p.value * 64 + (b.toNat - 0x80)
      if p.owed ≤ 1 then some (Char.ofNat value) :: scalarsAfter none rest
      else scalarsAfter (some ⟨value, p.owed - 1, 0x80, 0xBF⟩) rest
    else
      none :: match lead b with
        | .ascii c => some c :: scalarsAfter none rest
        | .longer q => scalarsAfter (some q) rest
        | .illFormed => none :: scalarsAfter none rest
  | none, b :: rest =>
    match lead b with
    | .ascii c => some c :: scalarsAfter none rest
    | .longer q => scalarsAfter (some q) rest
    | .illFormed => none :: scalarsAfter none rest

/-- The characters of a byte string, with `none` for each ill-formed run. -/
def scalars (b : Bytes) : List (Option Char) := scalarsAfter none b

/-- The text a byte string spells, if it is well-formed UTF-8. -/
def decode? (b : Bytes) : Option String :=
  let cs := scalars b
  if cs.all Option.isSome then some (String.ofList (cs.filterMap id)) else none

/-- The text of a byte string, with U+FFFD for each ill-formed run. -/
def decodeLossy (b : Bytes) : String :=
  String.ofList ((scalars b).map (·.getD '\ufffd'))

/-- Lexicographic order on octets. -/
def compare : Bytes → Bytes → Ordering
  | [], [] => .eq
  | [], _ :: _ => .lt
  | _ :: _, [] => .gt
  | a :: as, b :: bs => if a < b then .lt else if b < a then .gt else compare as bs

def hexDigit? (c : Char) : Option Nat :=
  if '0' ≤ c ∧ c ≤ '9' then some (c.toNat - 48)
  else if 'a' ≤ c ∧ c ≤ 'f' then some (c.toNat - 87)
  else if 'A' ≤ c ∧ c ≤ 'F' then some (c.toNat - 55)
  else none

def ofHex? : List Char → Option Bytes
  | [] => some []
  | [_] => none
  | a :: b :: rest => do
    let high ← hexDigit? a
    let low ← hexDigit? b
    let tail ← ofHex? rest
    return UInt8.ofNat (high * 16 + low) :: tail

def hexChar (n : Nat) : Char := if n < 10 then Char.ofNat (48 + n) else Char.ofNat (87 + n)

/-- Two lower-case hexadecimal digits for each octet. -/
def toHex (b : Bytes) : String :=
  String.ofList (b.flatMap fun x => [hexChar (x.toNat / 16), hexChar (x.toNat % 16)])

end Bytes

/-- Order of texts by their UTF-8 octets. -/
def compareText (a b : String) : Ordering := Bytes.compare (Bytes.ofString a) (Bytes.ofString b)

end ServerFleet
