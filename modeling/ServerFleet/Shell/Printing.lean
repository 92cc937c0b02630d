import ServerFleet.Text.Bytes

/-!
The texts that the printing commands of the shell write: escapes in a text, the words of `echo`,
and the formats of `printf`.
-/

namespace ServerFleet.Shell

def octalDigit? (b : UInt8) : Option Nat :=
  if 48 ≤ b ∧ b < 56 then some (b.toNat - 48) else none

def octal : Nat → Nat → Bytes → Nat × Bytes
  | 0, v, bs => (v, bs)
  | n + 1, v, b :: bs =>
    match octalDigit? b with
    | some d => octal n (8 * v + d) bs
    | none => (v, b :: bs)
  | _ + 1, v, [] => (v, [])

/-- The control octets behind the letters of escapes. -/
def controls : List (Char × UInt8) :=
  [('a', 7), ('b', 8), ('f', 12), ('n', 10), ('r', 13), ('t', 9), ('v', 11), ('\\', 92)]

/-- The octet of an escape behind its backslash, and what follows. With `zeroLeads`, three digits
may follow a leading zero. -/
def escape? (zeroLeads : Bool) : Bytes → Option (UInt8 × Bytes)
  | [] => none
  | b :: bs =>
    match controls.find? (·.1.toNat.toUInt8 = b) with
    | some (_, c) => some (c, bs)
    | none =>
      if (octalDigit? b).isNone then none
      else
        let digits := if zeroLeads && b = 48 then 4 else 3
        let (v, rest) := octal digits 0 (b :: bs)
        some (v.toUInt8, rest)

/-- A text with its escapes replaced, and whether `\c` cut it short. Fuel: the length. -/
def unescapeFrom : Nat → Bytes → Bytes × Bool
  | 0, _ => ([], false)
  | _ + 1, [] => ([], false)
  | n + 1, b :: bs =>
    if b = 92 then
      if bs.head? = some 99 then ([], true)
      else match escape? true bs with
        | some (c, rest) =>
          let (t, cut) := unescapeFrom n rest
          (c :: t, cut)
        | none =>
          let (t, cut) := unescapeFrom n bs
          (b :: t, cut)
    else
      let (t, cut) := unescapeFrom n bs
      (b :: t, cut)

/-- A text with its escapes replaced, and whether `\c` cut it short. -/
def unescape (bs : Bytes) : Bytes × Bool := unescapeFrom bs.length bs

/-- What `echo` writes for its words: they are joined by blanks, and a first `-n` leaves out the
line end. -/
def echoText (ws : List Bytes) : Bytes :=
  let (bare, ws) := match ws with
    | [45, 110] :: rest => (true, rest)
    | ws => (false, ws)
  let (t, cut) := unescape ([32].intercalate ws)
  if bare || cut then t else t ++ [Bytes.newline]

def leadingNumber (bs : Bytes) : Int :=
  let digits (bs : Bytes) : Nat :=
    (bs.takeWhile fun b => 48 ≤ b && b < 58).foldl (fun v b => 10 * v + (b.toNat - 48)) 0
  match bs with
  | 45 :: rest => -(digits rest : Int)
  | 43 :: rest => digits rest
  | bs => digits bs

/-- One pass over a format: what is written, the words that are left, and whether the output was
cut short. Fuel: the length of the format. -/
def formatOnce : Nat → Bytes → List Bytes → Bytes × List Bytes × Bool
  | 0, _, ws => ([], ws, false)
  | _ + 1, [], ws => ([], ws, false)
  | n + 1, b :: bs, ws =>
    let write (t : Bytes) (rest : Bytes) (ws : List Bytes) : Bytes × List Bytes × Bool :=
      let (out, ws, cut) := formatOnce n rest ws
      (t ++ out, ws, cut)
    if b = 92 then
      match escape? false bs with
      | some (c, rest) => write [c] rest ws
      | none => if bs.head? = some 99 then ([], ws, true) else write [b] bs ws
    else if b = 37 then
      match bs with
      | 37 :: rest => write [37] rest ws
      | 115 :: rest => write (ws.headD []) rest ws.tail
      | 98 :: rest =>
        let (t, cut) := unescape (ws.headD [])
        if cut then (t, ws.tail, true) else write t rest ws.tail
      | 99 :: rest => write ((ws.headD []).take 1) rest ws.tail
      | c :: rest =>
        if c = 100 || c = 105 || c = 117 then
          write (Bytes.ofString (toString (leadingNumber (ws.headD [])))) rest ws.tail
        else write [b] bs ws
      | [] => ([b], ws, false)
    else write [b] bs ws

/-- What `printf` writes: the format is used again as long as it takes words and some are left.
Fuel: the number of words. -/
def formatText (format : Bytes) : Nat → List Bytes → Bytes
  | 0, ws => (formatOnce format.length format ws).1
  | n + 1, ws =>
    let (out, left, cut) := formatOnce format.length format ws
    if cut || left.isEmpty || left.length = ws.length then out
    else out ++ formatText format n left

end ServerFleet.Shell
