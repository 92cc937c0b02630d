import ServerFleet.Decimal.Binary64
import ServerFleet.Text.Bytes

/-!
Quoted texts of TOML: basic ones, in which a backslash starts an escape, and literal ones, each on
one line or over several. Every reader starts behind the opening quotes and gives back what
follows the closing ones.
-/

namespace ServerFleet.Toml

/-- Whether a text may hold a character as it is; line breaks are not its concern. -/
def isPlain (c : Char) : Bool := c == '\t' || (0x20 ≤ c.toNat && c.toNat != 0x7F)

def hexNumber? : Nat → List Char → Option (Nat × List Char)
  | 0, cs => some (0, cs)
  | n + 1, c :: rest => do
    let d ← Bytes.hexDigit? c
    let (v, rest) ← hexNumber? n rest
    return (d * twoTo (4 * n) + v, rest)
  | _ + 1, [] => none

/-- A code point that is a character. -/
def charOfCode? (n : Nat) : Option Char :=
  if n < 0xD800 ∨ (0xE000 ≤ n ∧ n < 0x110000) then some (Char.ofNat n) else none

/-- The character of an escape, behind its backslash. -/
def escape? : List Char → Option (Char × List Char)
  | [] => none
  | c :: rest =>
    let coded (digits : Nat) : Option (Char × List Char) := do
      let (n, rest) ← hexNumber? digits rest
      return (← charOfCode? n, rest)
    if c = 'b' then some ('\x08', rest)
    else if c = 't' then some ('\t', rest)
    else if c = 'n' then some ('\n', rest)
    else if c = 'f' then some ('\x0c', rest)
    else if c = 'r' then some ('\r', rest)
    else if c = 'e' then some ('\x1b', rest)
    else if c = '\x22' then some ('\x22', rest)
    else if c = '\\' then some ('\\', rest)
    else if c = 'x' then coded 2
    else if c = 'u' then coded 4
    else if c = 'U' then coded 8
    else none

/-- A line break, behind which the next line starts. -/
def lineBreak? : List Char → Option (List Char)
  | '\n' :: rest => some rest
  | '\r' :: '\n' :: rest => some rest
  | _ => none

/-- Skips blanks and tabs. -/
def skipBlank : List Char → List Char
  | c :: rest => if c = ' ' ∨ c = '\t' then skipBlank rest else c :: rest
  | [] => []

def skipBlankLines : List Char → List Char
  | '\r' :: '\n' :: rest => skipBlankLines rest
  | c :: rest => if c = ' ' ∨ c = '\t' ∨ c = '\n' then skipBlankLines rest else c :: rest
  | [] => []

def basicLine : Nat → List Char → Option (List Char × List Char)
  | 0, _ => none
  | fuel + 1, cs =>
    match cs with
    | '\x22' :: rest => some ([], rest)
    | '\\' :: rest => do
      let (c, rest) ← escape? rest
      let (text, rest) ← basicLine fuel rest
      return (c :: text, rest)
    | c :: rest =>
      if isPlain c then do
        let (text, rest) ← basicLine fuel rest
        return (c :: text, rest)
      else none
    | [] => none

def literalLine : List Char → Option (List Char × List Char)
  | [] => none
  | c :: rest =>
    if c = '\x27' then some ([], rest)
    else if isPlain c then do
      let (text, rest) ← literalLine rest
      return (c :: text, rest)
    else none

/-- The end of a text over several lines: three closing quotes, with up to two quotes before them
that belong to the text. -/
def closing? (quote : Char) (cs : List Char) : Option (List Char × List Char) :=
  let run := (cs.takeWhile (· = quote)).length
  if 3 ≤ run then
    let kept := min (run - 3) 2
    some (List.replicate kept quote, cs.drop (kept + 3))
  else none

/-- A text over several lines, with escapes when `basic`. -/
def lines (basic : Bool) (quote : Char) : Nat → List Char → Option (List Char × List Char)
  | 0, _ => none
  | fuel + 1, cs =>
    match closing? quote cs with
    | some done => some done
    | none =>
      match lineBreak? cs with
      | some rest => do
        let (text, rest) ← lines basic quote fuel rest
        return ('\n' :: text, rest)
      | none =>
        match cs with
        | [] => none
        | c :: rest =>
          if basic && c = '\\' then
            match lineBreak? (skipBlank rest) with
            | some rest => lines basic quote fuel (skipBlankLines rest)
            | none => do
              let (e, rest) ← escape? rest
              let (text, rest) ← lines basic quote fuel rest
              return (e :: text, rest)
          else if isPlain c then do
            let (text, rest) ← lines basic quote fuel rest
            return (c :: text, rest)
          else none

/-- A line break right behind the opening quotes does not belong to the text. -/
def skipFirstBreak (cs : List Char) : List Char := (lineBreak? cs).getD cs

def quotedText? (cs : List Char) : Option (String × List Char) :=
  let fuel := cs.length + 1
  let result := match cs with
    | '\x22' :: '\x22' :: '\x22' :: rest => lines true '\x22' fuel (skipFirstBreak rest)
    | '\x27' :: '\x27' :: '\x27' :: rest => lines false '\x27' fuel (skipFirstBreak rest)
    | '\x22' :: rest => basicLine fuel rest
    | '\x27' :: rest => literalLine rest
    | _ => none
  result.map fun (text, rest) => (String.ofList text, rest)

end ServerFleet.Toml
