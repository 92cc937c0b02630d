import ServerFleet.Json.Basic
import ServerFleet.Text.Bytes

/-!
Reading JSON text. Each reader takes the characters that are left and gives back its value with
the characters after it. Lists and objects are read with a bound on the number of characters
left, which no reader exceeds, and with a limit on nesting.
-/

namespace ServerFleet.Json

open Decimal (Binary64)

/-- Skips the white space that JSON allows between tokens. -/
def skipBlank : List Char → List Char
  | c :: rest => if c = ' ' ∨ c = '\n' ∨ c = '\t' ∨ c = '\r' then skipBlank rest else c :: rest
  | [] => []

/-- Four hexadecimal digits. -/
def hexUnit? : List Char → Option (Nat × List Char)
  | a :: b :: c :: d :: rest => do
    let a ← Bytes.hexDigit? a
    let b ← Bytes.hexDigit? b
    let c ← Bytes.hexDigit? c
    let d ← Bytes.hexDigit? d
    return (a * 4096 + b * 256 + c * 16 + d, rest)
  | _ => none

/-- The character after `\u`: a code point, or a pair of surrogate halves. -/
def unicodeEscape? (cs : List Char) : Option (Char × List Char) := do
  let (high, rest) ← hexUnit? cs
  if 0xDC00 ≤ high ∧ high < 0xE000 then none
  else if 0xD800 ≤ high ∧ high < 0xDC00 then
    match rest with
    | '\\' :: 'u' :: tail =>
      let (low, rest) ← hexUnit? tail
      if 0xDC00 ≤ low ∧ low < 0xE000 then
        return (Char.ofNat (0x10000 + (high - 0xD800) * 1024 + (low - 0xDC00)), rest)
      else none
    | _ => none
  else return (Char.ofNat high, rest)

/-- The character a one-letter escape stands for. -/
def shortEscape? (c : Char) : Option Char :=
  if c = '\x22' ∨ c = '\\' ∨ c = '/' then some c
  else if c = 'b' then some '\x08'
  else if c = 'f' then some '\x0c'
  else if c = 'n' then some '\n'
  else if c = 'r' then some '\r'
  else if c = 't' then some '\t'
  else none

/-- The rest of a text after its opening quote. -/
def readText : Nat → List Char → Option (List Char × List Char)
  | 0, _ => none
  | fuel + 1, cs =>
    match cs with
    | [] => none
    | '\x22' :: rest => some ([], rest)
    | '\\' :: 'u' :: rest => do
      let (c, rest) ← unicodeEscape? rest
      let (text, rest) ← readText fuel rest
      return (c :: text, rest)
    | '\\' :: e :: rest => do
      let c ← shortEscape? e
      let (text, rest) ← readText fuel rest
      return (c :: text, rest)
    | c :: rest =>
      if c.toNat < 0x20 then none
      else do
        let (text, rest) ← readText fuel rest
        return (c :: text, rest)

def digitValue (c : Char) : Nat := c.toNat - 48

/-- The greatest number that fits in sixty-four bits. -/
def maxWord : Nat := twoTo 64 - 1

/-- Takes digits into a significand of sixty-four bits; gives it with the number of digits taken
and the digits that no longer fit. -/
def takeDigits (significand : Nat) : List Char → Nat × Nat × List Char
  | [] => (significand, 0, [])
  | c :: rest =>
    let next := significand * 10 + digitValue c
    if maxWord < next then (significand, 0, c :: rest)
    else
      let (s, n, left) := takeDigits next rest
      (s, n + 1, left)

/-- `significand * 10 ^ exponent` in double precision, rounded after the significand and after
the power. `none` when it is too large. -/
def scaleFloat? (negative : Bool) (significand : Nat) (exponent : Int) : Option Json :=
  let power (e : Nat) : Binary64 := Binary64.ofDecimal false 1 e
  let product (x y : Binary64) : Binary64 :=
    match x.ratio?, y.ratio? with
    | some (a, b), some (c, d) => Binary64.ofRatio negative (a * c) (b * d)
    | _, _ => Binary64.infinity negative
  let quotient (x y : Binary64) : Binary64 :=
    match x.ratio?, y.ratio? with
    | some (a, b), some (c, d) => Binary64.ofRatio negative (a * d) (b * c)
    | _, _ => Binary64.infinity negative
  let start := Binary64.ofRatio negative significand 1
  if start.isZero then some (float start)
  else if 308 < exponent then none
  else if 0 ≤ exponent then
    let x := product start (power exponent.toNat)
    if x.isFinite then some (float x) else none
  else
    let steps := (-exponent - 1).toNat / 308
    let rest := (-exponent).toNat - steps * 308
    if 4 < steps then some (float (Binary64.zero negative))
    else
      let lowered := (List.range steps).foldl (fun x _ => quotient x (power 308)) start
      some (float (if lowered.isZero then lowered else quotient lowered (power rest)))

def readExponent : List Char → Option (Option (Bool × List Char) × List Char)
  | c :: rest =>
    if c = 'e' ∨ c = 'E' then
      let (negative, rest) := match rest with
        | '-' :: r => (true, r)
        | '+' :: r => (false, r)
        | r => (false, r)
      let digits := rest.takeWhile Char.isDigit
      if digits = [] then none else some (some (negative, digits), rest.dropWhile Char.isDigit)
    else some (none, c :: rest)
  | [] => some (none, [])

/-- A fractional number from its parts: the digits of an integer part that fit and the count of
those that do not, the digits after the point, and the exponent. -/
def fractional? (negative : Bool) (whole : List Char) (fraction : List Char)
    (exponent : Option (Bool × List Char)) : Option Json :=
  let (s, _, extra) := takeDigits 0 whole
  let (significand, taken) :=
    let (s', n, _) := takeDigits s fraction
    (s', n)
  let start : Int := (extra.length : Int) - (taken : Int)
  match exponent with
  | none => scaleFloat? negative significand start
  | some (down, digits) =>
    let value := digits.foldl (fun n c => n * 10 + digitValue c) 0
    if twoTo 31 ≤ value then
      if significand ≠ 0 ∧ !down then none else some (float (Binary64.zero negative))
    else scaleFloat? negative significand (if down then start - value else start + value)

/-- An integer literal: exact when it fits sixty-four bits, else in double precision. -/
def integral? (negative : Bool) (digits : List Char) : Option Json :=
  let n := digits.foldl (fun n c => n * 10 + digitValue c) 0
  if maxWord < n then fractional? negative digits [] none
  else if !negative then some (integer n)
  else if n = 0 then some (float (Binary64.zero true))
  else if n ≤ twoTo 63 then some (integer (-(n : Int)))
  else some (float (Binary64.ofRatio true n 1))

/-- A number: no leading zeros, and digits on both sides of a point. -/
def readNumber (cs : List Char) : Option (Json × List Char) := do
  let (negative, cs) := match cs with
    | '-' :: rest => (true, rest)
    | other => (false, other)
  let whole := cs.takeWhile Char.isDigit
  let rest := cs.dropWhile Char.isDigit
  if whole = [] ∨ (whole.head? = some '0' ∧ 1 < whole.length) then none
  else
    match rest with
    | '.' :: tail =>
      let fraction := tail.takeWhile Char.isDigit
      if fraction = [] then none
      else
        let (exponent, rest) ← readExponent (tail.dropWhile Char.isDigit)
        let value ← fractional? negative whole fraction exponent
        return (value, rest)
    | other =>
      let (exponent, rest) ← readExponent other
      match exponent with
      | none => return (← integral? negative whole, rest)
      | some _ => return (← fractional? negative whole [] exponent, rest)

/-- Takes an expected word off the front. -/
def expect? (word : List Char) (cs : List Char) : Option (List Char) :=
  if word.isPrefixOf cs then some (cs.drop word.length) else none

mutual

/-- A value, with at most `depth` levels of nesting. -/
def readValue (fuel depth : Nat) (cs : List Char) : Option (Json × List Char) :=
  match fuel with
  | 0 => none
  | fuel + 1 =>
    match skipBlank cs with
    | '[' :: rest =>
      match depth with
      | 0 => none
      | depth + 1 =>
        match skipBlank rest with
        | ']' :: rest => some (array [], rest)
        | rest => do
          let (items, rest) ← readItems fuel depth rest
          return (array items, rest)
    | '\x7b' :: rest =>
      match depth with
      | 0 => none
      | depth + 1 =>
        match skipBlank rest with
        | '\x7d' :: rest => some (object [], rest)
        | rest => do
          let (members, rest) ← readMembers fuel depth [] rest
          return (object members, rest)
    | '\x22' :: rest => do
      let (text, rest) ← readText (rest.length + 1) rest
      return (string (String.ofList text), rest)
    | 't' :: rest => (expect? ['r', 'u', 'e'] rest).map (bool true, ·)
    | 'f' :: rest => (expect? ['a', 'l', 's', 'e'] rest).map (bool false, ·)
    | 'n' :: rest => (expect? ['u', 'l', 'l'] rest).map (null, ·)
    | other => readNumber other

def readItems (fuel depth : Nat) (cs : List Char) : Option (List Json × List Char) :=
  match fuel with
  | 0 => none
  | fuel + 1 => do
    let (item, rest) ← readValue fuel depth cs
    match skipBlank rest with
    | ',' :: rest =>
      let (items, rest) ← readItems fuel depth rest
      return (item :: items, rest)
    | ']' :: rest => return ([item], rest)
    | _ => none

def readMembers (fuel depth : Nat) (found : List (String × Json)) (cs : List Char) :
    Option (List (String × Json) × List Char) :=
  match fuel with
  | 0 => none
  | fuel + 1 =>
    match skipBlank cs with
    | '\x22' :: rest => do
      let (text, rest) ← readText (rest.length + 1) rest
      match skipBlank rest with
      | ':' :: rest =>
        let (value, rest) ← readValue fuel depth rest
        let found := setMember (String.ofList text) value found
        match skipBlank rest with
        | ',' :: rest => readMembers fuel depth found rest
        | '\x7d' :: rest => return (found, rest)
        | _ => none
      | _ => none
    | _ => none

end

def depthLimit : Nat := 127

/-- The value a text spells, if it is one JSON value with nothing after it. -/
def parse? (text : String) : Option Json :=
  let cs := text.toList
  match readValue (cs.length + 1) depthLimit cs with
  | some (value, rest) => if skipBlank rest = [] then some value else none
  | none => none

end ServerFleet.Json
