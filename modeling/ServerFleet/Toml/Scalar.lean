import ServerFleet.Json.Basic
import ServerFleet.Toml.Text
import ServerFleet.Text.Layout

/-!
Numbers, words and points in time in TOML. A point in time is read as the text of its normal form.
-/

namespace ServerFleet.Toml

open Decimal (Binary64)

def decimalValue (digits : List Char) : Nat :=
  digits.foldl (fun n c => n * 10 + (c.toNat - 48)) 0

/-- Digits with single underscores between neighbours; gives the digits alone. -/
def groupedDigits? (isDigit : Char → Bool) : List Char → Option (List Char)
  | [] => none
  | [c] => if isDigit c then some [c] else none
  | c :: '_' :: rest => if isDigit c then (groupedDigits? isDigit rest).map (c :: ·) else none
  | c :: rest => if isDigit c then (groupedDigits? isDigit rest).map (c :: ·) else none

def isDecimal (c : Char) : Bool := '0' ≤ c && c ≤ '9'

def isHexadecimal (c : Char) : Bool := (Bytes.hexDigit? c).isSome

def isOctal (c : Char) : Bool := '0' ≤ c && c ≤ '7'

def isBinary (c : Char) : Bool := c == '0' || c == '1'

def maxInteger : Nat := twoTo 63 - 1

def basedInteger? (base : Nat) (isDigit : Char → Bool) (cs : List Char) : Option Json := do
  let digits ← groupedDigits? isDigit cs
  let value := digits.foldl (fun n c => n * base + (Bytes.hexDigit? c).getD 0) 0
  if value ≤ maxInteger then some (.integer value) else none

def takeSign : List Char → Bool × List Char
  | '-' :: rest => (true, rest)
  | '+' :: rest => (false, rest)
  | other => (false, other)

/-- The digits of an integer part: no zero in front of other digits. -/
def wholeDigits? (cs : List Char) : Option (List Char) := do
  let digits ← groupedDigits? isDecimal cs
  if digits.head? = some '0' ∧ 1 < digits.length then none else some digits

def decimalInteger? (cs : List Char) : Option Json := do
  let (negative, rest) := takeSign cs
  let digits ← wholeDigits? rest
  let value := decimalValue digits
  if negative then
    if value ≤ maxInteger + 1 then some (.integer (-(value : Int))) else none
  else if value ≤ maxInteger then some (.integer value)
  else none

/-- A number with a fraction, an exponent or both. -/
def fractional? (cs : List Char) : Option Json := do
  let (negative, rest) := takeSign cs
  let mantissa := rest.takeWhile fun c => c ≠ 'e' ∧ c ≠ 'E'
  let exponentPart := rest.drop mantissa.length
  let whole := mantissa.takeWhile (· ≠ '.')
  let fractionPart := mantissa.drop whole.length
  let wholeDigits ← wholeDigits? whole
  let fraction ← match fractionPart with
    | [] => some []
    | _ :: digits => groupedDigits? isDecimal digits
  let exponent : Int ← match exponentPart with
    | [] => some 0
    | _ :: digits => do
      let (down, digits) := takeSign digits
      let digits ← groupedDigits? isDecimal digits
      let value : Int := decimalValue digits
      some (if down then -value else value)
  if fractionPart = [] ∧ exponentPart = [] then none
  else
    let x := Binary64.ofDecimal negative (decimalValue (wholeDigits ++ fraction))
      (exponent - fraction.length)
    if x.isFinite then some (.float x) else none

/-- Infinity and the value that is no number. -/
def specialFloat? (cs : List Char) : Option Json :=
  let (negative, rest) := takeSign cs
  if rest = ['i', 'n', 'f'] then some (.float (Binary64.infinity negative))
  else if rest = ['n', 'a', 'n'] then some (.float (Binary64.nan negative))
  else none

def twoDigits? : List Char → Option (Nat × List Char)
  | a :: b :: rest =>
    if isDecimal a && isDecimal b then some (decimalValue [a, b], rest) else none
  | _ => none

def isLeapYear (y : Nat) : Bool := (y % 4 == 0 && y % 100 != 0) || y % 400 == 0

def daysInMonth (y m : Nat) : Nat :=
  if m = 2 then (if isLeapYear y then 29 else 28)
  else if m = 4 ∨ m = 6 ∨ m = 9 ∨ m = 11 then 30
  else 31

def padded (width n : Nat) : String := String.ofList (Text.paddedDigits width n)

def date? : List Char → Option (String × List Char)
  | a :: b :: c :: d :: '-' :: rest => do
    if !([a, b, c, d].all isDecimal) then none
    let year := decimalValue [a, b, c, d]
    let (month, rest) ← twoDigits? rest
    match rest with
    | '-' :: rest =>
      let (day, rest) ← twoDigits? rest
      if 1 ≤ month ∧ month ≤ 12 ∧ 1 ≤ day ∧ day ≤ daysInMonth year month then
        some (padded 4 year ++ "-" ++ padded 2 month ++ "-" ++ padded 2 day, rest)
      else none
    | _ => none
  | _ => none

/-- The fraction of a second: at most nine digits count, without zeros at the end. -/
def secondFraction? : List Char → Option (String × List Char)
  | '.' :: rest =>
    let digits := rest.takeWhile isDecimal
    if digits = [] then none
    else
      let kept := ((digits.take 9).reverse.dropWhile (· = '0')).reverse
      some ("." ++ (if kept = [] then "0" else String.ofList kept), rest.drop digits.length)
  | other => some ("", other)

/-- A time of day in its normal form; the seconds may be missing. -/
def time? (cs : List Char) : Option (String × List Char) := do
  let (hour, rest) ← twoDigits? cs
  match rest with
  | ':' :: rest =>
    let (minute, rest) ← twoDigits? rest
    if 23 < hour ∨ 59 < minute then none
    let start := padded 2 hour ++ ":" ++ padded 2 minute
    match rest with
    | ':' :: rest =>
      let (second, rest) ← twoDigits? rest
      if 60 < second then none
      let (fraction, rest) ← secondFraction? rest
      some (start ++ ":" ++ padded 2 second ++ fraction, rest)
    | other => some (start, other)
  | _ => none

/-- A distance from universal time in its normal form, or nothing. -/
def offset? : List Char → Option (String × List Char)
  | 'Z' :: rest => some ("Z", rest)
  | 'z' :: rest => some ("Z", rest)
  | c :: rest =>
    if c = '+' ∨ c = '-' then do
      let (hour, rest) ← twoDigits? rest
      match rest with
      | ':' :: rest =>
        let (minute, rest) ← twoDigits? rest
        if 23 < hour ∨ 59 < minute then none
        else some (c.toString ++ padded 2 hour ++ ":" ++ padded 2 minute, rest)
      | _ => none
    else some ("", c :: rest)
  | [] => some ("", [])

/-- A date, a time of day or both, as a whole. -/
def moment? (cs : List Char) : Option Json := do
  match date? cs with
  | some (date, []) => some (.string date)
  | some (date, c :: rest) =>
    if c = 'T' ∨ c = 't' ∨ c = ' ' then
      let (time, rest) ← time? rest
      let (offset, rest) ← offset? rest
      if rest = [] then some (.string (date ++ "T" ++ time ++ offset)) else none
    else none
  | none =>
    let (time, rest) ← time? cs
    if rest = [] then some (.string time) else none

/-- A value without quotes or brackets, from all its characters. -/
def bareValue? (cs : List Char) : Option Json :=
  match cs with
  | ['t', 'r', 'u', 'e'] => some (.bool true)
  | ['f', 'a', 'l', 's', 'e'] => some (.bool false)
  | '0' :: 'x' :: digits => basedInteger? 16 isHexadecimal digits
  | '0' :: 'o' :: digits => basedInteger? 8 isOctal digits
  | '0' :: 'b' :: digits => basedInteger? 2 isBinary digits
  | other =>
    (decimalInteger? other).or <| (specialFloat? other).or <| (fractional? other).or (moment? other)

/-- Whether a character may belong to a bare value. -/
def isBareChar (c : Char) : Bool :=
  isDecimal c || ('a' ≤ c && c ≤ 'z') || ('A' ≤ c && c ≤ 'Z') || c == '+' || c == '-' ||
    c == '_' || c == '.' || c == ':'

/-- The characters of a bare value and what follows. A date and a time may have a blank in
between. -/
def takeBare (cs : List Char) : List Char × List Char :=
  let head := cs.takeWhile isBareChar
  let rest := cs.drop head.length
  match date? head, rest with
  | some (_, []), ' ' :: d :: more =>
    if isDecimal d then
      let time := (d :: more).takeWhile isBareChar
      (head ++ ' ' :: time, (d :: more).drop time.length)
    else (head, rest)
  | _, _ => (head, rest)

end ServerFleet.Toml
