import ServerFleet.Text.Bytes
import ServerFleet.Text.Visible

/-!
Laying out text in columns: cutting a text to a width and filling it up to one. Widths count
characters.

A quoted literal has a text between double quotes; a quote and a backslash get a backslash, and a
character that is not visible is written by a short escape or by its code point in braces.
-/

namespace ServerFleet.Text

def ellipsis : String := "..."

def dots (n : Nat) : String := String.ofList (List.replicate n '.')

/-- Cuts a text to a width, ending it in `ellipsis` when something was cut off. A width that
leaves no room beside the mark gives dots alone. -/
def truncate (s : String) (width : Nat) : String :=
  if width ≤ 3 then dots width
  else if s.length ≤ width then s
  else String.ofList (s.toList.take (width - 3)) ++ ellipsis

/-- Fills a text up to a width with blanks on the right. -/
def padRight (s : String) (width : Nat) : String :=
  s ++ String.ofList (List.replicate (width - s.length) ' ')

/-- The decimal digits of `n`, with zeros in front up to `width`. -/
def paddedDigits (width n : Nat) : List Char :=
  let digits := Nat.toDigits 10 n
  List.replicate (width - digits.length) '0' ++ digits

/-- The hexadecimal digits of a number, without leading zeros. -/
def hexDigits (n : Nat) : List Char := Nat.toDigits 16 n

def escapeChar (c : Char) : List Char :=
  if c = '\x00' then ['\\', '0']
  else if c = '\t' then ['\\', 't']
  else if c = '\n' then ['\\', 'n']
  else if c = '\r' then ['\\', 'r']
  else if c = '\\' then ['\\', '\\']
  else if c = '\x22' then ['\\', '\x22']
  else if isVisible c then [c]
  else ['\\', 'u', '\x7b'] ++ hexDigits c.toNat ++ ['\x7d']

def quote (s : String) : String :=
  String.ofList (['\x22'] ++ s.toList.flatMap escapeChar ++ ['\x22'])

/-- Quoted texts in square brackets, with a comma between neighbours. -/
def quoteList (ss : List String) : String := "[" ++ ", ".intercalate (ss.map quote) ++ "]"

/-- Quoted texts in braces, with a comma between neighbours. -/
def quoteSet (ss : List String) : String :=
  "\x7b" ++ ", ".intercalate (ss.map quote) ++ "\x7d"

end ServerFleet.Text
