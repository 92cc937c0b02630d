import ServerFleet.Decimal.Binary64

/-!
The shortest decimal digits that read back as a given double. For one digit, two digits and so
on the two neighbours of the value on that decimal grid are tested against the interval of
numbers that round to the double; the first grid with a hit wins, and of two hits the nearer.
-/

namespace ServerFleet.Decimal

/-- A decimal number `digits * 10 ^ exponent`. -/
structure Digits where
  digits : Nat
  exponent : Int
deriving DecidableEq

/-- `n / d` compared through its product with a power of ten. -/
def scaled (n d : Nat) (e : Int) : Nat × Nat :=
  if 0 ≤ e then (n * tenTo e.toNat, d) else (n, d * tenTo (-e).toNat)

/-- The least `j` up to `fuel` with `d ≤ n * 10 ^ j`. -/
def leadingZeros (n d : Nat) : Nat → Nat
  | 0 => 0
  | fuel + 1 => if d ≤ n then 0 else leadingZeros (n * 10) d fuel + 1

/-- The exponent of the leading decimal digit of `n / d`. -/
def decimalExponent (n d : Nat) : Int :=
  if d ≤ n then (Nat.toDigits 10 (n / d)).length - 1 else -(leadingZeros n d 400 : Int)

/-- The interval of numbers that round to `m * 2 ^ q`, in units of `2 ^ (q - 2)`. -/
def roundingInterval (m : Nat) (q : Int) : Nat × Nat :=
  if m = twoTo 52 ∧ Binary64.leastExponent < q then (4 * m - 1, 4 * m + 2)
  else (4 * m - 2, 4 * m + 2)

/-- Whether `c * 10 ^ e` rounds to `m * 2 ^ q`; the ends of the interval do if `m` is even. -/
def readsBack (m : Nat) (q : Int) (c : Nat) (e : Int) : Bool :=
  let (low, high) := roundingInterval m q
  let (unitN, unitD) := Binary64.ratioOf 1 (q - 2)
  let (cn, cd) := scaled c 1 e
  let left := low * unitN * cd
  let middle := cn * unitD
  let right := high * unitN * cd
  if m % 2 = 0 then left ≤ middle && middle ≤ right else left < middle && middle < right

/-- The better neighbour on the grid of `10 ^ e`, if one reads back. -/
def onGrid? (m : Nat) (q : Int) (e : Int) : Option Nat :=
  let (n, d) := Binary64.ratioOf m q
  let (gn, gd) := scaled n d (-e)
  let below := gn / gd
  let rest := gn % gd
  let nearAbove := gd < 2 * rest || (gd == 2 * rest && below % 2 == 1)
  match readsBack m q below e && below != 0, readsBack m q (below + 1) e with
  | true, true => some (if nearAbove then below + 1 else below)
  | true, false => some below
  | false, true => some (below + 1)
  | false, false => none

/-- Tries the grids from the leading digit at `top` downwards. -/
def shortestFrom (m : Nat) (q top : Int) : Nat → Digits
  | 0 => match onGrid? m q (top - 17) with
    | some c => ⟨c, top - 17⟩
    | none => ⟨0, 0⟩
  | fuel + 1 => match onGrid? m q (top - (16 - fuel : Nat)) with
    | some c => ⟨c, top - (16 - fuel : Nat)⟩
    | none => shortestFrom m q top fuel

/-- The shortest decimal that reads back as `m * 2 ^ q`, the nearest among those. -/
def shortest (m : Nat) (q : Int) : Digits :=
  if m = 0 then ⟨0, 0⟩
  else
    let (n, d) := Binary64.ratioOf m q
    shortestFrom m q (decimalExponent n d) 17

/-- Digits without trailing zeros, and the place of the point counted from their left end. -/
def Digits.normalized (x : Digits) : List Char × Int :=
  let all := Nat.toDigits 10 x.digits
  let kept := (all.reverse.dropWhile (· = '0')).reverse
  (kept, x.exponent + all.length)

/-- How a decimal number is laid out. -/
structure Layout where
  /-- Whether a whole number ends in `.0`. -/
  wholeMark : Bool
  /-- The places of the point, from the left end of the digits, that are written without an
  exponent; `none` for all. -/
  positional : Option (Int × Int)
deriving DecidableEq

/-- Digits without an exponent: the point at place `point`. -/
def layPositional (whole : String) (digits : List Char) (point : Int) : String :=
  if point ≤ 0 then
    "0." ++ String.ofList (List.replicate (-point).toNat '0' ++ digits)
  else if digits.length ≤ point.toNat then
    String.ofList (digits ++ List.replicate (point.toNat - digits.length) '0') ++ whole
  else String.ofList (digits.take point.toNat) ++ "." ++ String.ofList (digits.drop point.toNat)

def layExponent (digits : List Char) (point : Int) : String :=
  let fraction := digits.drop 1
  String.ofList (digits.take 1) ++ (if fraction = [] then "" else "." ++ String.ofList fraction) ++
    "e" ++ toString (point - 1)

/-- The text of a finite double under a layout. -/
def layOut (style : Layout) (x : Binary64) : String :=
  let whole := if style.wholeMark then ".0" else ""
  let sign := if x.isNegative then "-" else ""
  match x.magnitude? with
  | none => if x.isNaN then "NaN" else sign ++ "inf"
  | some (m, q) =>
    if m = 0 then sign ++ "0" ++ whole
    else
      let (digits, point) := (shortest m q).normalized
      let positional := match style.positional with
        | none => true
        | some (low, high) => low ≤ point && point ≤ high
      sign ++ if positional then layPositional whole digits point else layExponent digits point

end ServerFleet.Decimal
