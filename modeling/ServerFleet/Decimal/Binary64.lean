/-!
Powers of two and ten, and double-precision numbers as bit patterns, read and written in exact
natural arithmetic: `ofRatio` rounds a quotient to the nearest double, an exact half to the even
neighbour, and `magnitude?` gives back the exact value of a finite one.
-/

namespace ServerFleet

def twoTo (n : Nat) : Nat := Nat.pow 2 n

def tenTo (n : Nat) : Nat := Nat.pow 10 n

namespace Decimal

/-- `n / d` rounded to the nearest natural number, an exact half to the even neighbour. -/
def roundHalfEven (n d : Nat) : Nat :=
  let q := n / d
  let r := n % d
  if 2 * r < d then q
  else if d < 2 * r then q + 1
  else if q % 2 = 0 then q else q + 1

/-- `n / d` rounded to the nearest natural number, an exact half upwards. -/
def roundHalfUp (n d : Nat) : Nat := (2 * n + d) / (2 * d)

/-- A double-precision number by its sixty-four bits: sign, eleven bits of exponent, fifty-two
bits of fraction. -/
structure Binary64 where
  bits : Nat
deriving DecidableEq, Inhabited

namespace Binary64

def signBit : Nat := twoTo 63

def fractionBits : Nat := 52

def exponentMask : Nat := 2047

/-- The least exponent of a unit in the last place. -/
def leastExponent : Int := -1074

def isNegative (x : Binary64) : Bool := decide (signBit ≤ x.bits)

def exponentField (x : Binary64) : Nat := x.bits / twoTo fractionBits % twoTo 11

def fractionField (x : Binary64) : Nat := x.bits % twoTo fractionBits

def isNaN (x : Binary64) : Bool := x.exponentField == exponentMask && x.fractionField != 0

def isFinite (x : Binary64) : Bool := x.exponentField != exponentMask

def isZero (x : Binary64) : Bool := x.bits % signBit == 0

def infinity (negative : Bool) : Binary64 :=
  ⟨(if negative then signBit else 0) + exponentMask * twoTo fractionBits⟩

def nan (negative : Bool) : Binary64 :=
  ⟨(if negative then signBit else 0) + exponentMask * twoTo fractionBits + twoTo 51⟩

def zero (negative : Bool) : Binary64 := ⟨if negative then signBit else 0⟩

/-- For a finite number of absolute value `m * 2 ^ q`, the pair `(m, q)`. -/
def magnitude? (x : Binary64) : Option (Nat × Int) :=
  if x.exponentField = exponentMask then none
  else if x.exponentField = 0 then some (x.fractionField, leastExponent)
  else some (twoTo fractionBits + x.fractionField, (x.exponentField : Int) - 1075)

/-- `m * 2 ^ q` as a quotient. -/
def ratioOf (m : Nat) (q : Int) : Nat × Nat :=
  if 0 ≤ q then (m * twoTo q.toNat, 1) else (m, twoTo (-q).toNat)

/-- The exact absolute value of a finite number as a quotient. -/
def ratio? (x : Binary64) : Option (Nat × Nat) := x.magnitude?.map fun (m, q) => ratioOf m q

/-- The double nearest to `n / d`, for a positive `d`. The field of the exponent and the
fraction are one number, so a carry out of the fraction raises the exponent by itself. -/
def ofRatio (negative : Bool) (n d : Nat) : Binary64 :=
  if n = 0 then zero negative
  else
    let k : Int := (n.log2 : Int) - (d.log2 : Int)
    let atLeast := if 0 ≤ k then decide (d * twoTo k.toNat ≤ n)
      else decide (d ≤ n * twoTo (-k).toNat)
    let q : Int := max (if atLeast then k - 52 else k - 53) leastExponent
    let r := if 0 ≤ q then roundHalfEven n (d * twoTo q.toNat)
      else roundHalfEven (n * twoTo (-q).toNat) d
    let body := (q - leastExponent).toNat * twoTo fractionBits + r
    if exponentMask * twoTo fractionBits ≤ body then infinity negative
    else ⟨(if negative then signBit else 0) + body⟩

/-- The double nearest to `m * 10 ^ e`. -/
def ofDecimal (negative : Bool) (m : Nat) (e : Int) : Binary64 :=
  let digits : Int := (Nat.toDigits 10 m).length
  if m = 0 then zero negative
  else if 400 < digits + e then infinity negative
  else if digits + e < -400 then zero negative
  else if 0 ≤ e then ofRatio negative (m * tenTo e.toNat) 1
  else ofRatio negative m (tenTo (-e).toNat)

/-- The nearest natural number to the absolute value, an exact half away from zero. -/
def roundedMagnitude? (x : Binary64) : Option Nat := x.ratio?.map fun (n, d) => roundHalfUp n d

end Binary64

end Decimal

end ServerFleet
