/-!
Binary floating-point numbers of double precision, as exact values.

A finite number is a significand times a power of two. A decimal number becomes the nearest of
them, the one with the even significand if two are equally near, and infinite if it is too large.
-/

namespace CiteStyle

inductive Double where
  | finite (negative : Bool) (significand : Nat) (exponent : Int)
  | infinite (negative : Bool)
  | nan
  deriving DecidableEq, Repr

namespace Double

/-- The number of significant bits. -/
def precision : Nat := 53

def minExponent : Int := -1074

/-- The power of two that is too large for a finite number. -/
def maxPower : Nat := 1024

/-- A quotient rounded to the nearest whole number, a half to the even one. -/
def roundQuotient (n d : Nat) : Nat :=
  let q := n / d
  let r := n % d
  if 2 * r > d || (2 * r == d && q % 2 == 1) then q + 1 else q

/-- A power of a base as a numerator and a denominator. -/
def power (base : Nat) (e : Int) : Nat × Nat :=
  if 0 ≤ e then (Nat.pow base e.toNat, 1) else (1, Nat.pow base (-e).toNat)

/-- The ratio `n / d` in units of two to the `e`, rounded. -/
def inUnits (n d : Nat) (e : Int) : Nat :=
  roundQuotient (n * (power 2 e).2) (d * (power 2 e).1)

/-- The exponent at which the significand of the ratio `n / d` is as long as it can be, or the
smallest one. -/
def exponentOf (n d : Nat) : Int :=
  let magnitude : Int := (n.log2 : Int) - d.log2
  let low := max (magnitude - precision) minExponent
  if n * (power 2 low).2 / (d * (power 2 low).1) ≥ Nat.pow 2 precision then low + 1 else low

/-- The number with a significand that rounding may have made one bit too long. -/
def ofRounded (negative : Bool) (significand : Nat) (e : Int) : Double :=
  if significand * (power 2 e).1 ≥ Nat.pow 2 maxPower * (power 2 e).2 then infinite negative
  else if significand = Nat.pow 2 precision then finite negative (Nat.pow 2 (precision - 1)) (e + 1)
  else finite negative significand e

/-- The number nearest to the ratio `n / d` with a sign. -/
def ofRatio (negative : Bool) (n d : Nat) : Double :=
  if n = 0 then finite negative 0 0
  else ofRounded negative (inUnits n d (exponentOf n d)) (exponentOf n d)

def digitCount (n : Nat) : Nat := (Nat.toDigits 10 n).length

/-- The number nearest to `digits` times ten to the `e`. What lies far beyond the range of finite
numbers is decided by the number of digits alone. -/
def ofDecimal (negative : Bool) (digits : Nat) (e : Int) : Double :=
  if digits = 0 then finite negative 0 0
  else
    let magnitude : Int := digitCount digits + e
    if magnitude > 310 then infinite negative
    else if magnitude < -330 then finite negative 0 0
    else ofRatio negative (digits * (power 10 e).1) (power 10 e).2

def integer? : Double → Option Int
  | finite negative significand e =>
    let (n, d) := (significand * (power 2 e).1, (power 2 e).2)
    if n % d = 0 then some (if negative then -((n / d : Nat) : Int) else (n / d : Nat)) else none
  | _ => none

end Double

end CiteStyle
