import CiteStyle.Number.Double

/-!
The shortest decimal form of a number.

Of all decimal numbers that are nearer to the given one than to any other of double precision, one
with the fewest digits is taken, and of those the nearest. From one ten-thousandth up to ten to the
sixteenth it is written with a point, otherwise with an exponent of at least two digits.
-/

namespace CiteStyle.Double

/-- The decimal exponent of the leading digit of the positive ratio `n / d`. -/
def leadingExponent (n d : Nat) : Int :=
  if d ≤ n then (digitCount (n / d) : Int) - 1 else -(digitCount ((d - 1) / n) : Int)

/-- The decimal numbers that are read as one number: those between `low` and `high`, which count
themselves if the number's significand is even. All are in units of `unit`. -/
structure Neighbourhood where
  low : Nat
  value : Nat
  high : Nat
  closed : Bool
  unit : Nat × Nat

/-- The neighbourhood of a positive finite number. Below a power of two the next number is only
half as far away as above. -/
def neighbourhood (significand : Nat) (e : Int) : Neighbourhood where
  low := if significand = Nat.pow 2 (precision - 1) && minExponent < e then 4 * significand - 1
    else 4 * significand - 2
  value := 4 * significand
  high := 4 * significand + 2
  closed := significand % 2 == 0
  unit := power 2 (e - 2)

/-- Whether `c` times ten to the `p` lies in a neighbourhood. -/
def Neighbourhood.has (b : Neighbourhood) (c : Nat) (p : Int) : Bool :=
  let x := c * (power 10 p).1 * b.unit.2
  let scale := b.unit.1 * (power 10 p).2
  if b.closed then b.low * scale ≤ x && x ≤ b.high * scale
  else b.low * scale < x && x < b.high * scale

/-- The nearest multiple of ten to the `p` in a neighbourhood, as a multiple; of two at the same
distance the even one. -/
def Neighbourhood.onGrid? (b : Neighbourhood) (p : Int) : Option Nat :=
  let n := b.value * b.unit.1 * (power 10 p).2
  let d := b.unit.2 * (power 10 p).1
  let nearest := roundQuotient n d
  if b.has nearest p then some nearest
  else if b.has (n / d) p then some (n / d)
  else if b.has (n / d + 1) p then some (n / d + 1)
  else none

/-- The first of the grids with `digits`, `digits + 1` and so on digits, `tries` of them, that has a
point in the neighbourhood: the point and the exponent of its last digit. -/
def Neighbourhood.search (b : Neighbourhood) (leading : Int) : Nat → Nat → Nat × Int
  | 0, digits => (inUnits (b.value * b.unit.1) b.unit.2 0, leading - digits)
  | tries + 1, digits =>
    let p := leading - digits + 1
    match b.onGrid? p with
    | some c => (c, p)
    | none => b.search leading tries (digits + 1)

/-- A whole number without its final zeros, and their number. -/
def dropZeros : Nat → Nat → Nat × Nat
  | 0, c => (c, 0)
  | tries + 1, c =>
    if c % 10 = 0 then
      let (c', zeros) := dropZeros tries (c / 10)
      (c', zeros + 1)
    else (c, 0)

/-- The shortest digits of a positive finite number and the exponent of the leading one. -/
def shortest (significand : Nat) (e : Int) : List Char × Int :=
  let b := neighbourhood significand e
  let n := significand * (power 2 e).1
  let d := (power 2 e).2
  let (c, p) := b.search (leadingExponent n d) 17 1
  let (c', zeros) := dropZeros 17 c
  let digits := Nat.toDigits 10 c'
  (digits, p + zeros + digits.length - 1)

/-- Digits with a point and at least one digit after it. -/
def positional (digits : List Char) (leading : Int) : List Char :=
  if leading < 0 then
    '0' :: '.' :: (List.replicate (-leading - 1).toNat '0' ++ digits)
  else
    let whole := leading.toNat + 1
    let padded := digits ++ List.replicate (whole + 1 - digits.length) '0'
    padded.take whole ++ '.' :: padded.drop whole

def scientific (digits : List Char) (leading : Int) : List Char :=
  let exponent := Nat.toDigits 10 leading.natAbs
  let mantissa := match digits with
    | d :: [] => [d]
    | d :: rest => d :: '.' :: rest
    | [] => []
  mantissa ++ 'e' :: (if leading < 0 then '-' else '+') ::
    (List.replicate (2 - exponent.length) '0' ++ exponent)

def text : Double → String
  | nan => "nan"
  | infinite negative => if negative then "-inf" else "inf"
  | finite negative significand e =>
    let body :=
      if significand = 0 then ['0', '.', '0']
      else
        let (digits, leading) := shortest significand e
        if -4 ≤ leading && leading < 16 then positional digits leading
        else scientific digits leading
    String.ofList (if negative then '-' :: body else body)

end CiteStyle.Double
