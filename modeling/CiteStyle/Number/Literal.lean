import CiteStyle.Number.Double
import CiteStyle.Text.Blank
import CiteStyle.Text.DecimalDigit

/-!
Numbers as people write them.

White space may stand around a number. The number has a sign or not, digits of any script with
single underscores between them, a point among or around the digits, and an exponent or not; or it
is infinite or not a number, by name and in any case.
-/

namespace CiteStyle.Number

open Text (digitValue? isBlank)

/-- White space that may stand around a number: tab to carriage return, the space, and all white
space beyond seven bits. -/
def isPadding (c : Char) : Bool :=
  c == ' ' || (0x9 ≤ c.toNat && c.toNat ≤ 0xd) || (0x80 ≤ c.toNat && isBlank c)

def strip (s : List Char) : List Char :=
  ((s.dropWhile isPadding).reverse.dropWhile isPadding).reverse

/-- The digits that begin a text; an underscore may stand between two. -/
def digits (afterDigit : Bool) : List Char → List Nat × List Char
  | [] => ([], [])
  | c :: rest =>
    match digitValue? c with
    | some d =>
      let (more, after) := digits true rest
      (d :: more, after)
    | none =>
      if c == '_' && afterDigit && rest.head?.any (fun d => (digitValue? d).isSome) then
        digits false rest
      else ([], c :: rest)

def valueOf (ds : List Nat) : Nat := ds.foldl (fun n d => n * 10 + d) 0

/-- A sign, which is positive if none is written. -/
def sign : List Char → Bool × List Char
  | '-' :: rest => (true, rest)
  | '+' :: rest => (false, rest)
  | s => (false, s)

def exponent? : List Char → Option Int
  | [] => some 0
  | c :: rest =>
    if c == 'e' || c == 'E' then
      let (negative, body) := sign rest
      match digits false body with
      | ([], _) => none
      | (ds, []) => some (if negative then -(valueOf ds : Int) else valueOf ds)
      | _ => none
    else none

/-- A finite number without its sign. -/
def finite? (negative : Bool) (s : List Char) : Option Double :=
  let (whole, rest) := digits false s
  let (part, rest) := match rest with
    | '.' :: r => digits false r
    | r => ([], r)
  if whole.isEmpty && part.isEmpty then none
  else
    (exponent? rest).map fun e =>
      .ofDecimal negative (valueOf (whole ++ part)) (e - part.length)

def parse? (s : List Char) : Option Double :=
  let (negative, body) := sign (strip s)
  let name := String.ofList (body.map Char.toLower)
  if name = "inf" || name = "infinity" then some (.infinite negative)
  else if name = "nan" then some .nan
  else finite? negative body

end CiteStyle.Number
