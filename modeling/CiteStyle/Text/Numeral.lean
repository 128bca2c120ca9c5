/-! Numerals in bases up to sixteen, as formats for computers write them. -/

namespace CiteStyle.Text

def isHexDigit (c : Char) : Bool :=
  c.isDigit || ('a' ≤ c && c ≤ 'f') || ('A' ≤ c && c ≤ 'F')

def numeralDigit (c : Char) : Nat :=
  if c.isDigit then c.toNat - 0x30 else if c.toNat < 0x61 then c.toNat - 0x37 else c.toNat - 0x57

def numeral (base : Nat) (digits : List Char) : Nat :=
  digits.foldl (fun n c => n * base + numeralDigit c) 0

end CiteStyle.Text
