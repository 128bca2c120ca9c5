/-!
UTF-8, read with or without mercy.

`decode` gives the characters of a byte sequence in order and `none` for each part of it that
cannot belong to any character. A part is as long as a prefix of a well-formed sequence is, and
one byte otherwise, so that one damaged character gives one part.
-/

namespace CiteStyle.Text.Utf8

/-- What the first byte of a sequence of several bytes promises: the number of bytes that follow,
and the range in which the first of them must lie. -/
def lead? (b : UInt8) : Option (Nat × UInt8 × UInt8) :=
  if 0xc2 ≤ b && b ≤ 0xdf then some (1, 0x80, 0xbf)
  else if b == 0xe0 then some (2, 0xa0, 0xbf)
  else if b == 0xed then some (2, 0x80, 0x9f)
  else if 0xe1 ≤ b && b ≤ 0xef then some (2, 0x80, 0xbf)
  else if b == 0xf0 then some (3, 0x90, 0xbf)
  else if 0xf1 ≤ b && b ≤ 0xf3 then some (3, 0x80, 0xbf)
  else if b == 0xf4 then some (3, 0x80, 0x8f)
  else none

def leadBits (following : Nat) (b : UInt8) : Nat :=
  b.toNat % (if following = 1 then 32 else if following = 2 then 16 else 8)

/-- A sequence that has begun: the value so far, the bytes still missing, and the range of the
next one. -/
structure Pending where
  value : Nat
  missing : Nat
  low : UInt8
  high : UInt8

/-- Reads a byte outside a sequence: a character, a new sequence, or nothing good. -/
def start (b : UInt8) : Option Char ⊕ Pending :=
  if b < 0x80 then .inl (some (Char.ofNat b.toNat))
  else match lead? b with
    | some (n, low, high) => .inr ⟨leadBits n b, n, low, high⟩
    | none => .inl none

/-- Reads on inside a sequence, if there is one. -/
def decodeFrom : Option Pending → List UInt8 → List (Option Char)
  | none, [] => []
  | some _, [] => [none]
  | none, b :: rest =>
    match start b with
    | .inl c => c :: decodeFrom none rest
    | .inr p => decodeFrom (some p) rest
  | some p, b :: rest =>
    if p.low ≤ b && b ≤ p.high then
      let value := p.value * 64 + b.toNat % 64
      if p.missing ≤ 1 then some (Char.ofNat value) :: decodeFrom none rest
      else decodeFrom (some ⟨value, p.missing - 1, 0x80, 0xbf⟩) rest
    else
      match start b with
      | .inl c => none :: c :: decodeFrom none rest
      | .inr q => none :: decodeFrom (some q) rest

/-- The characters of a byte sequence, with `none` for each damaged part. -/
def decode (bytes : List UInt8) : List (Option Char) := decodeFrom none bytes

/-- The text of a byte sequence without damaged parts. -/
def strict? (bytes : List UInt8) : Option (List Char) := (decode bytes).mapM id

def replacement : Char := Char.ofNat 0xfffd

/-- The text of a byte sequence, with the replacement character for each damaged part. -/
def lenient (bytes : List UInt8) : List Char := (decode bytes).map (·.getD replacement)

end CiteStyle.Text.Utf8
