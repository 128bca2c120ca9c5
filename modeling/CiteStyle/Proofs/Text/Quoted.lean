import CiteStyle.Proofs.Text.Line
import CiteStyle.Text.Numeral
import CiteStyle.Text.Quoted

/-! # Quoted texts

Every character of a quoted text can be read off the front of what it is written as
(`Escaped.unescape?_append`), and the mark that closes the text begins no character. So a quoted text
says which text it quotes and where it ends, whatever follows (`quote_append_inj`). It stands on one
line (`unbroken_quote`). -/

namespace CiteStyle.Text

/-! ## Numerals -/

theorem mem_toDigits {base n : Nat} (hbase : 1 < base) {c : Char} (hc : c ∈ Nat.toDigits base n) :
    ∃ d < base, c = d.digitChar := by
  induction n using Nat.base_induction base hbase with
  | single d hd =>
    rw [Nat.toDigits_of_lt_base hd] at hc
    exact ⟨d, hd, List.mem_singleton.mp hc⟩
  | digit m d hd hm ih =>
    rw [← Nat.toDigits_append_toDigits hbase hm hd, Nat.toDigits_of_lt_base hd,
      List.mem_append] at hc
    rcases hc with hc | hc
    · exact ih hc
    · exact ⟨d, hd, List.mem_singleton.mp hc⟩

theorem unbroken_toDigits {base : Nat} (hlow : 1 < base) (hhigh : base ≤ 16) (n : Nat) :
    Unbroken (Nat.toDigits base n) := by
  have hdigits : ∀ d < 16, endsLine d.digitChar = false := by decide
  intro c hc
  obtain ⟨d, hd, rfl⟩ := mem_toDigits hlow hc
  exact hdigits d (Nat.lt_of_lt_of_le hd hhigh)

theorem numeralDigit_digitChar : ∀ d < 16, numeralDigit d.digitChar = d := by decide

theorem numeral_append (base : Nat) (s t : List Char) :
    numeral base (s ++ t) = t.foldl (fun n c => n * base + numeralDigit c) (numeral base s) :=
  List.foldl_append

/-- The digits of a number are a numeral for it. -/
theorem numeral_toDigits {base : Nat} (hlow : 1 < base) (hhigh : base ≤ 16) (n : Nat) :
    numeral base (Nat.toDigits base n) = n := by
  induction n using Nat.base_induction base hlow with
  | single d hd =>
    rw [Nat.toDigits_of_lt_base hd]
    simp [numeral, numeralDigit_digitChar d (Nat.lt_of_lt_of_le hd hhigh)]
  | digit m d hd hm ih =>
    rw [← Nat.toDigits_append_toDigits hlow hm hd, Nat.toDigits_of_lt_base hd, numeral_append, ih,
      List.foldl_cons, List.foldl_nil, numeralDigit_digitChar d (Nat.lt_of_lt_of_le hd hhigh),
      Nat.mul_comm]

theorem numeral_zeros (base count : Nat) : numeral base (List.replicate count '0') = 0 := by
  induction count with
  | zero => rfl
  | succ count ih =>
    rw [List.replicate_succ', numeral_append, ih]
    simp [numeralDigit]

namespace Quoted

theorem length_hex {width n : Nat} (h : (Nat.toDigits 16 n).length ≤ width) :
    (hex width n).length = width := by
  rw [hex, List.length_append, List.length_replicate]
  omega

theorem numeral_hex (width n : Nat) : numeral 16 (hex width n) = n := by
  rw [hex, numeral_append, numeral_zeros]
  exact numeral_toDigits (by decide) (by decide) n

/-! ## Characters -/

def IsMark (q : Char) : Prop := q = '"' ∨ q = '\x27'

theorem isMark_mark (s : List Char) : IsMark (mark s) := by
  unfold mark
  split
  · exact .inl rfl
  · exact .inr rfl

theorem IsMark.not_endsLine {q : Char} (hq : IsMark q) : endsLine q = false := by
  rcases hq with rfl | rfl <;> decide

/-- The letters that stand for characters without a printed form. -/
def letters : List (Char × Char) := [('n', '\n'), ('r', '\r'), ('t', '\t')]

/-- The letters that announce the code of a character, with the number of its digits. -/
def codeWidths : List (Char × Nat) := [('x', 2), ('u', 4), ('U', 8)]

/-- What a character is written as between two marks: itself, or a backslash with the character, with
its letter, or with its code. -/
inductive Escaped (q c : Char) : List Char → Prop
  | plain (hmark : c ≠ q) (hslash : c ≠ '\\') (h : isPrintable c = true) : Escaped q c [c]
  | marked (h : c = q ∨ c = '\\') : Escaped q c ['\\', c]
  | lettered {letter : Char} (h : (letter, c) ∈ letters) : Escaped q c ['\\', letter]
  | coded {letter : Char} {width : Nat} (h : (letter, width) ∈ codeWidths)
      (hc : (Nat.toDigits 16 c.toNat).length ≤ width) :
      Escaped q c ('\\' :: letter :: hex width c.toNat)

theorem escaped_escape (q c : Char) : Escaped q c (escape q c) := by
  have hdigits {width : Nat} (hwidth : 0 < width) (hc : c.toNat < 16 ^ width) :
      (Nat.toDigits 16 c.toNat).length ≤ width :=
    (Nat.length_toDigits_le_iff (by decide) hwidth).mpr hc
  unfold escape
  split
  · next h => exact .marked (by simpa using h)
  next hmarked =>
  split
  · next h => exact .lettered (by rw [eq_of_beq h]; decide)
  split
  · next h => exact .lettered (by rw [eq_of_beq h]; decide)
  split
  · next h => exact .lettered (by rw [eq_of_beq h]; decide)
  split
  · next h =>
    simp only [Bool.or_eq_true, beq_iff_eq, not_or] at hmarked
    exact .plain hmarked.1 hmarked.2 h
  split
  · next h => exact .coded (by decide) (hdigits (by decide) (Nat.lt_succ_of_le h))
  split
  · next h => exact .coded (by decide) (hdigits (by decide) (Nat.lt_succ_of_le h))
  · exact .coded (by decide) (hdigits (by decide) c.val.toNat_lt)

/-- Takes one character of a quoted text off the front, be it escaped. -/
def unescape? : List Char → Option (Char × List Char)
  | [] => none
  | '\\' :: letter :: r =>
    match codeWidths.lookup letter with
    | some width => some (.ofNat (numeral 16 (r.take width)), r.drop width)
    | none => some ((letters.lookup letter).getD letter, r)
  | c :: r => some (c, r)

variable {q c : Char}

/-- A character can be told from what it is written as, whatever follows. -/
theorem Escaped.unescape?_append (hq : IsMark q) {s : List Char} (h : Escaped q c s)
    (r : List Char) : unescape? (s ++ r) = some (c, r) := by
  cases h with
  | plain _ hslash _ =>
    rw [List.singleton_append]
    unfold unescape?
    split <;> simp_all
  | marked h =>
    obtain rfl | rfl := h
    · rcases hq with rfl | rfl <;> rfl
    · rfl
  | lettered h =>
    simp only [letters, List.mem_cons, List.not_mem_nil, or_false, Prod.mk.injEq] at h
    rcases h with ⟨rfl, rfl⟩ | ⟨rfl, rfl⟩ | ⟨rfl, rfl⟩ <;> rfl
  | @coded letter width h hc =>
    have hwidth : codeWidths.lookup letter = some width := by
      simp only [codeWidths, List.mem_cons, List.not_mem_nil, or_false, Prod.mk.injEq] at h
      rcases h with ⟨rfl, rfl⟩ | ⟨rfl, rfl⟩ | ⟨rfl, rfl⟩ <;> rfl
    have hlength := length_hex hc
    rw [List.cons_append, List.cons_append, unescape?, hwidth]
    simp only [List.take_left' hlength, List.drop_left' hlength, numeral_hex, Char.ofNat_toNat]

/-- What a character is written as does not begin with the mark. -/
theorem Escaped.exists_head_ne (hq : IsMark q) {s : List Char} (h : Escaped q c s) :
    ∃ d r, s = d :: r ∧ d ≠ q := by
  have hslash : '\\' ≠ q := by rcases hq with rfl | rfl <;> decide
  cases h with
  | plain hmark => exact ⟨c, [], rfl, hmark⟩
  | marked => exact ⟨_, _, rfl, hslash⟩
  | lettered => exact ⟨_, _, rfl, hslash⟩
  | coded => exact ⟨_, _, rfl, hslash⟩

/-- A character that is printed does not end a line. -/
theorem not_endsLine_of_isPrintable (h : isPrintable c = true) : endsLine c = false := by
  rw [Bool.eq_false_iff]
  intro hends
  have hcovered : unprintable.has c = true := CodeRanges.has_of_covered (by decide +kernel) hends
  rw [isPrintable, hcovered] at h
  cases h

theorem unbroken_hex (width n : Nat) : Unbroken (hex width n) :=
  unbroken_append.mpr
    ⟨fun _ hc => List.eq_of_mem_replicate hc ▸ by decide,
      unbroken_toDigits (by decide) (by decide) n⟩

theorem Escaped.unbroken (hq : IsMark q) {s : List Char} (h : Escaped q c s) : Unbroken s := by
  have hslash : endsLine '\\' = false := by decide
  cases h with
  | plain _ _ h => exact unbroken_cons.mpr ⟨not_endsLine_of_isPrintable h, unbroken_nil⟩
  | marked h =>
    have hc : endsLine c = false := by
      obtain rfl | rfl := h
      · exact hq.not_endsLine
      · exact hslash
    exact unbroken_cons.mpr ⟨hslash, unbroken_cons.mpr ⟨hc, unbroken_nil⟩⟩
  | @lettered letter h =>
    have hletters : ∀ a ∈ letters, endsLine a.1 = false := by decide
    exact unbroken_cons.mpr ⟨hslash, unbroken_cons.mpr ⟨hletters _ h, unbroken_nil⟩⟩
  | @coded letter width h _ =>
    have hwidths : ∀ a ∈ codeWidths, endsLine a.1 = false := by decide
    exact unbroken_cons.mpr ⟨hslash, unbroken_cons.mpr ⟨hwidths _ h, unbroken_hex width _⟩⟩

/-! ## Texts -/

/-- The mark that closes a text does not begin a character of it. -/
theorem mark_append_ne (hq : IsMark q) (c : Char) (s r u : List Char) :
    (c :: s).flatMap (escape q) ++ r ≠ q :: u := by
  obtain ⟨d, written, hd, hne⟩ := (escaped_escape q c).exists_head_ne hq
  rw [List.flatMap_cons, hd]
  exact fun h => hne (List.cons.inj h).1

/-- Texts between the same marks can be told apart, and so can what follows them. -/
theorem escaped_append_inj (hq : IsMark q) {s t r u : List Char}
    (h : s.flatMap (escape q) ++ q :: r = t.flatMap (escape q) ++ q :: u) : s = t ∧ r = u := by
  induction s generalizing t with
  | nil =>
    cases t with
    | nil => exact ⟨rfl, (List.cons.inj h).2⟩
    | cons c t => exact absurd h.symm (mark_append_ne hq c t _ _)
  | cons c s ih =>
    cases t with
    | nil => exact absurd h (mark_append_ne hq c s _ _)
    | cons d t =>
      rw [List.flatMap_cons, List.flatMap_cons, List.append_assoc, List.append_assoc] at h
      -- both sides are the same text, so the same character is read off it
      have hread := congrArg unescape? h
      rw [(escaped_escape q c).unescape?_append hq, (escaped_escape q d).unescape?_append hq] at hread
      obtain ⟨rfl, hrest⟩ := Prod.mk.inj (Option.some.inj hread)
      obtain ⟨rfl, hr⟩ := ih hrest
      exact ⟨rfl, hr⟩

/-- **A quoted text says what it quotes and where it ends**, whatever follows. -/
theorem quote_append_inj {s t r u : List Char} (h : quote s ++ r = quote t ++ u) :
    s = t ∧ r = u := by
  rw [quote, quote, List.cons_append, List.cons_append, List.append_assoc, List.append_assoc,
    List.singleton_append, List.singleton_append] at h
  -- how characters are escaped depends on the mark, which comes first
  obtain ⟨hmark, hrest⟩ := List.cons.inj h
  rw [← hmark] at hrest
  exact escaped_append_inj (isMark_mark s) hrest

/-- **A quoted text stands on one line.** -/
theorem unbroken_quote (s : List Char) : Unbroken (quote s) := by
  have hq := isMark_mark s
  have hwritten : Unbroken (s.flatMap (escape (mark s))) := by
    intro d hd
    obtain ⟨c, -, hc⟩ := List.mem_flatMap.mp hd
    exact (escaped_escape (mark s) c).unbroken hq d hc
  rw [quote, unbroken_cons, unbroken_append, unbroken_cons]
  exact ⟨hq.not_endsLine, hwritten, hq.not_endsLine, unbroken_nil⟩

end Quoted

end CiteStyle.Text
