import CiteStyle.Log
import CiteStyle.Proofs.Declaration
import CiteStyle.Proofs.Text.Utf8Parts
import CiteStyle.Proofs.Xml.Ending
import Mathlib.Data.List.Forall2

/-! # The search for the year suffix in bytes

The root of a document is read in the document's own encoding, but the reference to the year suffix
is looked for in its bytes as if they were UTF-8. What is found so is a run of bytes that spells the
reference (`usesYearSuffix_bytes_iff`), whatever the encoding; how that compares to the text of the
document depends on it (`usesYearSuffix_by_encoding`). -/

namespace CiteStyle

open Text.Utf8 (decode lenient replacement)

/-! ## Spellings -/

/-- Characters that count as the letters of a word. -/
def Spells (word found : List Char) : Prop := List.Forall₂ (fun e c => sameLetter e c = true) word found

theorem startsWithLetters_iff {word s : List Char} :
    startsWithLetters word s = true ↔ ∃ found, Spells word found ∧ found <+: s := by
  induction word generalizing s with
  | nil => exact ⟨fun _ => ⟨[], .nil, List.nil_prefix⟩, fun _ => rfl⟩
  | cons e word ih =>
    cases s with
    | nil =>
      constructor
      · intro h
        cases h
      · rintro ⟨found, hf, hs⟩
        cases hf
        simp at hs
    | cons c s =>
      rw [startsWithLetters, Bool.and_eq_true, ih]
      constructor
      · rintro ⟨hc, found, hf, hs⟩
        exact ⟨c :: found, .cons hc hf, List.cons_prefix_cons.mpr ⟨rfl, hs⟩⟩
      · rintro ⟨found, hf, hs⟩
        cases hf with
        | cons hc hf =>
          obtain ⟨rfl, hrest⟩ := List.cons_prefix_cons.mp hs
          exact ⟨hc, _, hf, hrest⟩

theorem mentionsYearSuffix_iff {s : List Char} :
    mentionsYearSuffix s = true ↔ ∃ found, Spells yearSuffixReference found ∧ found <:+: s := by
  induction s with
  | nil =>
    constructor
    · intro h
      cases h
    · rintro ⟨found, hf, hs⟩
      rw [List.infix_nil.mp hs] at hf
      cases hf
  | cons c s ih =>
    rw [mentionsYearSuffix, Bool.or_eq_true, startsWithLetters_iff, ih]
    simp only [List.infix_cons_iff, and_or_left, exists_or]

/-- The letters beyond ASCII that count as letters of the reference. -/
def strangeLetters : List Char := ['İ', 'ı', 'ſ']

theorem sameLetter_cases {e c : Char} (he : e.toNat < 0x80) (h : sameLetter e c = true) :
    c.toNat < 0x80 ∨ c ∈ strangeLetters := by
  have hchar {n : Nat} (hn : c.toNat = n) : c = Char.ofNat n := by
    rw [← hn, Char.ofNat_toNat]
  simp only [sameLetter, Bool.or_eq_true, Bool.and_eq_true, beq_iff_eq] at h
  obtain (rfl | ⟨-, h | h⟩) | ⟨-, h⟩ := h
  · left
    unfold Char.toLower at he
    split at he
    · next hc =>
      have hlast := UInt32.le_iff_toNat_le.mp hc.2
      change c.val.toNat ≤ 0x5a at hlast
      change c.val.toNat < 0x80
      omega
    · exact he
  · rw [hchar h]
    decide
  · rw [hchar h]
    decide
  · rw [hchar h]
    decide

theorem sameLetter_latin {e c : Char} (he : 0x61 ≤ e.toNat ∧ e.toNat ≤ 0x7a) (hi : e ≠ 'i')
    (hs : e ≠ 's') (h : sameLetter e c = true) : 0x41 ≤ c.toNat ∧ c.toNat ≤ 0x7a := by
  simp only [sameLetter, Bool.or_eq_true, Bool.and_eq_true, beq_iff_eq, hi, hs, false_and,
    or_false] at h
  subst h
  unfold Char.toLower at he
  split at he
  · next hc =>
    have hfirst := UInt32.le_iff_toNat_le.mp hc.1
    have hlast := UInt32.le_iff_toNat_le.mp hc.2
    change 0x41 ≤ c.val.toNat at hfirst
    change c.val.toNat ≤ 0x5a at hlast
    change 0x41 ≤ c.val.toNat ∧ c.val.toNat ≤ 0x7a
    omega
  · omega

theorem Spells.cases {word found : List Char} (h : Spells word found)
    (hw : ∀ e ∈ word, e.toNat < 0x80) :
    ∀ c ∈ found, c.toNat < 0x80 ∨ c ∈ strangeLetters := by
  induction h with
  | nil => simp
  | cons hc _ ih =>
    obtain ⟨he, hw⟩ := List.forall_mem_cons.mp hw
    exact List.forall_mem_cons.mpr ⟨sameLetter_cases he hc, ih hw⟩

theorem Spells.reference_cases {found : List Char} (h : Spells yearSuffixReference found) :
    ∀ c ∈ found, c.toNat < 0x80 ∨ c ∈ strangeLetters := by
  have hall : yearSuffixReference.all (fun e => decide (e.toNat < 0x80)) = true := by decide
  exact h.cases fun e he => of_decide_eq_true (List.all_eq_true.mp hall e he)

/-- The reference begins with three letters that are spelled with one byte each. -/
theorem Spells.reference_begins {found : List Char} (h : Spells yearSuffixReference found) :
    ∃ x y z rest, found = x :: y :: z :: rest ∧ (0x41 ≤ x.toNat ∧ x.toNat ≤ 0x7a) ∧
      (0x41 ≤ y.toNat ∧ y.toNat ≤ 0x7a) ∧ (0x41 ≤ z.toNat ∧ z.toNat ≤ 0x7a) := by
  cases h with
  | cons hx h =>
    cases h with
    | cons hy h =>
      cases h with
      | cons hz h =>
        exact ⟨_, _, _, _, rfl, sameLetter_latin (by decide) (by decide) (by decide) hx,
          sameLetter_latin (by decide) (by decide) (by decide) hy,
          sameLetter_latin (by decide) (by decide) (by decide) hz⟩

/-! ## Bytes that spell the reference -/

/-- A text without the replacement character comes from no damaged part. -/
theorem eq_map_some {found : List (Option Char)} {s : List Char}
    (h : found.map (·.getD replacement) = s) (hs : replacement ∉ s) : found = s.map some := by
  induction found generalizing s with
  | nil =>
    subst h
    rfl
  | cons o found ih =>
    subst h
    rw [List.map_cons, List.mem_cons, not_or] at hs
    obtain ⟨ho, hfound⟩ := hs
    cases o with
    | none => exact absurd rfl ho
    | some c => exact congrArg (some c :: ·) (ih rfl hfound)

theorem replacement_not_mem {found : List Char}
    (h : ∀ c ∈ found, c.toNat < 0x80 ∨ c ∈ strangeLetters) : replacement ∉ found := by
  intro hm
  rcases h _ hm with hlow | hstrange
  · exact absurd hlow (by decide)
  · exact absurd hstrange (by decide)

/-- **The reference is found in bytes where they spell it as UTF-8 does.** -/
theorem usesYearSuffix_bytes_iff {b : List UInt8} :
    (Document.bytes b).usesYearSuffix = true ↔
      ∃ found, Spells yearSuffixReference found ∧ found.flatMap String.utf8EncodeChar <:+: b := by
  rw [Document.usesYearSuffix, Document.source, String.toList_ofList, mentionsYearSuffix_iff]
  refine exists_congr fun found => and_congr_right fun hspells => ?_
  constructor
  · rintro ⟨before, after, h⟩
    obtain ⟨o, oafter, hdecode, ho, -⟩ := List.map_eq_append_iff.mp h.symm
    obtain ⟨obefore, ofound, rfl, -, hfound⟩ := List.map_eq_append_iff.mp ho
    rw [eq_map_some hfound (replacement_not_mem hspells.reference_cases)] at hdecode
    have hparts := Text.Utf8.parts_decode b
    rw [hdecode] at hparts
    obtain ⟨b', bafter, rfl, hb', -⟩ := hparts.of_append
    obtain ⟨bbefore, bfound, rfl, -, hbfound⟩ := hb'.of_append
    exact ⟨bbefore, bafter, by rw [hbfound.eq_of_map_some]⟩
  · rintro ⟨before, after, rfl⟩
    obtain ⟨x, y, z, rest, rfl, hx, -⟩ := hspells.reference_begins
    have hbyte : (UInt8.ofNat x.toNat).toNat < 0x80 := by simp; omega
    have hfirst : String.utf8EncodeChar x = [UInt8.ofNat x.toNat] := by
      rcases Text.Utf8.utf8EncodeChar_cases x with ⟨-, hone⟩ | ⟨hmany, -⟩
      · exact hone
      · omega
    have hdecode : decode (before ++ (x :: y :: z :: rest).flatMap String.utf8EncodeChar ++ after) =
        decode before ++ ((x :: y :: z :: rest).map some ++ decode after) := by
      have hcut := Text.Utf8.decode_append hbyte before
        ((y :: z :: rest).flatMap String.utf8EncodeChar ++ after)
      rw [← List.singleton_append (l := (y :: z :: rest).flatMap _ ++ after), ← hfirst,
        ← List.append_assoc (String.utf8EncodeChar x), ← List.flatMap_cons,
        Text.Utf8.decode_flatMap_append] at hcut
      rw [List.append_assoc]
      exact hcut
    refine ⟨(decode before).map (·.getD replacement), (decode after).map (·.getD replacement), ?_⟩
    rw [lenient, hdecode, List.map_append, List.map_append, List.map_map, List.append_assoc]
    congr 2
    exact (List.map_id _).symm

/-! ## Texts of bytes -/

namespace Xml

/-- A text ends at the barrier, as bytes that mean nothing in their encoding make it. -/
def Broken (s : List Char) : Prop := ∃ t, s = t ++ [barrier]

theorem Broken.cons {s : List Char} (h : Broken s) (c : Char) : Broken (c :: s) := by
  obtain ⟨t, rfl⟩ := h
  exact ⟨c :: t, rfl⟩

theorem textOfUtf8_cases (found : List (Option Char)) :
    Broken (textOfUtf8 found) ∨ found = (textOfUtf8 found).map some := by
  fun_induction textOfUtf8 found with
  | case1 => exact .inr rfl
  | case2 c rest ih => exact ih.imp (·.cons c) fun h => congrArg (some c :: ·) h
  | case3 => exact .inl ⟨[], rfl⟩

theorem textOfAscii_cases (bytes : List UInt8) :
    Broken (textOfAscii bytes) ∨
      bytes = (textOfAscii bytes).flatMap String.utf8EncodeChar := by
  fun_induction textOfAscii bytes with
  | case1 => exact .inr rfl
  | case2 b rest hb ih =>
    refine ih.imp (·.cons _) fun h => ?_
    rw [List.flatMap_cons, ← h, Text.Utf8.utf8EncodeChar_one (UInt8.lt_iff_toNat_lt.mp hb),
      List.singleton_append]
  | case3 => exact .inl ⟨[], rfl⟩

/-- Units that are no halves of characters are characters of a text. -/
def HasUnits (s : List Char) (units : List (Option Nat)) : Prop :=
  ∀ u, some u ∈ units → u < 0xd800 → Char.ofNat u ∈ s

theorem HasUnits.cons {s : List Char} {units : List (Option Nat)} (h : HasUnits s units) (a : Nat) :
    HasUnits (Char.ofNat a :: s) (some a :: units) := by
  intro u hu hlow
  rcases List.mem_cons.mp hu with hu | hu
  · rw [Option.some.inj hu]
    exact List.mem_cons_self
  · exact List.mem_cons_of_mem _ (h u hu hlow)

theorem textOfUnits_cases (units : List (Option Nat)) :
    Broken (textOfUnits units) ∨ HasUnits (textOfUnits units) units := by
  fun_induction textOfUnits units with
  | case1 => exact .inr fun u hu => absurd hu List.not_mem_nil
  | case2 a b rest ha hb ih =>
    -- Two halves make a character beyond those of one unit.
    refine ih.imp (·.cons _) fun h u hu hlow => ?_
    simp only [List.mem_cons, Option.some.injEq, Bool.and_eq_true, decide_eq_true_eq] at hu ha hb
    obtain hu | hu | hu := hu
    · omega
    · omega
    · exact List.mem_cons_of_mem _ (h u hu hlow)
  | case3 => exact .inl ⟨[], rfl⟩
  | case4 => exact .inl ⟨[], rfl⟩
  | case5 a b rest ha _ ih => exact ih.imp (·.cons _) (·.cons a)
  | case6 => exact .inl ⟨[], rfl⟩
  | case7 a rest _ ha ih => exact ih.imp (·.cons _) (·.cons a)
  | case8 => exact .inl ⟨[], rfl⟩

theorem flatMap_of_textOfLatin1 {bytes : List UInt8} (h : ∀ c ∈ textOfLatin1 bytes, c.toNat < 0x80) :
    (textOfLatin1 bytes).flatMap String.utf8EncodeChar = bytes := by
  induction bytes with
  | nil => rfl
  | cons b bytes ih =>
    rw [textOfLatin1, List.map_cons, ← textOfLatin1] at h ⊢
    obtain ⟨hb, hbytes⟩ := List.forall_mem_cons.mp h
    rw [toNat_ofNat_toNat] at hb
    rw [List.flatMap_cons, Text.Utf8.utf8EncodeChar_one hb, ih hbytes, List.singleton_append]

theorem textOfLatin1_flatMap {s : List Char} (h : ∀ c ∈ s, c.toNat < 0x80) :
    textOfLatin1 (s.flatMap String.utf8EncodeChar) = s := by
  induction s with
  | nil => rfl
  | cons c s ih =>
    obtain ⟨hc, hs⟩ := List.forall_mem_cons.mp h
    rcases Text.Utf8.utf8EncodeChar_cases c with ⟨-, hone⟩ | ⟨hmany, -⟩
    · have hbyte : (UInt8.ofNat c.toNat).toNat = c.toNat := by simp; omega
      rw [List.flatMap_cons, hone, List.singleton_append, textOfLatin1, List.map_cons, hbyte,
        Char.ofNat_toNat, ← textOfLatin1, ih hs]
    · omega

/-- Of three bytes of letters in a row two are one unit. -/
theorem exists_unit (bigEndian : Bool) {x y z : UInt8} (hx : 0x41 ≤ x.toNat ∧ x.toNat ≤ 0x7a)
    (hy : 0x41 ≤ y.toNat ∧ y.toNat ≤ 0x7a) (hz : 0x41 ≤ z.toNat ∧ z.toNat ≤ 0x7a) :
    ∀ before after : List UInt8, ∃ u, some u ∈ units bigEndian (before ++ x :: y :: z :: after) ∧
      0x4141 ≤ u ∧ u ≤ 0x7a7a
  | [], after => by
    refine ⟨_, List.mem_cons_self, ?_⟩
    split <;> omega
  | [a], after => by
    refine ⟨_, List.mem_cons_of_mem _ List.mem_cons_self, ?_⟩
    split <;> omega
  | a :: b :: before, after => by
    obtain ⟨u, hu, hrange⟩ := exists_unit bigEndian hx hy hz before after
    exact ⟨u, List.mem_cons_of_mem _ hu, hrange⟩

/-- Bytes are read in some encoding unless their text is broken. -/
theorem textOfBytes_cases (b : List UInt8) :
    Broken (textOfBytes b) ∨ ∃ e : Encoding, textOfBytes b = e.text b := by
  unfold textOfBytes
  split
  · exact .inr ⟨.utf8, rfl⟩
  · exact .inr ⟨.utf16 true, rfl⟩
  · exact .inr ⟨.utf16 false, rfl⟩
  · exact .inr ⟨.utf16 false, rfl⟩
  · exact .inr ⟨.utf16 true, rfl⟩
  · unfold textOfDeclared
    dsimp only
    split
    · split
      · exact .inl ⟨_, rfl⟩
      · split
        · exact .inr ⟨.utf8, rfl⟩
        · split
          · next e _ => exact .inr ⟨e, rfl⟩
          · exact .inl ⟨_, rfl⟩
    · exact .inr ⟨.utf8, rfl⟩

end Xml

/-! ## What the search sees -/

section

variable {b : List UInt8}

theorem not_broken_of_parse {root : Element} (h : (Document.bytes b).parse = .ok root) :
    ¬ Xml.Broken (Xml.textOfBytes b) := by
  rintro ⟨t, ht⟩
  obtain ⟨-, hread⟩ := Document.parse_eq_ok_iff.mp h
  rw [Document.readable, ht] at hread
  exact Xml.read_append_barrier t root hread

theorem usesYearSuffix_utf8 (h : ¬ Xml.Broken (Xml.Encoding.utf8.text b)) :
    (Document.bytes b).usesYearSuffix = mentionsYearSuffix (Xml.Encoding.utf8.text b) := by
  have hwhole := (Xml.textOfUtf8_cases (decode b)).resolve_left h
  have hlenient : lenient b = Xml.Encoding.utf8.text b := by
    rw [lenient, hwhole, List.map_map]
    exact List.map_id _
  rw [Document.usesYearSuffix, Document.source, String.toList_ofList, hlenient]

theorem usesYearSuffix_ascii (h : ¬ Xml.Broken (Xml.Encoding.ascii.text b)) :
    (Document.bytes b).usesYearSuffix = mentionsYearSuffix (Xml.Encoding.ascii.text b) := by
  have hbytes : b = (Xml.Encoding.ascii.text b).flatMap String.utf8EncodeChar :=
    (Xml.textOfAscii_cases b).resolve_left h
  have hlenient : lenient b = Xml.Encoding.ascii.text b := by
    conv_lhs => rw [hbytes]
    rw [lenient, Text.Utf8.decode_flatMap_utf8EncodeChar, List.map_map]
    exact List.map_id _
  rw [Document.usesYearSuffix, Document.source, String.toList_ofList, hlenient]

theorem usesYearSuffix_of_latin1 (h : mentionsYearSuffix (Xml.Encoding.latin1.text b) = true) :
    (Document.bytes b).usesYearSuffix = true := by
  obtain ⟨found, hspells, before, after, hb⟩ := mentionsYearSuffix_iff.mp h
  obtain ⟨b', bafter, rfl, hb', -⟩ := List.map_eq_append_iff.mp hb.symm
  obtain ⟨bbefore, bfound, rfl, -, rfl⟩ := List.map_eq_append_iff.mp hb'
  refine usesYearSuffix_bytes_iff.mpr ⟨_, hspells, bbefore, bafter, ?_⟩
  have hlow : ∀ c ∈ Xml.textOfLatin1 bfound, c.toNat < 0x80 := by
    intro c hc
    refine (hspells.reference_cases c hc).resolve_right fun hstrange => ?_
    obtain ⟨byte, -, rfl⟩ := List.mem_map.mp hc
    have hbyte := byte.toNat_lt
    rw [← Xml.toNat_ofNat_toNat] at hbyte
    simp only [strangeLetters, List.mem_cons, List.not_mem_nil, or_false] at hstrange
    rcases hstrange with h | h | h <;> rw [h] at hbyte <;> exact absurd hbyte (by decide)
  rw [← Xml.textOfLatin1, Xml.flatMap_of_textOfLatin1 hlow]

/-- The bytes of the strange letters, each taken for a character. -/
def strangePairs : List (List Char) := [['Ä', '°'], ['Ä', '±'], ['Å', '¿']]

theorem latin1_of_usesYearSuffix (h : (Document.bytes b).usesYearSuffix = true)
    (hpairs : ∀ p ∈ strangePairs, ¬ p <:+: Xml.Encoding.latin1.text b) :
    mentionsYearSuffix (Xml.Encoding.latin1.text b) = true := by
  obtain ⟨found, hspells, hb⟩ := usesYearSuffix_bytes_iff.mp h
  have hlow : ∀ c ∈ found, c.toNat < 0x80 := by
    intro c hc
    refine (hspells.reference_cases c hc).resolve_right fun hstrange => ?_
    have hpair : Xml.textOfLatin1 (String.utf8EncodeChar c) ∈ strangePairs := by
      simp only [strangeLetters, List.mem_cons, List.not_mem_nil, or_false] at hstrange
      rcases hstrange with rfl | rfl | rfl <;> decide
    obtain ⟨before, after, rfl⟩ := List.append_of_mem hc
    have hshown : String.utf8EncodeChar c <:+: b := by
      refine List.IsInfix.trans ?_ hb
      rw [List.flatMap_append, List.flatMap_cons, ← List.append_assoc]
      exact List.infix_append _ _ _
    exact hpairs _ hpair (hshown.map _)
  refine mentionsYearSuffix_iff.mpr ⟨found, hspells, ?_⟩
  have := hb.map fun byte : UInt8 => Char.ofNat byte.toNat
  rwa [← Xml.textOfLatin1, Xml.textOfLatin1_flatMap hlow] at this

theorem ideograph_of_usesYearSuffix {bigEndian : Bool}
    (hbroken : ¬ Xml.Broken ((Xml.Encoding.utf16 bigEndian).text b))
    (h : (Document.bytes b).usesYearSuffix = true) :
    ∃ c ∈ (Xml.Encoding.utf16 bigEndian).text b, 0x4141 ≤ c.toNat ∧ c.toNat ≤ 0x7a7a := by
  obtain ⟨found, hspells, before, after, rfl⟩ := usesYearSuffix_bytes_iff.mp h
  obtain ⟨x, y, z, rest, rfl, hx, hy, hz⟩ := hspells.reference_begins
  have hone {c : Char} (hc : 0x41 ≤ c.toNat ∧ c.toNat ≤ 0x7a) :
      String.utf8EncodeChar c = [UInt8.ofNat c.toNat] ∧ (UInt8.ofNat c.toNat).toNat = c.toNat := by
    refine ⟨?_, by simp; omega⟩
    rcases Text.Utf8.utf8EncodeChar_cases c with ⟨-, hone⟩ | ⟨hmany, -⟩
    · exact hone
    · omega
  obtain ⟨u, hu, hrange⟩ := Xml.exists_unit bigEndian
    ((hone hx).2.symm ▸ hx) ((hone hy).2.symm ▸ hy) ((hone hz).2.symm ▸ hz)
    before (rest.flatMap String.utf8EncodeChar ++ after)
  have hbytes : before ++ (x :: y :: z :: rest).flatMap String.utf8EncodeChar ++ after =
      before ++ UInt8.ofNat x.toNat :: UInt8.ofNat y.toNat :: UInt8.ofNat z.toNat ::
        (rest.flatMap String.utf8EncodeChar ++ after) := by
    simp [(hone hx).1, (hone hy).1, (hone hz).1]
  rw [hbytes] at hbroken ⊢
  have hmem := (Xml.textOfUnits_cases _).resolve_left hbroken u hu (by omega)
  refine ⟨_, hmem, ?_⟩
  have hvalid : (Char.ofNat u).toNat = u := Text.Utf8.toNat_ofNat (.inl (by omega))
  omega

/-- How what is seen in bytes compares to the text that is read from them. Bytes of UTF-8 and of
seven bits show what the text says. In those of one byte each everything the text says is seen, and
more only where two characters together pass for a strange letter. Nothing is seen in those of two
bytes, unless there are ideographs. -/
def Xml.Encoding.Shows (text : List Char) (seen : Bool) : Xml.Encoding → Prop
  | .utf8 | .ascii => seen = mentionsYearSuffix text
  | .latin1 =>
    (mentionsYearSuffix text = true → seen = true) ∧
      ((∀ p ∈ strangePairs, ¬ p <:+: text) → seen = mentionsYearSuffix text)
  | .utf16 _ => (∀ c ∈ text, ¬ (0x4141 ≤ c.toNat ∧ c.toNat ≤ 0x7a7a)) → seen = false

/-- **What the search sees depends on the encoding.** Bytes that can be parsed are read in some
encoding, and whichever it is, the search shows as much of their text as that encoding lets it. -/
theorem usesYearSuffix_by_encoding {root : Element} (h : (Document.bytes b).parse = .ok root) :
    (∃ e : Xml.Encoding, Xml.textOfBytes b = e.text b) ∧
    ∀ e : Xml.Encoding, Xml.textOfBytes b = e.text b →
      e.Shows (Xml.textOfBytes b) (Document.bytes b).usesYearSuffix := by
  have hbroken := not_broken_of_parse h
  refine ⟨(Xml.textOfBytes_cases b).resolve_left hbroken, fun e he => ?_⟩
  rw [he] at hbroken ⊢
  cases e with
  | utf8 => exact usesYearSuffix_utf8 hbroken
  | ascii => exact usesYearSuffix_ascii hbroken
  | latin1 =>
    refine ⟨usesYearSuffix_of_latin1, fun hpairs => ?_⟩
    rw [Bool.eq_iff_iff]
    exact ⟨fun hseen => latin1_of_usesYearSuffix hseen hpairs, usesYearSuffix_of_latin1⟩
  | utf16 bigEndian =>
    intro hnone
    rw [Bool.eq_false_iff]
    intro hseen
    obtain ⟨c, hc, hrange⟩ := ideograph_of_usesYearSuffix hbroken hseen
    exact hnone c hc hrange

end

def suffixedStyle : String := "<style><text variable=\"year-suffix\"/></style>"

def wideSuffixedStyle : List UInt8 :=
  0xff :: 0xfe :: suffixedStyle.toList.flatMap fun c => [UInt8.ofNat c.toNat, 0]

/-- A style in bytes of one character each. It names no variable, but two of its characters pass for
a dotless i. -/
def strangeStyle : List UInt8 :=
  "<?xml version='1.0' encoding='ISO-8859-1'?><style>var".toUTF8.toList ++ [0xc4, 0xb1] ++
    "able=\"year-suffix\"</style>".toUTF8.toList

theorem wideSuffixedStyle_unseen :
    ∃ root, (Document.bytes wideSuffixedStyle).parse = .ok root ∧
      Xml.textOfBytes wideSuffixedStyle = (Xml.Encoding.utf16 false).text wideSuffixedStyle ∧
      (∀ c ∈ Xml.textOfBytes wideSuffixedStyle, ¬ (0x4141 ≤ c.toNat ∧ c.toNat ≤ 0x7a7a)) ∧
      (Document.bytes wideSuffixedStyle).usesYearSuffix = false := by
  have hread : (Document.bytes wideSuffixedStyle).parse.toBool = true := by decide +kernel
  obtain ⟨root, h⟩ := exists_ok_of_toBool hread
  have hwide : Xml.textOfBytes wideSuffixedStyle =
      (Xml.Encoding.utf16 false).text wideSuffixedStyle := by decide +kernel
  have hall : (Xml.textOfBytes wideSuffixedStyle).all
      (fun c => decide (¬ (0x4141 ≤ c.toNat ∧ c.toNat ≤ 0x7a7a))) = true := by decide +kernel
  have hlatin : ∀ c ∈ Xml.textOfBytes wideSuffixedStyle,
      ¬ (0x4141 ≤ c.toNat ∧ c.toNat ≤ 0x7a7a) := fun c hc =>
    of_decide_eq_true (List.all_eq_true.mp hall c hc)
  exact ⟨root, h, hwide, hlatin, (usesYearSuffix_by_encoding h).2 _ hwide hlatin⟩

theorem encodings_disagree :
    ((Document.bytes wideSuffixedStyle).parse.toBool = true ∧
      (Document.bytes wideSuffixedStyle).usesYearSuffix = false ∧
      mentionsYearSuffix (Xml.textOfBytes wideSuffixedStyle) = true) ∧
    (Document.bytes strangeStyle).parse.toBool = true ∧
      (Document.bytes strangeStyle).usesYearSuffix = true ∧
      mentionsYearSuffix (Xml.textOfBytes strangeStyle) = false := by
  decide +kernel

end CiteStyle
