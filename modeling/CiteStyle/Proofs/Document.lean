import CiteStyle.Document
import CiteStyle.Proofs.Text.Utf8

/-! # Documents and how they fail

A document that cannot be read is empty, or it is shown itself with the line of a mistake
(`parse_eq_error`). An editor has the text of a document, a command its bytes: as long as the text
has no declaration, both are read alike (`parse_written`). -/

namespace CiteStyle

/-! ## What bytes are taken for -/

namespace Xml

theorem startsDeclaration_iff {s : List Char} :
    startsDeclaration s = true ↔
      ∃ c r, isSpace c = true ∧ s = declarationOpening ++ c :: r := by
  simp only [startsDeclaration, Option.any_eq_true, Option.bind_eq_some_iff,
    skip?_eq_some_iff, List.head?_eq_some_iff]
  constructor
  · rintro ⟨c, ⟨_, rfl, r, rfl⟩, hc⟩
    exact ⟨c, r, hc, rfl⟩
  · rintro ⟨c, r, hc, rfl⟩
    exact ⟨c, ⟨_, rfl, r, rfl⟩, hc⟩

theorem isSpace_lt {c : Char} (h : isSpace c = true) : c.toNat < 0x80 := by
  simp only [isSpace, Bool.or_eq_true, beq_iff_eq] at h
  rcases h with ((rfl | rfl) | rfl) | rfl <;> decide

theorem toNat_ofNat_toNat (b : UInt8) : (Char.ofNat b.toNat).toNat = b.toNat := by
  have hb := b.toNat_lt
  rw [Char.ofNat, dif_pos (.inl (by omega))]
  rfl

/-- What the bytes of a text begin with, each taken for a character, the text itself begins with if
no more than seven bits are needed. -/
theorem eq_append_of_textOfLatin1 {s beginning rest : List Char}
    (hb : ∀ c ∈ beginning, c.toNat < 0x80)
    (h : textOfLatin1 (s.flatMap String.utf8EncodeChar) = beginning ++ rest) :
    ∃ r, s = beginning ++ r := by
  induction beginning generalizing s with
  | nil => exact ⟨s, rfl⟩
  | cons a beginning ih =>
    obtain ⟨ha, hb⟩ := List.forall_mem_cons.mp hb
    cases s with
    | nil => cases h
    | cons c s =>
      rw [List.flatMap_cons, textOfLatin1, List.map_append] at h
      obtain ⟨hc, hone⟩ | ⟨-, hmany⟩ := Text.Utf8.utf8EncodeChar_cases c
      · rw [hone] at h
        obtain ⟨hca, hrest⟩ := List.cons.inj h
        have hbyte : (UInt8.ofNat c.toNat).toNat = c.toNat := by simp; omega
        have hchar : c = a := by
          calc c = Char.ofNat c.toNat := (Char.ofNat_toNat c).symm
            _ = Char.ofNat (UInt8.ofNat c.toNat).toNat := by rw [hbyte]
            _ = a := hca
        obtain ⟨r, rfl⟩ := ih hb hrest
        exact ⟨r, by rw [hchar]; rfl⟩
      · cases hbytes : String.utf8EncodeChar c with
        | nil => exact absurd hbytes String.utf8EncodeChar_ne_nil
        | cons b bytes =>
          rw [hbytes] at h hmany
          have hlow := (hmany b List.mem_cons_self).1
          obtain ⟨hba, -⟩ := List.cons.inj h
          rw [← hba, toNat_ofNat_toNat] at ha
          omega

theorem startsDeclaration_of_textOfLatin1 {s : List Char}
    (h : startsDeclaration (textOfLatin1 (s.flatMap String.utf8EncodeChar)) = true) :
    startsDeclaration s = true := by
  obtain ⟨c, r, hc, hs⟩ := startsDeclaration_iff.mp h
  have hseven : ∀ d ∈ declarationOpening ++ [c], d.toNat < 0x80 := by
    intro d hd
    obtain hd | hd := List.mem_append.mp hd
    · have hopening : declarationOpening.all (fun d => decide (d.toNat < 0x80)) = true := by decide
      exact of_decide_eq_true (List.all_eq_true.mp hopening d hd)
    · rw [List.mem_singleton.mp hd]
      exact isSpace_lt hc
  obtain ⟨r, rfl⟩ := eq_append_of_textOfLatin1 hseven (hs.trans (List.append_cons ..))
  exact startsDeclaration_iff.mpr ⟨c, r, hc, (List.append_cons ..).symm⟩

theorem textOfUtf8_map_some (s : List Char) : textOfUtf8 (s.map some) = s := by
  induction s with
  | nil => rfl
  | cons c s ih => rw [List.map_cons, textOfUtf8, ih]

/-- Bytes that a text of other characters than the barrier is never written with. -/
theorem not_mem_utf8EncodeChar {s : List Char} (hs : barrier ∉ s) {b : UInt8}
    (hb : b = 0 ∨ 0xf8 ≤ b.toNat) : b ∉ s.flatMap String.utf8EncodeChar := by
  intro hmem
  obtain ⟨c, hc, hmem⟩ := List.mem_flatMap.mp hmem
  obtain ⟨hlow, hone⟩ | ⟨-, hmany⟩ := Text.Utf8.utf8EncodeChar_cases c
  · rw [hone] at hmem
    have hbyte : b.toNat = c.toNat := by
      rw [List.mem_singleton.mp hmem]
      simp; omega
    obtain rfl | hb := hb
    · have hbarrier : c = barrier := by
        rw [← Char.ofNat_toNat c, ← hbyte]
        rfl
      exact hs (hbarrier ▸ hc)
    · omega
  · have hrange := hmany b hmem
    obtain rfl | hb := hb
    · exact absurd hrange.1 (by decide)
    · omega

/-- Without zero bytes and those of byte order marks of two bytes, the bytes are UTF-8 unless a
declaration says otherwise. -/
theorem textOfBytes_of_not_mem {bytes : List UInt8} (h0 : 0 ∉ bytes) (hfe : 0xfe ∉ bytes)
    (hff : 0xff ∉ bytes) (hd : startsDeclaration (textOfLatin1 bytes) = false) :
    textOfBytes bytes = Encoding.utf8.text bytes := by
  unfold textOfBytes
  split
  · rfl
  · exact absurd List.mem_cons_self hfe
  · exact absurd List.mem_cons_self hff
  · exact absurd (by simp) h0
  · exact absurd (by simp) h0
  · rw [textOfDeclared]
    exact if_neg (by rw [hd]; exact Bool.false_ne_true)

theorem textOfBytes_toUTF8 {s : String} (hb : barrier ∉ s.toList)
    (hd : startsDeclaration s.toList = false) : textOfBytes s.toUTF8.toList = s.toList := by
  have hdecl : startsDeclaration (textOfLatin1 s.toUTF8.toList) = false := by
    rw [Text.Utf8.toUTF8_toList, Bool.eq_false_iff]
    intro h
    rw [startsDeclaration_of_textOfLatin1 h] at hd
    cases hd
  have hmem {b : UInt8} (h : b = 0 ∨ 0xf8 ≤ b.toNat) : b ∉ s.toUTF8.toList := by
    rw [Text.Utf8.toUTF8_toList]
    exact not_mem_utf8EncodeChar hb h
  rw [textOfBytes_of_not_mem (hmem (.inl rfl)) (hmem (.inr (by decide))) (hmem (.inr (by decide)))
    hdecl, Encoding.text, Text.Utf8.decode_toUTF8, textOfUtf8_map_some]

end Xml

/-! ## Documents that cannot be read -/

namespace Document

variable {d : Document}

theorem source_ne_empty_of_not_blank (h : ¬ Text.isAllBlank d.source.toList = true) :
    d.source ≠ "" := by
  intro hempty
  rw [hempty] at h
  exact h rfl

theorem parse_eq_error {f : Failure} (h : d.parse = .error f) :
    f = ⟨.empty, ""⟩ ∨ d.source ≠ "" ∧ ∃ line, f = ⟨.malformed line, d.source⟩ := by
  unfold parse at h
  split at h
  · exact .inl (Except.error.inj h).symm
  · next hb =>
    refine .inr ⟨source_ne_empty_of_not_blank hb, ?_⟩
    cases hr : Xml.read d.readable with
    | ok root => rw [hr] at h; cases h
    | error line =>
      rw [hr] at h
      exact ⟨line, (Except.error.inj h).symm⟩

theorem source_ne_empty_of_parse {root : Element} (h : d.parse = .ok root) : d.source ≠ "" := by
  unfold parse at h
  split at h
  · cases h
  · next hb => exact source_ne_empty_of_not_blank hb

/-- A mistake with a line is shown in the document itself, whatever else is offered. -/
theorem shownIn_of_parse_error {f : Failure} (h : d.parse = .error f)
    (hl : f.fault.line?.isSome) (source : String) : f.shownIn source = ⟨f.fault, d.source⟩ := by
  obtain rfl | ⟨hne, line, rfl⟩ := parse_eq_error h
  · cases hl
  · exact if_neg hne

/-- Any mistake is shown in the document itself if that is offered. -/
theorem shownIn_source_of_parse_error {f : Failure} (h : d.parse = .error f) :
    f.shownIn d.source = ⟨f.fault, d.source⟩ := by
  obtain rfl | ⟨hne, line, rfl⟩ := parse_eq_error h
  · rfl
  · exact if_neg hne

end Document

/-! ## Texts and their bytes -/

/-- A text that has no declaration, neither one to be replaced by blanks nor one to be read, and not
the character at which reading always stops. -/
structure Undeclared (s : String) : Prop where
  noneBlanked : afterDeclaration? s.toList = none
  noneRead : Xml.startsDeclaration s.toList = false
  noBarrier : Xml.barrier ∉ s.toList

namespace Document

def written (s : String) : Document := .bytes s.toUTF8.toList

@[simp] theorem source_written (s : String) : (written s).source = s := by
  rw [written, source, Text.Utf8.lenient_toUTF8, String.ofList_toList]

theorem readable_written {s : String} (h : Undeclared s) :
    (written s).readable = (text s).readable := by
  rw [written, readable, readable, Xml.textOfBytes_toUTF8 h.noBarrier h.noneRead,
    blankDeclaration, h.noneBlanked]

/-- **A text without declaration is the same document as its bytes.** -/
theorem parse_written {s : String} (h : Undeclared s) : (written s).parse = (text s).parse := by
  rw [parse, parse, readable_written h, source_written]
  rfl

theorem usesYearSuffix_written (s : String) :
    (written s).usesYearSuffix = (text s).usesYearSuffix := by
  rw [usesYearSuffix, source_written]
  rfl

/-! ## Texts given by their characters

What is said of a document in these terms can be evaluated without encoding and decoding. -/

theorem parse_ofList (s : List Char) :
    (text (String.ofList s)).parse =
      if Text.isAllBlank s then .error ⟨.empty, ""⟩
      else (Xml.read (blankDeclaration s)).mapError fun line =>
        ⟨.malformed line, String.ofList s⟩ := by
  rw [parse, source, readable, String.toList_ofList]

theorem usesYearSuffix_ofList (s : List Char) :
    (text (String.ofList s)).usesYearSuffix = mentionsYearSuffix s := by
  rw [usesYearSuffix, source, String.toList_ofList]

end Document

end CiteStyle
