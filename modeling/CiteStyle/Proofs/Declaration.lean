import CiteStyle.Proofs.Document
import CiteStyle.Proofs.Xml.Indentation

/-! # Declarations before texts

A text says nothing about its encoding: a declaration before it only moves it down
(`parse_declared_eq_ok_iff`), and without one a text and its bytes are the same document
(`written_agrees`). -/

namespace CiteStyle

open Text (isBlank isAllBlank isWordCharacter trimStart)

/-- A declaration as it may stand before a text: white space, an opening that is the whole of a
word, and all up to the first closing bracket, which a question mark stands before. White space in
it is white space of documents. -/
structure IsDeclaration (d : List Char) : Prop where
  parts : ∃ space inside, d = space ++ (Xml.declarationOpening ++ (inside ++ ['>'])) ∧
    (∀ c ∈ space, Xml.isSpace c = true) ∧ inside.head?.any isWordCharacter = false ∧
    '>' ∉ inside ∧ inside.getLast? = some '?'
  plain : ∀ c ∈ d, isBlank c = true → Xml.isSpace c = true

/-- Where a declaration would begin, none does. -/
def OpensNoDeclaration (s : List Char) : Prop := ¬ Xml.declarationOpening <+: trimStart s

instance (s : List Char) : Decidable (OpensNoDeclaration s) :=
  inferInstanceAs (Decidable (¬ Xml.declarationOpening <+: trimStart s))

theorem OpensNoDeclaration.afterDeclaration? {s : List Char} (h : OpensNoDeclaration s) :
    afterDeclaration? s = none := by
  cases hs : Xml.skip? Xml.declarationOpening (s.dropWhile isBlank) with
  | none =>
    rw [CiteStyle.afterDeclaration?, hs]
  | some r => exact absurd ⟨r, (Xml.skip?_eq_some_iff.mp hs).symm⟩ h

theorem OpensNoDeclaration.not_prefix {s : List Char} (h : OpensNoDeclaration s) :
    ¬ Xml.declarationOpening <+: s := by
  rintro ⟨r, rfl⟩
  exact h ⟨r, rfl⟩

theorem isBlank_of_isSpace {c : Char} (h : Xml.isSpace c = true) : isBlank c = true := by
  simp only [Xml.isSpace, Bool.or_eq_true, beq_iff_eq] at h
  rcases h with ((rfl | rfl) | rfl) | rfl <;> decide

/-! ## What is left of a declaration -/

/-- The white space that a declaration leaves. -/
def blanked (d : List Char) : List Char := d.map fun c => if isBlank c then c else ' '

theorem afterDeclaration?_append {d b : List Char} (hd : IsDeclaration d) :
    afterDeclaration? (d ++ b) = some b := by
  obtain ⟨space, inside, rfl, hspace, hword, hbracket, hlast⟩ := hd.parts
  have hdrop : (space ++ (Xml.declarationOpening ++ (inside ++ ['>'])) ++ b).dropWhile isBlank =
      Xml.declarationOpening ++ (inside ++ '>' :: b) := by
    rw [List.append_assoc, List.dropWhile_append_of_pos fun c hc => isBlank_of_isSpace (hspace c hc)]
    simp [Xml.declarationOpening, show isBlank '<' = false by decide]
  have hskip : Xml.skip? Xml.declarationOpening
      (Xml.declarationOpening ++ (inside ++ '>' :: b)) = some (inside ++ '>' :: b) :=
    Xml.skip?_eq_some_iff.mpr rfl
  have hinside : ∀ c ∈ inside, (c != '>') = true := by
    intro c hc
    exact bne_iff_ne.mpr fun h => hbracket (h ▸ hc)
  have hhead : (inside ++ '>' :: b).head?.any isWordCharacter = false := by
    cases inside with
    | nil => cases hlast
    | cons c inside => exact hword
  have htake : (inside ++ '>' :: b).takeWhile (· != '>') = inside := by
    rw [List.takeWhile_append_of_pos hinside]
    simp
  have hrest : (inside ++ '>' :: b).dropWhile (· != '>') = '>' :: b := by
    rw [List.dropWhile_append_of_pos hinside]
    simp
  rw [afterDeclaration?, hdrop, hskip]
  dsimp only
  rw [hhead, htake, hrest, hlast]
  rfl

theorem blankDeclaration_append {d b : List Char} (hd : IsDeclaration d) :
    blankDeclaration (d ++ b) = blanked d ++ b := by
  rw [blankDeclaration, afterDeclaration?_append hd]
  simp [blanked]

theorem isSpace_of_mem_blanked {d : List Char} (hd : IsDeclaration d) :
    ∀ c ∈ blanked d, Xml.isSpace c = true := by
  intro c hc
  obtain ⟨e, he, rfl⟩ := List.mem_map.mp hc
  by_cases h : isBlank e = true
  · rw [if_pos h]
    exact hd.plain e he h
  · rw [if_neg h]
    rfl

theorem count_blanked (d : List Char) : (blanked d).count '\n' = d.count '\n' := by
  induction d with
  | nil => rfl
  | cons c d ih =>
    rw [blanked, List.map_cons, ← blanked, List.count_cons, List.count_cons, ih]
    by_cases h : isBlank c = true
    · rw [if_pos h]
    · have hc : c ≠ '\n' := fun hc => h (hc ▸ by decide)
      rw [if_neg h]
      simp [hc]

theorem not_mem_blanked (d : List Char) : '>' ∉ blanked d := by
  intro hm
  obtain ⟨c, -, hc⟩ := List.mem_map.mp hm
  split at hc
  · next hblank => exact absurd (hc ▸ hblank) (by decide)
  · cases hc

theorem getLast?_blanked {d : List Char} (hd : IsDeclaration d) :
    (blanked d).getLast? = some ' ' := by
  obtain ⟨space, inside, rfl, -⟩ := hd.parts
  simp [blanked, show isBlank '>' = false by decide]

/-! ## Texts with a declaration -/

theorem not_isAllBlank_declared {d b : List Char} (hd : IsDeclaration d) :
    ¬ isAllBlank (d ++ b) = true := by
  obtain ⟨space, inside, rfl, -⟩ := hd.parts
  simp [isAllBlank, show isBlank '>' = false by decide]

theorem Document.parse_eq_ok_iff {d : Document} {root : Element} :
    d.parse = .ok root ↔ isAllBlank d.source.toList = false ∧ Xml.read d.readable = .ok root := by
  unfold parse
  cases hb : isAllBlank d.source.toList with
  | true => simp
  | false =>
    rw [if_neg Bool.false_ne_true, and_iff_right rfl]
    cases Xml.read d.readable with
    | error line =>
      constructor
      · intro h
        cases h
      · intro h
        cases h
    | ok e =>
      constructor
      · intro h
        cases h
        rfl
      · intro h
        cases h
        rfl

/-- **A declaration before a text only moves it down.** Whatever a declaration says, the text after
it is read as it is read alone, and every element stands as many lines further down as the
declaration has line feeds. -/
theorem parse_declared_eq_ok_iff {d b : String} (hd : IsDeclaration d.toList)
    (hblank : isAllBlank b.toList = false) (hmark : b.toList.head? ≠ some '\ufeff')
    (hopen : OpensNoDeclaration b.toList) (root : Element) :
    (Document.text (d ++ b)).parse = .ok root ↔
      ∃ e, (Document.text b).parse = .ok e ∧ e.movedDown (d.toList.count '\n') = root := by
  have hskip : Xml.skipMark b.toList = b.toList := by
    cases hb : b.toList with
    | nil => rfl
    | cons c r =>
      refine if_neg fun hc => hmark ?_
      rw [hb, List.head?_cons, ← Char.ofNat_toNat c, hc]
  have hlast : (blanked d.toList).getLast? ≠ some '\r' := by
    rw [getLast?_blanked hd]
    decide
  have hdeclared : (Document.text (d ++ b)).readable = blanked d.toList ++ b.toList := by
    rw [Document.readable, String.toList_append, blankDeclaration_append hd]
  have halone (e : Element) :
      (Document.text b).parse = .ok e ↔ Xml.read b.toList = .ok e := by
    rw [Document.parse_eq_ok_iff, Document.readable, blankDeclaration, hopen.afterDeclaration?]
    exact and_iff_right hblank
  have hsource : isAllBlank (Document.text (d ++ b)).source.toList = false := by
    rw [Document.source, String.toList_append]
    exact Bool.eq_false_iff.mpr (not_isAllBlank_declared hd)
  simp only [halone]
  rw [Document.parse_eq_ok_iff, hdeclared, and_iff_right hsource,
    Xml.read_append_eq_ok_iff (isSpace_of_mem_blanked hd) hlast hskip hopen.not_prefix,
    count_blanked]

def strangeDeclaration : String := "\n<?xml version=\"1.0\"\n\tencoding=\"none such\"?>"

def threeLines : String := "\n<a>\n<b/></a>"

theorem strangeDeclaration_movesDown :
    IsDeclaration strangeDeclaration.toList ∧ isAllBlank threeLines.toList = false ∧
    threeLines.toList.head? ≠ some '\ufeff' ∧ OpensNoDeclaration threeLines.toList ∧
    ∃ root, (Document.text (strangeDeclaration ++ threeLines)).parse = .ok root ∧
      root.line = 4 ∧ root.elements.map Element.line = [5] := by
  have hd : IsDeclaration strangeDeclaration.toList :=
    { parts := ⟨['\n'], " version=\"1.0\"\n\tencoding=\"none such\"?".toList, by decide +kernel,
        List.all_eq_true.mp (by decide), by decide +kernel, by decide +kernel, by decide +kernel⟩
      plain := by
        have hall : strangeDeclaration.toList.all (fun c => !isBlank c || Xml.isSpace c) = true := by
          decide +kernel
        intro c hc hblank
        simpa [hblank] using List.all_eq_true.mp hall c hc }
  have hblank : isAllBlank threeLines.toList = false := by decide
  have hmark : threeLines.toList.head? ≠ some '\ufeff' := by decide
  have hopen : OpensNoDeclaration threeLines.toList := by decide
  refine ⟨hd, hblank, hmark, hopen, ?_⟩
  have hlines : (Document.text threeLines).parse.toOption.map (fun e =>
      let moved := e.movedDown (strangeDeclaration.toList.count '\n')
      (moved.line, moved.elements.map Element.line)) = some (4, [5]) := by
    decide +kernel
  cases he : (Document.text threeLines).parse with
  | error f =>
    rw [he] at hlines
    cases hlines
  | ok e =>
    rw [he] at hlines
    obtain ⟨hroot, hchild⟩ := Prod.mk.inj (Option.some.inj hlines)
    exact ⟨_, (parse_declared_eq_ok_iff hd hblank hmark hopen _).mpr ⟨e, he, rfl⟩, hroot, hchild⟩

/-! ## Texts without a declaration -/

/-- **Without a declaration a text and its bytes are the same document.** Either both are read, as the
same tree, or both fail in the same way, on the same line and with the same words to show; and both
refer to the year suffix or neither does. -/
theorem written_agrees {s : String} (hbarrier : Xml.barrier ∉ s.toList)
    (hopen : OpensNoDeclaration s.toList) :
    (Document.written s).parse = (Document.text s).parse ∧
      (Document.written s).usesYearSuffix = (Document.text s).usesYearSuffix :=
  ⟨Document.parse_written
      ⟨hopen.afterDeclaration?, Xml.startsDeclaration_eq_false hopen.not_prefix, hbarrier⟩,
    Document.usesYearSuffix_written s⟩

/-- A text with other letters than those of one byte, one of which counts as an ordinary s. -/
def accentedText : String := "\n<é variable=\"year-ſuffix\">€</é>"

theorem accentedText_agrees :
    Xml.barrier ∉ accentedText.toList ∧ OpensNoDeclaration accentedText.toList ∧
    (Document.written accentedText).parse = (Document.text accentedText).parse ∧
    (Document.written accentedText).parse.toBool = true ∧
    (Document.written accentedText).usesYearSuffix = true := by
  have hbarrier : Xml.barrier ∉ accentedText.toList := by decide +kernel
  have hopen : OpensNoDeclaration accentedText.toList := by decide
  obtain ⟨hparse, hflag⟩ := written_agrees hbarrier hopen
  refine ⟨hbarrier, hopen, hparse, ?_, ?_⟩
  · rw [hparse]
    decide +kernel
  · rw [hflag]
    decide +kernel

end CiteStyle
