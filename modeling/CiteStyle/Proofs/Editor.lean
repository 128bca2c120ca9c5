import CiteStyle.Editor
import CiteStyle.Proofs.Report
import CiteStyle.Proofs.Style.Excerpt

/-! # The ranges that are published

When the structure of a text makes no style, an editor is shown a range of one of its lines. The
line has the number of the one that is meant, but line feeds are counted in one place and all that
ends lines in the other, so it may be another line. The range never leaves it (`published_range`).
It ends before it begins if nothing but white space stands on the line, which cannot be where only
line feeds end lines (`blankLine_inverted`). -/

namespace CiteStyle

open Text (AroundLine Line Unbroken isAllBlank isBlank)

/-- Both ends of a range lie on one line of a text, within its characters. -/
structure EditorRange.LiesOn (r : EditorRange) (number : Int) (l : Line) : Prop where
  startLine : r.start.line + 1 = number
  stopLine : r.stop.line + 1 = number
  start : 0 ≤ r.start.character ∧ r.start.character ≤ l.body.length
  stop : 0 ≤ r.stop.character ∧ r.stop.character ≤ l.body.length

def EditorRange.Ordered (r : EditorRange) : Prop :=
  r.start.line < r.stop.line ∨
    r.start.line = r.stop.line ∧ r.start.character ≤ r.stop.character

/-! ## The range of a line -/

variable {source : String} {number : Int} {l : Line}

theorem HasLine.range_liesOn (h : HasLine source number l) :
    ((Place.mk number none).range source).LiesOn number l := by
  cases hb : isAllBlank l.body with
  | true =>
    rw [h.range_of_isAllBlank hb]
    constructor <;> dsimp only <;> omega
  | false =>
    obtain ⟨leading, content, trailing, ht⟩ := Text.exists_trims hb
    have hlength : l.body.length = leading.length + (content.length + trailing.length) := by
      rw [ht.parts, List.length_append, List.length_append]
    rw [h.range_of_trims ht]
    constructor <;> dsimp only <;> omega

theorem HasLine.range_ordered_iff (h : HasLine source number l) :
    ((Place.mk number none).range source).Ordered ↔
      l.body = [] ∨ isAllBlank l.body = false := by
  cases hb : isAllBlank l.body with
  | true =>
    rw [h.range_of_isAllBlank hb, EditorRange.Ordered, ← List.length_eq_zero_iff]
    simp
  | false =>
    obtain ⟨leading, content, trailing, ht⟩ := Text.exists_trims hb
    rw [h.range_of_trims ht]
    exact iff_of_true (.inr ⟨rfl, by dsimp only; omega⟩) (.inr rfl)

/-! ## What is published -/

theorem diagnostics_of_warning {text : String} {d : Diagnostic} (hd : d ∈ diagnostics text)
    (hs : d.severity = .warning) :
    ∃ root m, (Document.text text).parse = .ok root ∧
      (buildStyle root (Document.text text).usesYearSuffix none none).result = .error m ∧
      d = (Fault.misplaced m).diagnostic text .warning := by
  unfold diagnostics at hd
  dsimp only at hd
  split at hd
  · obtain rfl := List.mem_singleton.mp hd
    cases hs
  · next root hparse =>
    split at hd
    · next m hm => exact ⟨root, m, hparse, hm, List.mem_singleton.mp hd⟩
    · exact absurd hd List.not_mem_nil

/-- Where a diagnostic stands in a text: the start tag of an element ends in the line between
`above` and `below`, and the range lies on the line of the same number as editors count. -/
structure DiagnosedAt (text : String) (d : Diagnostic) (e : Element)
    (above start rest below : List Char) (shown : Line) : Prop where
  tagEnds : (Document.text text).TagEnds e (above ++ start) (rest ++ below)
  around : AroundLine text.toList above (start ++ '>' :: rest) below
  line : HasLine text (1 + above.count '\n') shown
  range : d.range = (Place.mk (1 + above.count '\n') none).range text
  liesOn : d.range.LiesOn (1 + above.count '\n') shown

/-- **Published ranges.** A warning that is published for a text tells of an element that breaks a
rule, and its range lies on one line of the text, within the characters of that line. It ends before
it begins exactly if the line has characters and all of them are white space, and then it reaches
from the end of the line back to its start. If only line feeds, with or without a carriage return
before, end lines above the end of the element's start tag and on its line, the range lies on that
line, and is in order. -/
theorem published_range {w : Workspace} {e : DocumentEvent} {p : Publication} {d : Diagnostic}
    (hp : p ∈ (w.handle e).2) (hd : d ∈ p.diagnostics) (hs : d.severity = .warning) :
    ∃ root m r culprit, (Document.text e.text).parse = .ok root ∧
      (buildStyle root (Document.text e.text).usesYearSuffix none none).result = .error m ∧
      root.toNode.Contains culprit ∧ m.Blames r culprit ∧ d.message = m.message ∧
      ∃ above start rest below shown,
        DiagnosedAt e.text d culprit above start rest below shown ∧
        (d.range.Ordered ↔ shown.body = [] ∨ isAllBlank shown.body = false) ∧
        (isAllBlank shown.body = true → d.range.start.character = shown.body.length ∧
          d.range.stop.character = 0) ∧
        ((∀ l ∈ Text.lines above, l.endsInLineFeed = true) → Unbroken (start ++ '>' :: rest) →
          shown.body = start ++ '>' :: rest ∧ d.range.Ordered) := by
  rw [w.handle_publishes, List.mem_singleton] at hp
  subst hp
  obtain ⟨root, m, hparse, hm, rfl⟩ := diagnostics_of_warning hd hs
  obtain ⟨r, culprit, hv, hb⟩ := buildStyle_blames hm
  refine ⟨root, m, r, culprit, hparse, hm, hv.contains, hb, rfl, ?_⟩
  obtain ⟨before, after, htag⟩ :=
    (Document.ShowsText.text e.text).exists_tagEnds hparse hv.contains
  obtain ⟨above, start, rest, below, rfl, hstart, rfl, haround⟩ :=
    Text.exists_aroundLine (show '>' ≠ '\n' by decide) (by decide) before after
  rw [← htag.source] at haround
  have hnumber : m.line = 1 + above.count '\n' := by
    rw [hb.line, htag.line, List.count_append, List.count_eq_zero.mpr hstart, Nat.add_zero]
  obtain ⟨shown, hshown⟩ := haround.exists_line (by simp)
  have hline : HasLine e.text (1 + above.count '\n') shown :=
    ⟨by omega, by rwa [show (1 + (above.count '\n' : Int) - 1).toNat = above.count '\n' by omega]⟩
  have hplace : (Fault.misplaced m).line? = some (1 + above.count '\n' : Int) := by
    rw [Fault.line?, hnumber, if_neg (by omega)]
  have hrange : ((Fault.misplaced m).diagnostic e.text .warning).range =
      (Place.mk (1 + above.count '\n') none).range e.text := by
    rw [Fault.diagnostic, hplace]
    rfl
  rw [hrange]
  refine ⟨above, start, rest, below, shown,
    ⟨htag, haround, hline, hrange, hrange ▸ hline.range_liesOn⟩, hline.range_ordered_iff,
    fun hblank => ?_, fun habove hwhole => ?_⟩
  · rw [hline.range_of_isAllBlank hblank]
    exact ⟨rfl, rfl⟩
  · have hquoted : shown.quoted = start ++ '>' :: rest := by
      have hexcerpt := haround.excerpt (by simp)
      rw [← hline.lineAt_eq]
      exact hexcerpt.eq_line habove hwhole
    have hbody : shown.body = start ++ '>' :: rest :=
      (hline.wellCut.body_eq_of_quoted (hquoted ▸ hwhole)).trans hquoted
    refine ⟨hbody, hline.range_ordered_iff.mpr (.inr ?_)⟩
    rw [hbody, isAllBlank, List.all_append, List.all_cons, show isBlank '>' = false by decide,
      Bool.false_and, Bool.and_false]

/-- A style with a line separator and a blank before its first line feed, and a citation without
layout behind. -/
def blankLineStyle : String := "<style>\u2028 \n<citation/>\n</style>"

/-- The citation stands on the second line as line feeds count. The second line as editors count is
blank: the range that is published ends before it begins. -/
theorem blankLine_inverted :
    ∃ p d, p ∈ (({} : Workspace).handle (.opened "file:///test.csl" blankLineStyle)).2 ∧
      d ∈ p.diagnostics ∧ d.severity = .warning ∧
      d.message = "<citation> is missing its <layout>" ∧ d.range = ⟨⟨1, 1⟩, ⟨1, 0⟩⟩ ∧
      ¬ d.range.Ordered ∧
      ∃ culprit above start rest below shown,
        DiagnosedAt blankLineStyle d culprit above start rest below shown ∧
        shown.body ≠ [] ∧ isAllBlank shown.body = true := by
  have hpublished : diagnostics blankLineStyle =
      [⟨⟨⟨1, 1⟩, ⟨1, 0⟩⟩, "<citation> is missing its <layout>", .warning⟩] := by decide +kernel
  have hp : (⟨"file:///test.csl", diagnostics blankLineStyle⟩ : Publication) ∈
      (({} : Workspace).handle (.opened "file:///test.csl" blankLineStyle)).2 := by
    rw [Workspace.handle_publishes]
    exact List.mem_singleton.mpr rfl
  have hd := hpublished ▸ List.mem_singleton.mpr rfl
  obtain ⟨-, -, -, culprit, -, -, -, -, -, above, start, rest, below, shown, hat, hordered, -, -⟩ :=
    published_range hp hd rfl
  have hinverted : ¬ (⟨⟨1, 1⟩, ⟨1, 0⟩⟩ : EditorRange).Ordered := by
    rw [EditorRange.Ordered]
    decide
  obtain ⟨hne, hblank⟩ := not_or.mp (hordered.not.mp hinverted)
  exact ⟨_, _, hp, hd, rfl, rfl, rfl, hinverted, culprit, above, start, rest, below, shown, hat,
    hne, Bool.not_eq_false _ ▸ hblank⟩

end CiteStyle
