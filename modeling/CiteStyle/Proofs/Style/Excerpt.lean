import CiteStyle.Proofs.Cut
import CiteStyle.Proofs.Style.Refusal
import CiteStyle.Proofs.Text.Line
import CiteStyle.Report

/-! # The line that a report quotes

A misplacement has the line on which the start tag of its element ends, counted by line feeds. The
report quotes the line that has this number in the text as editors cut it. The two are the same line
where line feeds are all that ends lines (`refusal_excerpt`). -/

namespace CiteStyle

open Text (AroundLine Excerpt Unbroken lineAt indent trimStart trimEnd)

/-! ## From what is read to the words of the document -/

namespace Xml

variable {s x r : List Char} {c : Char}

theorem split_of_joinLineEnds (hc : c ≠ '\n') (h : joinLineEnds s = x ++ c :: r) :
    ∃ b a, s = b ++ c :: a ∧ joinLineEnds b = x ∧ joinLineEnds a = r := by
  fun_induction joinLineEnds s generalizing x with
  | case1 => cases x <;> cases h
  | case2 rest ih =>
    cases x with
    | nil => exact absurd (List.cons.inj h).1.symm hc
    | cons d x =>
      obtain ⟨rfl, hx⟩ := List.cons.inj h
      obtain ⟨b, a, rfl, rfl, rfl⟩ := ih hx
      exact ⟨'\r' :: '\n' :: b, a, rfl, rfl, rfl⟩
  | case3 d rest hpair ih =>
    cases x with
    | nil =>
      obtain ⟨rfl, rfl⟩ := List.cons.inj h
      exact ⟨[], rest, rfl, rfl, rfl⟩
    | cons e x =>
      obtain ⟨rfl, hx⟩ := List.cons.inj h
      obtain ⟨b, a, rfl, rfl, rfl⟩ := ih hx
      have hpair' : ∀ t, d = '\r' → b = '\n' :: t → False := by
        rintro t hd rfl
        exact hpair (t ++ c :: a) hd rfl
      exact ⟨d :: b, a, rfl, joinLineEnds.eq_3 _ _ hpair', rfl⟩

theorem split_of_skipMark (h : skipMark s = x ++ c :: r) :
    ∃ b, s = b ++ c :: r ∧ b.count '\n' = x.count '\n' := by
  cases s with
  | nil => cases x <;> cases h
  | cons d s =>
    rw [skipMark] at h
    split at h
    · next hmark =>
      have hd : d ≠ '\n' := by
        rintro rfl
        exact absurd hmark (by decide)
      exact ⟨d :: x, by rw [h, List.cons_append], List.count_cons_of_ne hd⟩
    · exact ⟨x, h, rfl⟩

end Xml

theorem split_of_blankDeclaration {s x r : List Char} (h : blankDeclaration s = x ++ '>' :: r) :
    ∃ b, s = b ++ '>' :: r ∧ b.count '\n' = x.count '\n' := by
  obtain ⟨-, hsame⟩ | ⟨t, rest, -, rfl, hblank⟩ := blankDeclaration_cases s
  · exact ⟨x, hsame ▸ h, rfl⟩
  · rw [hblank] at h
    -- a closing bracket is no blank, so this one stands after the declaration
    obtain ⟨a, rfl, rfl⟩ | ⟨a, ha, hr⟩ := List.append_eq_append_iff.mp h
    · refine ⟨t ++ ['>'] ++ a, (List.append_assoc ..).symm, ?_⟩
      simp only [List.count_append, count_blanked]
    · cases a with
      | nil =>
        refine ⟨t ++ ['>'], by rw [hr, List.nil_append], ?_⟩
        rw [← count_blanked, ha, List.append_nil]
      | cons c a =>
        obtain ⟨rfl, -⟩ := List.cons.inj hr
        refine absurd ?_ (not_mem_blanked (t ++ ['>']))
        rw [ha]
        exact List.mem_append_right x List.mem_cons_self

namespace Document

/-- The words that a document is read from are the ones that are shown of it: it is a text, or bytes
that have the same words in their own encoding as in the one they are shown in. -/
inductive ShowsText : Document → Prop
  | text (s : String) : ShowsText (.text s)
  | bytes {b : List UInt8} (h : Xml.textOfBytes b = (Document.bytes b).source.toList) :
      ShowsText (.bytes b)

theorem ShowsText.split_of_joined {d : Document} (hd : d.ShowsText) {x r : List Char}
    (h : d.joined = x ++ '>' :: r) :
    ∃ before after, d.source.toList = before ++ '>' :: after ∧
      before.count '\n' = x.count '\n' ∧ Xml.joinLineEnds after = r := by
  obtain ⟨b, a, hsplit, rfl, rfl⟩ := Xml.split_of_joinLineEnds (by decide) h
  obtain ⟨b', hread, hcount⟩ := Xml.split_of_skipMark hsplit
  rw [Xml.count_joinLineEnds (by decide), ← hcount]
  cases hd with
  | text s =>
    obtain ⟨before, hsource, hcount'⟩ := split_of_blankDeclaration hread
    exact ⟨before, a, hsource, hcount', rfl⟩
  | bytes hb => exact ⟨b', a, hb.symm.trans hread, rfl, rfl⟩

/-- The start tag of an element ends at a closing bracket between two parts of the words of a
document, and the line of the element is the one on which the bracket stands. -/
structure TagEnds (d : Document) (e : Element) (before after : List Char) : Prop where
  source : d.source.toList = before ++ '>' :: after
  startTag : ∃ entities,
    Xml.StartTagIn entities d.joined e.tag e.attributes (Xml.joinLineEnds after)
  line : e.line = 1 + before.count '\n'

theorem ShowsText.exists_tagEnds {d : Document} (hd : d.ShowsText) {root e : Element}
    (h : d.parse = .ok root) (he : root.toNode.Contains e) :
    ∃ before after, d.TagEnds e before after := by
  obtain ⟨-, hread⟩ := Document.parse_eq_ok_iff.mp h
  obtain ⟨entities, hheaded⟩ := Xml.document_headed (Xml.read_eq_ok_iff.mp hread)
  obtain ⟨rest, htag, hline⟩ := hheaded e he
  obtain ⟨x, hx⟩ := htag.closes
  obtain ⟨before, after, hsource, hcount, rfl⟩ := hd.split_of_joined hx.symm
  refine ⟨before, after, hsource, ⟨entities, htag⟩, ?_⟩
  rw [hline, ← hx, hcount, List.count_append, List.count_cons_of_ne (by decide)]
  omega

end Document

/-! ## Reports -/

def quotingReport (message : String) (line : Int) (quoted : List Char) (filename : String) :
    String :=
  let column : Int := indent quoted + 1
  let length : Int := max 1 (trimEnd (trimStart quoted)).length
  let number := toString line
  let gutter := repeated ' ' (number.length + 1)
  "error: " ++ message ++ "\n" ++
    gutter ++ "--> " ++ filename ++ ":" ++ number ++ ":" ++ toString column ++ "\n" ++
    gutter ++ "|\n" ++
    number ++ " | " ++ String.ofList quoted ++ "\n" ++
    gutter ++ "| " ++ repeated ' ' (column - 1) ++ repeated '^' length

theorem report_misplaced {m : Misplacement} (hm : m.line ≠ 0) (source filename : String) :
    (Failure.mk (.misplaced m) source).report filename =
      quotingReport m.message m.line (lineAt source.toList m.line).quoted filename := by
  have hplace : (Fault.misplaced m).line? = some m.line := if_neg hm
  rw [Failure.report, hplace]
  rfl

/-- How the report of a misplacement shows where its element stands: the start tag of the element
ends in the line between `above` and `below`, and of that line the excerpt is quoted. -/
structure ShownAt (d : Document) (m : Misplacement) (e : Element)
    (above start rest below excerpt : List Char) : Prop where
  tagEnds : d.TagEnds e (above ++ start) (rest ++ below)
  around : AroundLine d.source.toList above (start ++ '>' :: rest) below
  line : m.line = 1 + above.count '\n'
  shown : Excerpt above (start ++ '>' :: rest) excerpt
  report : ∀ filename, (Failure.mk (.misplaced m) d.source).report filename =
    quotingReport m.message m.line excerpt filename

/-- **What a report quotes.** When the structure of a document makes no style, the report gives the
line on which the start tag of the culprit ends, as line feeds count. What it quotes is that line if
only line feeds, with or without a carriage return before, end lines above it and in it. If a lone
carriage return or another separator of lines stands in the line, it is cut there; if one stands
above, an earlier line is quoted. -/
theorem refusal_excerpt {d : Document} {requested : Option String} {external : Option Locale}
    {m : Misplacement} {source : String} (hd : d.ShowsText)
    (h : (d.style requested external).result = .error ⟨.misplaced m, source⟩) :
    source = d.source ∧ ∃ root r e, d.parse = .ok root ∧ root.toNode.Contains e ∧ m.Blames r e ∧
      ∃ above start rest below excerpt, ShownAt d m e above start rest below excerpt ∧
        ((∀ l ∈ Text.lines above, l.endsInLineFeed = true) → Unbroken (start ++ '>' :: rest) →
          excerpt = start ++ '>' :: rest) := by
  obtain ⟨g, hg, hf⟩ | ⟨root, m', hparse, hbuild, hf⟩ := Document.style_eq_error_iff.mp h
  · obtain ⟨hfault, -⟩ := Failure.mk.inj hf
    obtain rfl | ⟨-, line, rfl⟩ := Document.parse_eq_error hg <;> cases hfault
  · obtain ⟨hfault, rfl⟩ := Failure.mk.inj hf
    obtain rfl := Fault.misplaced.inj hfault
    obtain ⟨r, e, hv, hb⟩ := buildStyle_blames hbuild
    obtain ⟨before, after, htag⟩ := hd.exists_tagEnds hparse hv.contains
    obtain ⟨above, start, rest, below, rfl, hstart, rfl, haround⟩ :=
      Text.exists_aroundLine (show '>' ≠ '\n' by decide) (by decide) before after
    rw [← htag.source] at haround
    have hline : m.line = 1 + above.count '\n' := by
      rw [hb.line, htag.line, List.count_append, List.count_eq_zero.mpr hstart, Nat.add_zero]
    have hshown := haround.excerpt (by simp)
    refine ⟨rfl, root, r, e, hparse, hv.contains, hb, above, start, rest, below, _,
      ⟨htag, haround, hline, hshown, fun filename => ?_⟩, hshown.eq_line⟩
    rw [report_misplaced (by omega), hline]

/-- A style with a citation without layout on its third line, and a line separator in its second. -/
def separatedStyle : String := "<style>\n<info>a\u2028b</info>\n<citation/>\n</style>"

def missingLayout : Misplacement := ⟨.withoutLayout, "citation", 3⟩

/-- The report about the third line quotes the end of the second. -/
theorem separatedStyle_excerpt :
    ((Document.text separatedStyle).style none none).result =
        .error ⟨.misplaced missingLayout, separatedStyle⟩ ∧
      (∃ root r e, (Document.text separatedStyle).parse = .ok root ∧ root.toNode.Contains e ∧
        missingLayout.Blames r e ∧ ∃ above start rest below excerpt,
          ShownAt (.text separatedStyle) missingLayout e above start rest below excerpt) ∧
      AroundLine separatedStyle.toList "<style>\n<info>a\u2028b</info>\n".toList
        "<citation/>".toList "\n</style>".toList ∧
      (Failure.mk (.misplaced missingLayout) separatedStyle).report "style.csl" =
        "error: <citation> is missing its <layout>\n  --> style.csl:3:1\n  |\n3 | b</info>\n" ++
          "  | ^^^^^^^^" := by
  have hfails : ((Document.text separatedStyle).style none none).result.map (fun _ => ()) =
      .error ⟨.misplaced missingLayout, separatedStyle⟩ := by
    decide +kernel
  have hfails := map_eq_error_iff.mp hfails
  obtain ⟨-, root, r, e, hparse, he, hb, above, start, rest, below, excerpt, hshown, -⟩ :=
    refusal_excerpt (.text separatedStyle) hfails
  refine ⟨hfails, ⟨root, r, e, hparse, he, hb, above, start, rest, below, excerpt, hshown⟩, ?_,
    by decide +kernel⟩
  exact ⟨by decide +kernel, .inr (by decide +kernel), by decide +kernel,
    .inr (.inr ⟨⟨_, rfl⟩, by decide +kernel⟩)⟩

end CiteStyle
