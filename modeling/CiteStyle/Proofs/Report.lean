import CiteStyle.Proofs.Text.Line
import CiteStyle.Proofs.Text.Trim
import CiteStyle.Report

/-! # Two displays of one place

A place of which only the line is known is shown twice, in a report for people and as a range for
editors. The report quotes the line with what ends it unless that is a line feed or a carriage
return, and the range is measured on the line alone. `displays_agree` says that they show the same
part of the line, the one between the white space around it, whenever there is such a part. -/

namespace CiteStyle

open Text (Line Trims isAllBlank isBlank indent lineAt trimEnd trimStart)

/-- A text has a line under a number, counted from one. -/
structure HasLine (source : String) (number : Int) (l : Line) : Prop where
  pos : 1 ≤ number
  line : (Text.lines source.toList)[(number - 1).toNat]? = some l

variable {source : String} {number : Int} {l : Line} {leading content trailing : List Char}

theorem HasLine.lineAt_eq (h : HasLine source number l) : lineAt source.toList number = l := by
  rw [lineAt, if_neg (by have := h.pos; omega), h.line, Option.getD_some]

theorem HasLine.wellCut (h : HasLine source number l) : l.WellCut :=
  Text.wellCut_of_mem_lines (List.mem_of_getElem? h.line)

/-! ## Ranges -/

theorem HasLine.range_eq (h : HasLine source number l) :
    (Place.mk number none).range source =
      ⟨⟨number - 1, indent l.body⟩, ⟨number - 1, (trimEnd l.body).length⟩⟩ := by
  rw [Place.range, h.lineAt_eq]

/-- The range covers the line without the white space around it. -/
theorem HasLine.range_of_trims (h : HasLine source number l)
    (ht : Trims isBlank l.body leading content trailing) :
    (Place.mk number none).range source =
      ⟨⟨number - 1, leading.length⟩, ⟨number - 1, leading.length + content.length⟩⟩ := by
  rw [h.range_eq, ht.indent_eq, ht.trimEnd_eq, List.length_append, Int.natCast_add]

/-- A line of white space has no such part: the range begins where it ends, and ends where it
begins. -/
theorem HasLine.range_of_isAllBlank (h : HasLine source number l)
    (hb : isAllBlank l.body = true) :
    (Place.mk number none).range source = ⟨⟨number - 1, l.body.length⟩, ⟨number - 1, 0⟩⟩ := by
  rw [h.range_eq, Text.indent_of_isAllBlank hb, Text.trimEnd_of_isAllBlank hb, List.length_nil,
    Int.natCast_zero]

/-! ## Reports -/

/-- The rows of a report above the line it quotes. -/
def reportHead (message filename : String) (number column : Int) : String :=
  let gutter := repeated ' ' ((toString number).length + 1)
  "error: " ++ message ++ "\n" ++
    gutter ++ "--> " ++ filename ++ ":" ++ toString number ++ ":" ++ toString column ++ "\n" ++
    gutter ++ "|\n"

/-- What stands before the quoted line in its row. -/
def lineGutter (number : Int) : List Char := (toString number ++ " | ").toList

/-- The row with carets under `length` characters of a line from `start` on, for a number of a given
length. -/
def caretRow (width start length : Nat) : List Char :=
  List.replicate (width + 1) ' ' ++ ('|' :: ' ' :: List.replicate start ' ') ++
    List.replicate length '^'

theorem ofList_caretRow (width start length : Nat) :
    String.ofList (caretRow width start length) = repeated ' ' (width + 1) ++ "| " ++
      repeated ' ' (start + 1 - 1) ++ repeated '^' length := by
  have hbar : String.ofList ('|' :: ' ' :: List.replicate start ' ') =
      "| " ++ String.ofList (List.replicate start ' ') := by
    rw [← String.toList_inj]
    simp
  rw [caretRow, String.ofList_append, String.ofList_append, hbar, Int.add_sub_cancel,
    ← String.append_assoc]
  rfl

theorem getElem?_append_replicate_eq_some {before : List Char} {c : Char} (hc : c ∉ before)
    (n i : Nat) : (before ++ List.replicate n c)[i]? = some c ↔
      before.length ≤ i ∧ i < before.length + n := by
  rw [List.getElem?_append]
  split
  · next hi =>
    have hne : before[i]? ≠ some c := fun h => hc (List.mem_of_getElem? h)
    simp only [hne, false_iff]
    omega
  · next hi =>
    rw [List.getElem?_replicate]
    split <;> simp <;> omega

theorem getElem?_caretRow (width start length i : Nat) :
    (caretRow width start length)[i]? = some '^' ↔
      width + 3 + start ≤ i ∧ i < width + 3 + start + length := by
  rw [caretRow, getElem?_append_replicate_eq_some (by simp)]
  simp only [List.length_append, List.length_replicate, List.length_cons]
  omega

theorem count_caretRow (width start length : Nat) :
    (caretRow width start length).count '^' = length := by
  simp [caretRow, List.count_replicate]

theorem lineFeed_not_mem_caretRow (width start length : Nat) :
    '\n' ∉ caretRow width start length := by
  simp [caretRow]

theorem lineFeed_not_mem_lineGutter (number : Int) : '\n' ∉ lineGutter number := by
  have hdigits (n : Nat) : '\n' ∉ (Nat.repr n).toList := by
    rw [Nat.repr_eq_ofList_toDigits, String.toList_ofList]
    intro h
    exact absurd (Nat.isDigit_of_mem_toDigits (by decide) (by decide) h) (by decide)
  have hnumber : '\n' ∉ (toString number).toList := by
    cases number with
    | ofNat n => exact hdigits n
    | negSucc n =>
      have hr : (toString (Int.negSucc n)).toList = '-' :: (n + 1).repr.toList :=
        String.toList_append
      rw [hr]
      exact List.not_mem_cons_of_ne_of_not_mem (by decide) (hdigits _)
  rw [lineGutter, String.toList_append, List.mem_append]
  exact not_or_intro hnumber (by decide)

/-- The report of a line with a content: its heading, the line, and carets. -/
theorem HasLine.report_eq (h : HasLine source number l)
    (ht : Trims isBlank l.quoted leading content trailing) (message filename : String) :
    (Place.mk number none).report message source filename =
      reportHead message filename number (leading.length + 1) ++
        String.ofList (lineGutter number ++ l.quoted) ++ "\n" ++
        String.ofList (caretRow (toString number).length leading.length content.length) := by
  have hpos : 0 < content.length := List.length_pos_iff.mpr ht.content_ne_nil
  have hlength : max 1 (content.length : Int) = content.length := by omega
  have hrow : String.ofList (lineGutter number ++ l.quoted) =
      toString number ++ " | " ++ String.ofList l.quoted := by
    rw [String.ofList_append, lineGutter, String.ofList_toList]
  unfold Place.report reportHead
  simp only [h.lineAt_eq, Place.underline, ht.indent_eq, ht.trimEnd_trimStart, hlength, hrow,
    ofList_caretRow, String.append_assoc]

/-! ## Agreement -/

/-- A row of characters stands under another one with carets under one part of it and nowhere
else. -/
structure Underlines (carets row before part : List Char) : Prop where
  row : before ++ part <+: row
  carets : ∀ i, carets[i]? = some '^' ↔ before.length ≤ i ∧ i < before.length + part.length

/-- A report and a range show the same part of a line: what is left of it without white space
around it. -/
structure ShowAlike (report message filename : String) (range : EditorRange) (number : Int)
    (l : Line) : Prop where
  startLine : range.start.line + 1 = number
  stopLine : range.stop.line + 1 = number
  nonempty : range.start.character < range.stop.character
  rows : ∃ leading content trailing ending carets,
    Trims isBlank l.body leading content trailing ∧
    Trims isBlank l.quoted leading content (trailing ++ ending) ∧
    report = reportHead message filename (range.start.line + 1) (range.start.character + 1) ++
      String.ofList (lineGutter number ++ l.quoted) ++ "\n" ++ String.ofList carets ∧
    '\n' ∉ lineGutter number ++ l.quoted ∧ '\n' ∉ carets ∧
    (carets.count '^' : Int) = range.stop.character - range.start.character ∧
    Underlines carets (lineGutter number ++ l.quoted) (lineGutter number ++ leading) content

/-- **The report and the diagnostic agree.** Let the line of a message exist and hold more than
white space. Then the report names the line and the column at which the diagnostic starts, counted from
one, and its last row has carets under the content of the line in the row above, as many as the
diagnostic has characters, whatever the number of the line, its indentation and its ending. -/
theorem displays_agree (message filename : String) (severity : Severity)
    (h : HasLine source number l) (hb : isAllBlank l.body = false) :
    ShowAlike (report message (some ⟨number, none⟩) source filename) message filename
      (diagnose message (some ⟨number, none⟩) source severity).range number l := by
  obtain ⟨leading, content, trailing, ht⟩ := Text.exists_trims hb
  obtain ⟨ending, hquoted, hkept⟩ := h.wellCut.quoted_eq
  have hending : ending.all isBlank = true :=
    List.all_eq_true.mpr fun c hc => Text.isBlank_of_endsLine (hkept c hc).1
  have hfeed : '\n' ∉ ending := fun hc => (hkept _ hc).2 rfl
  have htq : Trims isBlank l.quoted leading content (trailing ++ ending) :=
    hquoted ▸ ht.append hending
  have hrange : (diagnose message (some ⟨number, none⟩) source severity).range =
      ⟨⟨number - 1, leading.length⟩, ⟨number - 1, leading.length + content.length⟩⟩ :=
    h.range_of_trims ht
  have hpos : 0 < content.length := List.length_pos_iff.mpr ht.content_ne_nil
  rw [hrange]
  refine ⟨Int.sub_add_cancel .., Int.sub_add_cancel .., by dsimp only; omega, ?_⟩
  refine ⟨leading, content, trailing, ending,
    caretRow (toString number).length leading.length content.length, ht, htq, ?_, ?_,
    lineFeed_not_mem_caretRow _ _ _, ?_, ?_, fun i => ?_⟩
  · dsimp only
    rw [Int.sub_add_cancel]
    exact h.report_eq htq message filename
  · have hbody : '\n' ∉ l.body := h.wellCut.body.not_mem (by decide)
    simp [hquoted, hbody, hfeed, lineFeed_not_mem_lineGutter]
  · rw [count_caretRow]
    dsimp only
    omega
  · rw [List.append_assoc, List.prefix_append_right_inj, htq.parts, ← List.append_assoc]
    exact List.prefix_append _ _
  · rw [getElem?_caretRow]
    simp only [lineGutter, List.length_append, String.toList_append, String.length_toList]
    exact Iff.rfl

/-- A text whose tenth line is indented and ends in a line separator. -/
def indentedSource : String := "\n\n\n\n\n\n\n\n\n\t <names/> \u2028<text/>"

theorem indentedSource_shownAlike :
    HasLine indentedSource 10 ⟨"\t <names/> ".toList, ['\u2028']⟩ ∧
      isAllBlank "\t <names/> ".toList = false ∧
      ShowAlike (report "bad names" (some ⟨10, none⟩) indentedSource "s.csl") "bad names" "s.csl"
        (diagnose "bad names" (some ⟨10, none⟩) indentedSource .warning).range 10
        ⟨"\t <names/> ".toList, ['\u2028']⟩ ∧
      report "bad names" (some ⟨10, none⟩) indentedSource "s.csl" =
        "error: bad names\n   --> s.csl:10:3\n   |\n10 | \t <names/> \u2028\n" ++
          "   |   ^^^^^^^^" ∧
      (diagnose "bad names" (some ⟨10, none⟩) indentedSource .warning).range =
        ⟨⟨9, 2⟩, ⟨9, 10⟩⟩ := by
  have hline : HasLine indentedSource 10 ⟨"\t <names/> ".toList, ['\u2028']⟩ :=
    ⟨by decide, by decide +kernel⟩
  have hcontent : isAllBlank "\t <names/> ".toList = false := by decide +kernel
  exact ⟨hline, hcontent, displays_agree _ _ _ hline hcontent, by decide +kernel,
    by decide +kernel⟩

end CiteStyle
