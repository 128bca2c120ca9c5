import CiteStyle.Proofs.Declaration
import CiteStyle.Proofs.Xml.Comment

/-! # Cuts through the content of a document

What stands before a place in content is read as it is, whatever follows there: the declaration is
replaced by blanks (`lead_append`) and line ends are joined on each side alone, unless one is cut in
two. So a comment may come there (`Cut.parse_commented`). -/

namespace CiteStyle

open Text (isBlank isAllBlank)

/-! ## Blanks for a declaration -/

namespace Xml

theorem skip?_append_of_mem {beginning s : List Char} (x : List Char) (hs : '>' ∈ s)
    (hb : '>' ∉ beginning) : skip? beginning (s ++ x) = (skip? beginning s).map (· ++ x) := by
  induction beginning generalizing s with
  | nil => rfl
  | cons c beginning ih =>
    obtain ⟨hc, hb⟩ := not_or.mp (List.mem_cons.not.mp hb)
    cases s with
    | nil => cases hs
    | cons d s =>
      rw [List.cons_append, skip?, skip?]
      split
      · next hcd =>
        obtain rfl | hs := List.mem_cons.mp hs
        · exact absurd hcd.symm hc
        · exact ih hs hb
      · rfl

end Xml

/-- What stands up to the closing bracket of a declaration, if it is there at all, decides whether
there is one. -/
theorem afterDeclaration?_append_of_mem {b : List Char} (x : List Char) (hb : '>' ∈ b) :
    afterDeclaration? (b ++ x) = (afterDeclaration? b).map (· ++ x) := by
  have hdrop : '>' ∈ b.dropWhile isBlank := by
    rw [← List.takeWhile_append_dropWhile (p := isBlank) (l := b), List.mem_append] at hb
    exact hb.resolve_left fun h => absurd (List.mem_takeWhile_imp h) (by decide)
  have hdropped : (b ++ x).dropWhile isBlank = b.dropWhile isBlank ++ x := by
    rw [List.dropWhile_append, if_neg (by simpa using List.ne_nil_of_mem hdrop)]
  unfold afterDeclaration?
  rw [hdropped, Xml.skip?_append_of_mem x hdrop (by decide)]
  cases hs : Xml.skip? Xml.declarationOpening (b.dropWhile isBlank) with
  | none => rfl
  | some r =>
    have hr : '>' ∈ r := by
      rw [Xml.skip?_eq_some_iff.mp hs, List.mem_append] at hdrop
      exact hdrop.resolve_left (by decide)
    obtain ⟨inside, rest, rfl, hinside⟩ := List.eq_append_cons_of_mem hr
    have hne : ∀ c ∈ inside, (c != '>') = true :=
      fun c hc => bne_iff_ne.mpr fun h => hinside (h ▸ hc)
    have hhead (v : List Char) : (inside ++ '>' :: v).head? = (inside ++ ['>']).head? := by
      cases inside <;> rfl
    have htake (v : List Char) : (inside ++ '>' :: v).takeWhile (· != '>') = inside := by
      rw [List.takeWhile_append_of_pos hne]
      simp
    have hrest (v : List Char) : (inside ++ '>' :: v).dropWhile (· != '>') = '>' :: v := by
      rw [List.dropWhile_append_of_pos hne]
      simp
    simp only [Option.map_some, List.append_assoc, List.cons_append, hhead, htake, hrest]
    split
    · rfl
    · split <;> rfl

theorem afterDeclaration?_eq_some {b rest : List Char} (h : afterDeclaration? b = some rest) :
    ∃ t, b = t ++ '>' :: rest := by
  unfold afterDeclaration? at h
  split at h
  · cases h
  · next r hs =>
    dsimp only at h
    split at h
    · cases h
    · split at h
      · have hsuffix : r <:+ b := (Xml.skip?_eq_some_iff.mp hs ▸ List.suffix_append _ r).trans
          (List.dropWhile_suffix isBlank)
        cases hd : r.dropWhile (· != '>') with
        | nil => rw [hd] at h; cases h
        | cons c u =>
          rw [hd] at h
          obtain rfl := Option.some.inj h
          have hc : c = '>' := by
            have := List.head?_dropWhile_not (· != '>') r
            rw [hd] at this
            simpa using this
          obtain ⟨t, ht⟩ := (hd ▸ List.dropWhile_suffix (· != '>') : c :: u <:+ r).trans hsuffix
          exact ⟨t, hc ▸ ht.symm⟩
      · cases h

/-- What a text with a declaration looks like before and after that is replaced. -/
theorem blankDeclaration_cases (b : List Char) :
    afterDeclaration? b = none ∧ blankDeclaration b = b ∨
    ∃ t rest, afterDeclaration? b = some rest ∧ b = (t ++ ['>']) ++ rest ∧
      blankDeclaration b = blanked (t ++ ['>']) ++ rest := by
  cases h : afterDeclaration? b with
  | none => exact .inl ⟨rfl, by rw [blankDeclaration, h]⟩
  | some rest =>
    obtain ⟨t, ht⟩ := afterDeclaration?_eq_some h
    rw [List.append_cons] at ht
    refine .inr ⟨t, rest, rfl, ht, ?_⟩
    have hlength : b.length - rest.length = (t ++ ['>']).length := by
      rw [ht, List.length_append]
      omega
    rw [blankDeclaration, h]
    dsimp only
    rw [hlength, ht, List.take_left]
    rfl

/-- What a text before a place is read as, line ends apart. -/
def lead (b : List Char) : List Char := Xml.skipMark (blankDeclaration b)

theorem blankDeclaration_ne_nil {b : List Char} (hb : b ≠ []) : blankDeclaration b ≠ [] := by
  obtain ⟨-, h⟩ | ⟨t, rest, -, -, h⟩ := blankDeclaration_cases b
  · rwa [h]
  · simp [h, blanked]

theorem skipMark_append {b : List Char} (hb : b ≠ []) (x : List Char) :
    Xml.skipMark (b ++ x) = Xml.skipMark b ++ x := by
  cases b with
  | nil => exact absurd rfl hb
  | cons c b =>
    rw [List.cons_append, Xml.skipMark, Xml.skipMark]
    split <;> rfl

theorem lead_append {b : List Char} (hb : '>' ∈ b) (x : List Char) :
    lead (b ++ x) = lead b ++ x := by
  have hblank : blankDeclaration (b ++ x) = blankDeclaration b ++ x := by
    have hmap := afterDeclaration?_append_of_mem x hb
    obtain ⟨hnone, h⟩ | ⟨t, rest, hsome, hsplit, h⟩ := blankDeclaration_cases b
    · rw [h, blankDeclaration, hmap, hnone]
      rfl
    · have hlength : (b ++ x).length - (rest ++ x).length = (t ++ ['>']).length := by
        rw [hsplit]
        simp only [List.length_append]
        omega
      rw [h, blankDeclaration, hmap, hsome]
      dsimp only [Option.map_some]
      rw [hlength, hsplit, List.append_assoc, List.take_left]
      exact (List.append_assoc ..).symm
  rw [lead, hblank, skipMark_append (blankDeclaration_ne_nil (List.ne_nil_of_mem hb)), lead]

theorem getLast?_lead (b : List Char) :
    (lead b).getLast? = some '\r' ↔ b.getLast? = some '\r' := by
  have hmark (s : List Char) :
      (Xml.skipMark s).getLast? = some '\r' ↔ s.getLast? = some '\r' := by
    cases s with
    | nil => rfl
    | cons c s =>
      rw [Xml.skipMark]
      split
      · next hc =>
        cases s with
        | nil =>
          have hne : c ≠ '\r' := by
            rintro rfl
            exact absurd hc (by decide)
          simp [hne]
        | cons d s => rw [List.getLast?_cons_cons]
      · rfl
  rw [lead, hmark]
  obtain ⟨-, h⟩ | ⟨t, rest, -, rfl, h⟩ := blankDeclaration_cases b
  · rw [h]
  · rw [h, List.getLast?_append, List.getLast?_append]
    cases rest.getLast? with
    | none => simp [blanked, show isBlank '>' = false by decide]
    | some c => rfl

theorem count_lead_le (b : List Char) : (lead b).count '>' ≤ b.count '>' := by
  have hmark (s : List Char) : (Xml.skipMark s).count '>' ≤ s.count '>' := by
    cases s with
    | nil => exact le_rfl
    | cons c s =>
      rw [Xml.skipMark]
      split
      · exact List.count_le_count_cons
      · exact le_rfl
  refine (hmark _).trans ?_
  obtain ⟨-, h⟩ | ⟨t, rest, -, rfl, h⟩ := blankDeclaration_cases b
  · rw [h]
  · have hnone : (blanked (t ++ ['>'])).count '>' = 0 := List.count_eq_zero.mpr (not_mem_blanked _)
    rw [h, List.count_append, List.count_append, hnone, Nat.zero_add]
    exact Nat.le_add_left _ _

/-! ## Cuts -/

def commentMark : String := "<!-- -->"

/-- Whether the end of one text and the beginning of another make up a single line end. -/
def cutsLineEnd (b a : List Char) : Bool := b.getLast? == some '\r' && a.head? == some '\n'

/-- The text that a document is read from, with its line ends joined. -/
def Document.joined (d : Document) : List Char := Xml.joinLineEnds (Xml.skipMark d.readable)

/-- A cut of a text in two parts at a place in the content of an element: where a reader stands that
has come there from the start tag of the root, piece by piece. -/
structure Cut (before after : String) where
  start : Xml.Standing
  opens : Xml.contentStart? (Document.text (before ++ after)).joined = some start
  steps : Nat
  standing : Xml.Standing
  reached : start.after steps = some standing
  ahead : standing.ahead = Xml.joinLineEnds after.toList

/-- The cut at the place that some pieces of content lead to from the start tag of the root, if that
is where the two parts of the text meet. -/
def Cut.find? (before after : String) (steps : Nat) : Option (Cut before after) :=
  match opens : Xml.contentStart? (Document.text (before ++ after)).joined with
  | none => none
  | some start =>
    match reached : start.after steps with
    | none => none
    | some standing =>
      if ahead : standing.ahead = Xml.joinLineEnds after.toList then
        some { start, opens, steps, standing, reached, ahead }
      else none

namespace Cut

variable {before after : String} (p : Cut before after)

/-- What a comment adds to the character data before it: half a line end is a whole one. -/
def added (_ : Cut before after) : List Char :=
  if cutsLineEnd before.toList after.toList then ['\n'] else []

def commented : List Char :=
  (if cutsLineEnd before.toList after.toList then ['\r'] else []) ++
    (commentMark.toList ++ p.standing.ahead)

theorem map_standing_find? (b a : List Char) (steps : Nat) :
    (find? (String.ofList b) (String.ofList a) steps).map standing =
      ((Xml.contentStart? (Xml.joinLineEnds (lead (b ++ a)))).bind (·.after steps)).filter
        fun q => q.ahead = Xml.joinLineEnds a := by
  have hjoined : (Document.text (String.ofList b ++ String.ofList a)).joined =
      Xml.joinLineEnds (lead (b ++ a)) := by
    rw [Document.joined, Document.readable, lead, String.toList_append, String.toList_ofList,
      String.toList_ofList]
  unfold find?
  split
  · next hopens =>
    rw [hjoined] at hopens
    rw [hopens]
    rfl
  · next start hopens =>
    have hstart := hopens
    rw [hjoined] at hstart
    rw [hstart, Option.bind_some]
    split
    · next hreached =>
      rw [hreached]
      rfl
    · next q hreached =>
      have hend : Option.filter (fun q => q.ahead = Xml.joinLineEnds a) (start.after steps) =
          if q.ahead = Xml.joinLineEnds (String.ofList a).toList then some q else none := by
        rw [hreached, Option.filter_some, String.toList_ofList]
        simp only [decide_eq_true_eq]
      rw [hend]
      split <;> rfl

/-- The start tag of the root stands before the place. -/
theorem bracket_mem (p : Cut before after) : '>' ∈ before.toList := by
  obtain ⟨v, hv⟩ := Xml.contentStart?_closes p.opens
  obtain ⟨t, ht, -⟩ := Xml.taken_of_after p.reached
  have hread : (Document.text (before ++ after)).joined.count '>' ≤
      (before.toList ++ after.toList).count '>' := by
    rw [Document.joined, Xml.count_joinLineEnds (by decide)]
    refine (count_lead_le (before ++ after).toList).trans ?_
    rw [String.toList_append]
  rw [← hv, ht, p.ahead] at hread
  simp only [List.count_append, List.count_cons_self, Xml.count_joinLineEnds
    (show '>' ≠ '\r' by decide)] at hread
  exact List.count_pos_iff.mp (by omega)

theorem joined_commented {u : List Char}
    (hu : (Document.text (before ++ after)).joined = u ++ p.standing.ahead) :
    (Document.text (before ++ commentMark ++ after)).joined = u ++ p.commented := by
  have hread (x : List Char) : Xml.skipMark (blankDeclaration (before.toList ++ x)) =
      lead before.toList ++ x := lead_append p.bracket_mem x
  have hmark (t : List Char) : Xml.joinLineEnds (commentMark.toList ++ t) =
      commentMark.toList ++ Xml.joinLineEnds t := rfl
  rw [Document.joined, Document.readable, String.toList_append, hread, p.ahead] at hu
  rw [Document.joined, Document.readable, String.toList_append, String.toList_append,
    List.append_assoc, hread, commented, p.ahead]
  by_cases hcut : cutsLineEnd before.toList after.toList = true
  · rw [if_pos hcut]
    obtain ⟨hlast, hhead⟩ := Bool.and_eq_true_iff.mp hcut
    obtain ⟨v, hv⟩ := List.getLast?_eq_some_iff.mp ((getLast?_lead _).mpr (beq_iff_eq.mp hlast))
    obtain ⟨w, hw⟩ := List.head?_eq_some_iff.mp (beq_iff_eq.mp hhead)
    have hpair : Xml.joinLineEnds ('\r' :: after.toList) = Xml.joinLineEnds after.toList := by
      rw [hw]
      rfl
    have happend (x : List Char) : Xml.joinLineEnds (v ++ '\r' :: x) =
        Xml.joinLineEnds v ++ Xml.joinLineEnds ('\r' :: x) :=
      Xml.joinLineEnds_append fun _ => by simp
    rw [hv, List.append_assoc, List.singleton_append, happend] at hu ⊢
    rw [hpair, List.append_cancel_right_eq] at hu
    rw [hu]
    rfl
  · have happend {x : List Char} (hx : cutsLineEnd before.toList x ≠ true) :
        Xml.joinLineEnds (lead before.toList ++ x) =
          Xml.joinLineEnds (lead before.toList) ++ Xml.joinLineEnds x := by
      refine Xml.joinLineEnds_append fun hlast hhead => hx ?_
      rw [cutsLineEnd, (getLast?_lead _).mp hlast, hhead]
      rfl
    rw [if_neg hcut, List.nil_append]
    rw [happend hcut, List.append_cancel_right_eq] at hu
    rw [happend (by simp [cutsLineEnd, commentMark]), hu, hmark]

/-- The comment is a gap, after what the half of a line end adds. -/
theorem content_commented : (p.standing.facing p.commented).content =
    Xml.Standing.content { p.standing with
      top := (p.standing.top.write p.added).settle } := by
  have hgap (q : Xml.Standing) : (q.facing (commentMark.toList ++ q.ahead)).content =
      Xml.Standing.content { q with top := q.top.settle } := Xml.content_next rfl
  unfold commented added
  split
  · exact (Xml.content_next rfl).trans (hgap { p.standing with top := p.standing.top.write ['\n'] })
  · exact hgap p.standing

/-- The texts that a comment at the place divides differently, and how. -/
def division : Division := p.standing.division p.added

/-- **A comment may stand anywhere in content.** A document that is read is still read with a
comment in it, as the same tree, except that the run of character data around the comment is made
two texts. -/
theorem parse_commented {root : Element} (h : (Document.text (before ++ after)).parse = .ok root) :
    ∃ root', (Document.text (before ++ commentMark ++ after)).parse = .ok root' ∧
      root.Redivided p.division .document root' := by
  have hread {d : Document} {e : Element} : Xml.read d.readable = .ok e ↔
      Xml.document d.joined = .ok e := Xml.read_eq_ok_iff
  obtain ⟨hblank, h⟩ := Document.parse_eq_ok_iff.mp h
  rw [hread, Xml.document_eq_ok_iff p.opens, Xml.content_after p.reached] at h
  obtain ⟨v, hcontent, hmisc⟩ := h
  obtain ⟨root', hcontent', hsame⟩ := Xml.content_withGap p.added hcontent
  refine ⟨root', Document.parse_eq_ok_iff.mpr ⟨?_, ?_⟩, hsame⟩
  · simp [Document.source, commentMark, isAllBlank, show isBlank '<' = false by decide]
  · obtain ⟨a, ha, hopens⟩ := Xml.taken_of_contentStart? p.opens
    obtain ⟨b, hb, hreached⟩ := Xml.taken_of_after p.reached
    have hcount : p.commented.count '\n' = p.standing.ahead.count '\n' := by
      rw [commented]
      split <;> simp [commentMark]
    have hlength : p.standing.ahead.length ≤ p.commented.length := by
      simp [commented]
      omega
    have hreplaces : Xml.Replaces p.standing.ahead p.commented := by
      refine ⟨[], p.standing.ahead, p.commented, rfl, rfl, hcount, fun c hc => ?_⟩
      rw [commented] at hc
      split at hc <;> obtain rfl := Option.some.inj hc <;> decide
    have hnew := p.joined_commented (u := a ++ b) (by rw [ha, hb, List.append_assoc])
    rw [List.append_assoc] at hnew
    have hstart := hopens (b ++ p.commented) ⟨by rw [hb]; simp [hcount], by rw [hb]; simp [hlength]⟩
    rw [← hnew] at hstart
    rw [hread, Xml.document_eq_ok_iff hstart,
      Xml.content_after (hreached _ hreplaces), p.content_commented]
    exact ⟨v, hcontent', hmisc⟩

end Cut

end CiteStyle
