import CiteStyle.Text.Line
import Mathlib.Data.List.Count

/-! # Lines under numbers that count line feeds

A text is shown line by line as editors cut it, but a place in it may have a number that counts line
feeds alone. `Excerpt` says what is shown under such a number: the line that is meant if nothing but
line feeds, with or without a carriage return before, ends a line up to there, and else a part of it
or an earlier line (`AroundLine.excerpt`). -/

namespace CiteStyle.Text

/-- No character in the text ends a line. -/
def Unbroken (s : List Char) : Prop := ∀ c ∈ s, endsLine c = false

theorem Unbroken.not_mem {s : List Char} (h : Unbroken s) {c : Char} (hc : endsLine c = true) :
    c ∉ s := fun hm => Bool.false_ne_true ((h c hm).symm.trans hc)

theorem unbroken_nil : Unbroken [] := fun _ hc => absurd hc List.not_mem_nil

theorem unbroken_cons {c : Char} {s : List Char} :
    Unbroken (c :: s) ↔ endsLine c = false ∧ Unbroken s := List.forall_mem_cons

theorem unbroken_append {s t : List Char} : Unbroken (s ++ t) ↔ Unbroken s ∧ Unbroken t :=
  List.forall_mem_append

/-- A text has a first character that ends a line, or none. -/
theorem unbroken_or_split (s : List Char) :
    Unbroken s ∨ ∃ start c rest, s = start ++ c :: rest ∧ Unbroken start ∧ endsLine c = true := by
  induction s with
  | nil => exact .inl fun _ hc => absurd hc List.not_mem_nil
  | cons c s ih =>
    cases hc : endsLine c with
    | true => exact .inr ⟨[], c, s, rfl, fun _ hm => absurd hm List.not_mem_nil, hc⟩
    | false =>
      obtain hs | ⟨start, d, rest, rfl, hstart, hd⟩ := ih
      · exact .inl (List.forall_mem_cons.mpr ⟨hc, hs⟩)
      · exact .inr ⟨c :: start, d, rest, rfl, List.forall_mem_cons.mpr ⟨hc, hstart⟩, hd⟩

/-! ## The line at the front -/

/-- A character that ends a line and is not the first half of a line end of two. -/
theorem linesAfter_of_endsLine {c : Char} {rest : List Char} (body : List Char)
    (hc : endsLine c = true) (hpair : c = '\r' → rest.head? ≠ some '\n') :
    linesAfter body (c :: rest) = ⟨body.reverse, [c]⟩ :: lines rest := by
  rw [linesAfter.eq_3 _ _ _ (by rintro r rfl rfl; exact hpair rfl rfl), if_pos hc, lines]

theorem linesAfter_unbroken_append {start : List Char} (h : Unbroken start) (body rest : List Char) :
    linesAfter body (start ++ rest) = linesAfter (start.reverse ++ body) rest := by
  induction start generalizing body with
  | nil => rfl
  | cons c start ih =>
    obtain ⟨hc, hstart⟩ := List.forall_mem_cons.mp h
    have hpair : ∀ r, c = '\r' → start ++ rest = '\n' :: r → False := by
      rintro r rfl -
      cases hc
    rw [List.cons_append, linesAfter.eq_3 _ _ _ hpair, if_neg (by rw [hc]; exact Bool.false_ne_true),
      ih hstart, List.reverse_cons, List.append_assoc, List.singleton_append]

theorem lines_of_endsLine {start rest : List Char} {c : Char} (h : Unbroken start)
    (hc : endsLine c = true) (hpair : c = '\r' → rest.head? ≠ some '\n') :
    lines (start ++ c :: rest) = ⟨start, [c]⟩ :: lines rest := by
  rw [lines, linesAfter_unbroken_append h, linesAfter_of_endsLine _ hc hpair, List.append_nil,
    List.reverse_reverse]

theorem lines_of_pair {start : List Char} (h : Unbroken start) (rest : List Char) :
    lines (start ++ '\r' :: '\n' :: rest) = ⟨start, ['\r', '\n']⟩ :: lines rest := by
  rw [lines, linesAfter_unbroken_append h, linesAfter, List.append_nil, List.reverse_reverse, lines]

theorem lines_of_unbroken {s : List Char} (h : Unbroken s) (hne : s ≠ []) :
    lines s = [⟨s, []⟩] := by
  have hend := linesAfter_unbroken_append h [] []
  rw [List.append_nil, List.append_nil, linesAfter, if_neg (by simpa using hne),
    List.reverse_reverse] at hend
  exact hend

/-! ## Quoting -/

theorem dropWhile_reverse_of_unbroken {s : List Char} (h : Unbroken s) {m : Char}
    (hm : endsLine m = true) : s.reverse.dropWhile (· == m) = s.reverse := by
  cases hs : s.reverse with
  | nil => rfl
  | cons c rest =>
    refine List.dropWhile_cons_of_neg fun heq => h.not_mem hm ?_
    rw [← List.mem_reverse, hs, ← eq_of_beq heq]
    exact List.mem_cons_self

theorem quoted_of_unbroken {body ending : List Char} (h : Unbroken body)
    (he : ending = [] ∨ ending = ['\n'] ∨ ending = ['\r'] ∨ ending = ['\r', '\n']) :
    (Line.mk body ending).quoted = body := by
  have hfeed := dropWhile_reverse_of_unbroken h (show endsLine '\n' = true by decide)
  have hreturn := dropWhile_reverse_of_unbroken h (show endsLine '\r' = true by decide)
  rw [Line.quoted, Line.whole, List.reverse_append]
  have hdrop : ((ending.reverse ++ body.reverse).dropWhile (· == '\n')).dropWhile (· == '\r') =
      body.reverse := by
    rcases he with rfl | rfl | rfl | rfl
    · exact (congrArg _ hfeed).trans hreturn
    · exact (congrArg _ hfeed).trans hreturn
    · exact hreturn
    · exact hreturn
  rw [hdrop, List.reverse_reverse]

/-- What ends a line otherwise stays with it. -/
theorem quoted_of_other (body : List Char) {c : Char} (hn : c ≠ '\n') (hr : c ≠ '\r') :
    (Line.mk body [c]).quoted = body ++ [c] := by
  simp [Line.quoted, Line.whole, hn, hr]

theorem isBlank_of_endsLine {c : Char} (h : endsLine c = true) : isBlank c = true :=
  CodeRanges.has_of_covered (by decide) h

/-- A line as texts are cut: nothing in its body ends a line, and it ends in one of the ways in
which lines end. -/
structure Line.WellCut (l : Line) : Prop where
  body : Unbroken l.body
  ending : l.ending = [] ∨ l.ending = ['\r', '\n'] ∨ ∃ c, l.ending = [c] ∧ endsLine c = true

theorem mem_linesAfter {body s : List Char} (hb : Unbroken body) :
    ∀ l ∈ linesAfter body s, l.WellCut := by
  have hback {body : List Char} (hb : Unbroken body) : Unbroken body.reverse :=
    fun c hc => hb c (List.mem_reverse.mp hc)
  have hnil : Unbroken [] := fun _ hc => absurd hc List.not_mem_nil
  fun_induction linesAfter body s with
  | case1 => exact fun _ hl => absurd hl List.not_mem_nil
  | case2 body h => exact List.forall_mem_singleton.mpr ⟨hback hb, .inl rfl⟩
  | case3 body rest ih =>
    exact List.forall_mem_cons.mpr ⟨⟨hback hb, .inr (.inl rfl)⟩, ih hnil⟩
  | case4 body c rest _ hc ih =>
    exact List.forall_mem_cons.mpr ⟨⟨hback hb, .inr (.inr ⟨c, rfl, hc⟩)⟩, ih hnil⟩
  | case5 body c rest _ hc ih =>
    exact ih (List.forall_mem_cons.mpr ⟨Bool.eq_false_iff.mpr hc, hb⟩)

theorem wellCut_of_mem_lines {s : List Char} {l : Line} (h : l ∈ lines s) : l.WellCut :=
  mem_linesAfter (fun _ hc => absurd hc List.not_mem_nil) l h

/-- What is quoted of a line is its body, with what ends the line if that is neither a line feed nor
a carriage return. -/
theorem Line.WellCut.quoted_eq {l : Line} (h : l.WellCut) :
    ∃ kept, l.quoted = l.body ++ kept ∧ ∀ c ∈ kept, endsLine c = true ∧ c ≠ '\n' := by
  have hend := h.ending
  obtain ⟨body, ending⟩ := l
  have hwhole (he : ending = [] ∨ ending = ['\n'] ∨ ending = ['\r'] ∨ ending = ['\r', '\n']) :
      ∃ kept, (Line.mk body ending).quoted = body ++ kept ∧
        ∀ c ∈ kept, endsLine c = true ∧ c ≠ '\n' :=
    ⟨[], by rw [quoted_of_unbroken h.body he, List.append_nil], fun _ hc => nomatch hc⟩
  obtain rfl | rfl | ⟨c, rfl, hc⟩ := hend
  · exact hwhole (.inl rfl)
  · exact hwhole (.inr (.inr (.inr rfl)))
  · by_cases hn : c = '\n'
    · exact hwhole (.inr (.inl (by rw [hn])))
    · by_cases hr : c = '\r'
      · exact hwhole (.inr (.inr (.inl (by rw [hr]))))
      · exact ⟨[c], quoted_of_other body hn hr, List.forall_mem_singleton.mpr ⟨hc, hn⟩⟩

theorem Line.WellCut.body_eq_of_quoted {l : Line} (h : l.WellCut) (hq : Unbroken l.quoted) :
    l.body = l.quoted := by
  obtain ⟨kept, hquoted, hkept⟩ := h.quoted_eq
  cases kept with
  | nil => rw [hquoted, List.append_nil]
  | cons c rest =>
    have hc : endsLine c = true := (hkept c List.mem_cons_self).1
    exact absurd (by simp [hquoted]) (hq.not_mem hc)

/-! ## Counting line feeds -/

def Line.endsInLineFeed (l : Line) : Bool := l.ending.any (· == '\n')

theorem count_linesAfter (body s : List Char) :
    s.count '\n' = (linesAfter body s).countP Line.endsInLineFeed := by
  fun_induction linesAfter body s with
  | case1 => rfl
  | case2 => rfl
  | case3 body rest ih => simp [Line.endsInLineFeed, ih]
  | case4 body c rest _ _ ih =>
    rw [List.count_cons, List.countP_cons, ih]
    simp [Line.endsInLineFeed]
  | case5 body c rest _ hc ih =>
    have hne : c ≠ '\n' := by
      rintro rfl
      exact hc (by decide)
    rw [List.count_cons_of_ne hne, ih]

/-- A text has as many line feeds as lines that end in one. -/
theorem count_eq_countP_lines (s : List Char) :
    s.count '\n' = (lines s).countP Line.endsInLineFeed := count_linesAfter [] s

/-- A text after a line feed is cut into lines by itself. -/
theorem linesAfter_append {body s : List Char} (hs : s.getLast? = some '\n') (t : List Char) :
    linesAfter body (s ++ t) = linesAfter body s ++ lines t := by
  have hlast {c d : Char} {r : List Char} (h : (c :: d :: r).getLast? = some '\n') :
      (d :: r).getLast? = some '\n' := by rwa [List.getLast?_cons_cons] at h
  fun_induction linesAfter body s with
  | case1 => cases hs
  | case2 => cases hs
  | case3 body rest ih =>
    rw [List.cons_append, List.cons_append, linesAfter]
    cases rest with
    | nil => rfl
    | cons d r => rw [ih (hlast (hlast hs)), List.cons_append]
  | case4 body c rest hpair hc ih =>
    cases rest with
    | nil =>
      obtain rfl : c = '\n' := Option.some.inj hs
      exact linesAfter_of_endsLine body hc fun h => absurd h (by decide)
    | cons d r =>
      have hpair' : c = '\r' → (d :: r ++ t).head? ≠ some '\n' := by
        rintro rfl hd
        obtain rfl : d = '\n' := Option.some.inj hd
        exact hpair r rfl rfl
      rw [List.cons_append, linesAfter_of_endsLine body hc hpair', lines, ih (hlast hs),
        List.cons_append]
  | case5 body c rest hpair hc ih =>
    cases rest with
    | nil =>
      obtain rfl : c = '\n' := Option.some.inj hs
      exact absurd (by decide) hc
    | cons d r =>
      have hpair' : ∀ r', c = '\r' → d :: r ++ t = '\n' :: r' → False := by
        rintro r' rfl hd
        exact hc (by decide)
      rw [List.cons_append, linesAfter.eq_3 _ _ _ hpair', if_neg hc, ih (hlast hs)]

theorem lines_append {s : List Char} (hs : s = [] ∨ s.getLast? = some '\n') (t : List Char) :
    lines (s ++ t) = lines s ++ lines t := by
  obtain rfl | hs := hs
  · rfl
  · exact linesAfter_append hs t

/-! ## Around a line -/

/-- A text around one of its lines when lines end at line feeds alone, with or without a carriage
return before. -/
structure AroundLine (s above line below : List Char) : Prop where
  parts : s = above ++ (line ++ below)
  begins : above = [] ∨ above.getLast? = some '\n'
  oneLine : '\n' ∉ line
  ends : below = [] ∨ (∃ rest, below = '\r' :: '\n' :: rest) ∨
    (∃ rest, below = '\n' :: rest) ∧ line.getLast? ≠ some '\r'

/-- What is shown for a line below some text, by number. It is the whole line if above it and in it
only line feeds, with or without a carriage return before, end lines. If another character ends a
line in it, it is cut there. If another one does so above it, an earlier line is shown. -/
inductive Excerpt (above line : List Char) : List Char → Prop
  | whole (ha : ∀ l ∈ lines above, l.endsInLineFeed = true) (hl : Unbroken line) :
      Excerpt above line line
  | cut {start rest : List Char} {c : Char} (ha : ∀ l ∈ lines above, l.endsInLineFeed = true)
      (hl : line = start ++ c :: rest) (hs : Unbroken start) (hc : endsLine c = true) :
      Excerpt above line (if c = '\r' then start else start ++ [c])
  | earlier {x l : Line} (hx : x ∈ lines above) (he : x.endsInLineFeed = false)
      (hl : (lines above)[above.count '\n']? = some l) : Excerpt above line l.quoted

/-- The right line is shown where only line feeds end lines. -/
theorem Excerpt.eq_line {above line shown : List Char} (h : Excerpt above line shown)
    (ha : ∀ l ∈ lines above, l.endsInLineFeed = true) (hl : Unbroken line) : shown = line := by
  cases h with
  | whole => rfl
  | cut _ hcut _ hc =>
    subst hcut
    exact absurd (List.mem_append_right _ List.mem_cons_self) (hl.not_mem hc)
  | earlier hx he _ =>
    rw [ha _ hx] at he
    cases he

theorem AroundLine.lines_eq {s above line below : List Char} (h : AroundLine s above line below) :
    lines s = lines above ++ lines (line ++ below) := by
  rw [h.parts, lines_append h.begins]

/-- The line itself, when it is not cut. -/
theorem AroundLine.head_lines_of_unbroken {s above line below : List Char}
    (h : AroundLine s above line below) (hne : line ≠ []) (hl : Unbroken line) :
    ∃ l more, lines (line ++ below) = l :: more ∧ l.quoted = line := by
  obtain rfl | ⟨rest, rfl⟩ | ⟨⟨rest, rfl⟩, -⟩ := h.ends
  · rw [List.append_nil, lines_of_unbroken hl hne]
    exact ⟨_, _, rfl, quoted_of_unbroken hl (.inl rfl)⟩
  · rw [lines_of_pair hl]
    exact ⟨_, _, rfl, quoted_of_unbroken hl (.inr (.inr (.inr rfl)))⟩
  · rw [lines_of_endsLine hl (show endsLine '\n' = true by decide)
      fun h => absurd h (show '\n' ≠ '\r' by decide)]
    exact ⟨_, _, rfl, quoted_of_unbroken hl (.inr (.inl rfl))⟩

/-- The part of the line before what else ends a line in it. -/
theorem AroundLine.head_lines_of_cut {s above start rest below : List Char} {c : Char}
    (h : AroundLine s above (start ++ c :: rest) below) (hs : Unbroken start)
    (hc : endsLine c = true) :
    ∃ l more, lines (start ++ c :: rest ++ below) = l :: more ∧
      l.quoted = if c = '\r' then start else start ++ [c] := by
  have hpair : c = '\r' → (rest ++ below).head? ≠ some '\n' := by
    rintro rfl hhead
    cases rest with
    | cons d rest =>
      obtain rfl : d = '\n' := Option.some.inj hhead
      exact h.oneLine (by simp)
    | nil =>
      obtain rfl | ⟨_, rfl⟩ | ⟨-, hlast⟩ := h.ends
      · cases hhead
      · exact absurd (Option.some.inj hhead) (show '\r' ≠ '\n' by decide)
      · exact hlast (by simp)
  have hfeed : c ≠ '\n' := by
    rintro rfl
    exact h.oneLine (by simp)
  rw [List.append_assoc, List.cons_append, lines_of_endsLine hs hc hpair]
  refine ⟨_, _, rfl, ?_⟩
  split
  · next hreturn =>
    rw [hreturn]
    exact quoted_of_unbroken hs (.inr (.inr (.inl rfl)))
  · next hreturn => exact quoted_of_other start hfeed hreturn

/-- **What is shown under the number of a line.** -/
theorem AroundLine.excerpt {s above line below : List Char} (h : AroundLine s above line below)
    (hne : line ≠ []) : Excerpt above line (lineAt s (1 + above.count '\n')).quoted := by
  have hnumber : lineAt s (1 + above.count '\n') =
      ((lines s)[above.count '\n']?).getD ⟨[], []⟩ := by
    rw [lineAt, if_neg (by omega), show (1 + (above.count '\n' : Int) - 1).toNat =
      above.count '\n' by omega]
  have hcount := count_eq_countP_lines above
  rw [hnumber, h.lines_eq]
  by_cases ha : ∀ l ∈ lines above, l.endsInLineFeed = true
  · -- the lines above are as many as their line feeds: the next one is shown
    have hlength : above.count '\n' = (lines above).length :=
      hcount.trans (List.countP_eq_length.mpr ha)
    rw [hlength, List.getElem?_append_right (Nat.le_refl _), Nat.sub_self]
    obtain hl | ⟨start, c, rest, rfl, hs, hc⟩ := unbroken_or_split line
    · obtain ⟨l, more, hmore, hq⟩ := h.head_lines_of_unbroken hne hl
      rw [hmore, List.getElem?_cons_zero, Option.getD_some, hq]
      exact .whole ha hl
    · obtain ⟨l, more, hmore, hq⟩ := h.head_lines_of_cut hs hc
      rw [hmore, List.getElem?_cons_zero, Option.getD_some, hq]
      exact .cut ha rfl hs hc
  · simp only [Classical.not_forall, Bool.not_eq_true] at ha
    obtain ⟨x, hx, he⟩ := ha
    have hlength : above.count '\n' < (lines above).length := by
      rw [hcount]
      exact List.countP_lt_length_iff.mpr ⟨x, hx, by rw [he]⟩
    rw [List.getElem?_append_left hlength, List.getElem?_eq_getElem hlength, Option.getD_some]
    exact .earlier hx he (List.getElem?_eq_getElem hlength)

/-- There is a line to be shown. -/
theorem AroundLine.exists_line {s above line below : List Char} (h : AroundLine s above line below)
    (hne : line ≠ []) : ∃ l, (lines s)[above.count '\n']? = some l := by
  have habove : above.count '\n' ≤ (lines above).length :=
    count_eq_countP_lines above ▸ List.countP_le_length
  have hbelow : lines (line ++ below) ≠ [] := by
    intro hnil
    have hwhole := lines_whole (line ++ below)
    rw [hnil] at hwhole
    exact hne (List.append_eq_nil_iff.mp hwhole.symm).1
  have hlength : above.count '\n' < (lines s).length := by
    rw [h.lines_eq, List.length_append]
    have := List.length_pos_iff.mpr hbelow
    omega
  exact ⟨_, List.getElem?_eq_getElem hlength⟩

/-! ## The line of a place -/

theorem exists_above (before : List Char) :
    ∃ above start, before = above ++ start ∧ (above = [] ∨ above.getLast? = some '\n') ∧
      '\n' ∉ start := by
  induction before with
  | nil => exact ⟨[], [], rfl, .inl rfl, List.not_mem_nil⟩
  | cons c before ih =>
    obtain ⟨above, start, rfl, ha | ha, hs⟩ := ih
    · subst ha
      by_cases hc : c = '\n'
      · exact ⟨[c], start, rfl, .inr (congrArg some hc), hs⟩
      · exact ⟨[], c :: start, rfl, .inl rfl, List.not_mem_cons_of_ne_of_not_mem (Ne.symm hc) hs⟩
    · refine ⟨c :: above, start, rfl, .inr ?_, hs⟩
      rw [List.getLast?_cons, ha, Option.getD_some]

theorem exists_below (after : List Char) :
    ∃ rest below, after = rest ++ below ∧ '\n' ∉ rest ∧
      (below = [] ∨ (∃ more, below = '\r' :: '\n' :: more) ∨
        (∃ more, below = '\n' :: more) ∧ rest.getLast? ≠ some '\r') := by
  induction after with
  | nil => exact ⟨[], [], rfl, List.not_mem_nil, .inl rfl⟩
  | cons c after ih =>
    by_cases hc : c = '\n'
    · exact ⟨[], c :: after, rfl, List.not_mem_nil, .inr (.inr ⟨⟨after, by rw [hc]⟩, nofun⟩)⟩
    · obtain ⟨rest, below, rfl, hr, hb⟩ := ih
      have hrest : '\n' ∉ c :: rest := List.not_mem_cons_of_ne_of_not_mem (Ne.symm hc) hr
      obtain hb | hb | ⟨⟨more, rfl⟩, hlast⟩ := hb
      · exact ⟨c :: rest, below, rfl, hrest, .inl hb⟩
      · exact ⟨c :: rest, below, rfl, hrest, .inr (.inl hb)⟩
      · cases rest with
        | nil =>
          by_cases hreturn : c = '\r'
          · exact ⟨[], c :: '\n' :: more, rfl, List.not_mem_nil,
              .inr (.inl ⟨more, by rw [hreturn]⟩)⟩
          · exact ⟨[c], '\n' :: more, rfl, hrest,
              .inr (.inr ⟨⟨more, rfl⟩, fun h => hreturn (Option.some.inj h)⟩)⟩
        | cons d rest =>
          refine ⟨c :: d :: rest, '\n' :: more, rfl, hrest, .inr (.inr ⟨⟨more, rfl⟩, ?_⟩)⟩
          rwa [List.getLast?_cons_cons]

/-- Every place at a character that is no line feed and no carriage return lies in a line. -/
theorem exists_aroundLine {c : Char} (hn : c ≠ '\n') (hr : c ≠ '\r') (before after : List Char) :
    ∃ above start rest below, before = above ++ start ∧ '\n' ∉ start ∧ after = rest ++ below ∧
      AroundLine (before ++ c :: after) above (start ++ c :: rest) below := by
  obtain ⟨above, start, rfl, ha, hs⟩ := exists_above before
  obtain ⟨rest, below, rfl, hrest, hb⟩ := exists_below after
  refine ⟨above, start, rest, below, rfl, hs, rfl, by simp, ha, ?_, ?_⟩
  · simp [hs, hrest, Ne.symm hn]
  · obtain hb | hb | ⟨hb, hlast⟩ := hb
    · exact .inl hb
    · exact .inr (.inl hb)
    · refine .inr (.inr ⟨hb, ?_⟩)
      cases rest with
      | nil => simpa using hr
      | cons d rest => simpa [List.getLast?_append] using hlast

end CiteStyle.Text
