import CiteStyle.Proofs.Cut
import CiteStyle.Proofs.Style.Division
import CiteStyle.Proofs.YearSuffix

/-! # What a comment changes

A comment in content makes two texts of the run of character data around it, and it separates what
the search for the year suffix looks at. Nothing else of a style or locale depends on it
(`comment_contained`). -/

namespace CiteStyle

open Text (isAllBlank)

/-! ## The search for the year suffix -/

theorem not_mem_of_spells {c : Char} {word found : List Char} (h : Spells word found)
    (hc : word.all (fun e => !sameLetter e c) = true) : c ∉ found := by
  induction h with
  | nil => exact List.not_mem_nil
  | cons hd _ ih =>
    rw [List.all_cons, Bool.and_eq_true, Bool.not_eq_true'] at hc
    rw [List.mem_cons, not_or]
    refine ⟨?_, ih hc.2⟩
    rintro rfl
    rw [hd] at hc
    cases hc.1

/-- What a character does not stand in stands on one side of it. -/
theorem infix_append_cons_iff {c : Char} {found b a : List Char} (hc : c ∉ found) :
    found <:+: b ++ c :: a ↔ found <:+: b ∨ found <:+: a := by
  constructor
  · rintro ⟨x, y, h⟩
    rw [List.append_assoc] at h
    obtain ⟨t, rfl, ht⟩ | ⟨t, rfl, ht⟩ := List.append_eq_append_iff.mp h
    · obtain ⟨u, rfl, -⟩ | ⟨u, rfl, hu⟩ := List.append_eq_append_iff.mp ht
      · exact .inl ⟨x, u, List.append_assoc ..⟩
      · cases u with
        | nil => exact .inl ⟨x, [], by simp⟩
        | cons d u =>
          obtain ⟨rfl, -⟩ := List.cons.inj hu
          exact absurd (List.mem_append_right t List.mem_cons_self) hc
    · cases t with
      | nil =>
        cases found with
        | nil => exact .inl (List.nil_infix)
        | cons d found =>
          obtain ⟨rfl, -⟩ := List.cons.inj ht
          exact absurd List.mem_cons_self hc
      | cons d t =>
        obtain ⟨rfl, hrest⟩ := List.cons.inj ht
        exact .inr ⟨t, y, (List.append_assoc ..).trans hrest.symm⟩
  · rintro (h | h)
    · exact h.trans (List.infix_append' [] b (c :: a))
    · exact h.trans ((List.suffix_cons c a).trans (List.suffix_append b (c :: a))).isInfix

/-- What refers to the year suffix does so on one side of a comment. -/
theorem mentionsYearSuffix_commented (b a : List Char) :
    mentionsYearSuffix (b ++ (commentMark.toList ++ a)) =
      (mentionsYearSuffix b || mentionsYearSuffix a) := by
  have hsides {found : List Char} (h : Spells yearSuffixReference found) :
      found <:+: b ++ (commentMark.toList ++ a) ↔ found <:+: b ∨ found <:+: a := by
    have hopen : '<' ∉ found := not_mem_of_spells h (by decide)
    have hclose : '>' ∉ found := not_mem_of_spells h (by decide)
    have hinside : ¬ found <:+: "!-- --".toList := fun hinfix => by
      have hlength := hinfix.length_le
      rw [← h.length_eq] at hlength
      exact absurd hlength (by decide)
    have hmark : commentMark.toList ++ a = '<' :: ("!-- --".toList ++ '>' :: a) := rfl
    rw [hmark, infix_append_cons_iff hopen, infix_append_cons_iff hclose, or_iff_right hinside]
  rw [Bool.eq_iff_iff, Bool.or_eq_true, mentionsYearSuffix_iff, mentionsYearSuffix_iff,
    mentionsYearSuffix_iff, ← exists_or]
  exact exists_congr fun found => by
    constructor
    · rintro ⟨h, hfound⟩
      exact ((hsides h).mp hfound).imp (⟨h, ·⟩) (⟨h, ·⟩)
    · rintro (⟨h, hfound⟩ | ⟨h, hfound⟩)
      · exact ⟨h, (hsides h).mpr (.inl hfound)⟩
      · exact ⟨h, (hsides h).mpr (.inr hfound)⟩

/-! ## The run of character data around a comment -/

theorem join_leftTexts (s : List Char) :
    String.join (Xml.leftTexts s) = if isAllBlank s then "" else String.ofList s := by
  unfold Xml.leftTexts
  split
  · rfl
  · rw [String.join_cons, String.join_nil, String.append_empty]

namespace Cut

variable {before after : String} (p : Cut before after)

/-- Texts are kept if those of the run are. -/
theorem keepsTexts_iff : p.division.KeepsTexts ↔
    String.join p.standing.texts = String.join (p.standing.parts p.added) := by
  constructor
  · exact fun h => h _ _ _ ⟨rfl, rfl, rfl⟩
  · rintro h _ _ _ ⟨-, rfl, rfl⟩
    exact h

/-- Outputs are kept if the run is not rendered, if it is not divided after all, or if its texts are
kept and there is no delimiter between them. -/
theorem keepsOutputs_iff : p.division.KeepsOutputs ↔
    ∀ delimiter, p.standing.surroundings = .rendered (some delimiter) →
      p.standing.texts = p.standing.parts p.added ∨ delimiter = "" ∧
        String.join p.standing.texts = String.join (p.standing.parts p.added) := by
  constructor
  · exact fun h delimiter hs => h delimiter _ _ ⟨hs.symm, rfl, rfl⟩
  · rintro h delimiter _ _ ⟨hs, rfl, rfl⟩
    exact h delimiter hs.symm

/-- Between tags there is no text to divide. -/
theorem keeps_of_blank (hb : isAllBlank p.standing.dataBefore = true)
    (ha : isAllBlank p.standing.dataAfter = true) :
    p.division.KeepsTexts ∧ p.division.KeepsOutputs := by
  have htexts : p.standing.texts = [] := by
    rw [Xml.Standing.texts, Xml.leftTexts, isAllBlank, List.all_append]
    exact if_pos (Bool.and_eq_true_iff.mpr ⟨hb, ha⟩)
  have hadded : isAllBlank p.added = true := by
    rw [added]
    split <;> decide
  have hparts : p.standing.parts p.added = [] := by
    rw [Xml.Standing.parts, Xml.leftTexts, isAllBlank, List.all_append, Xml.leftTexts, if_pos ha]
    exact congrArg (· ++ []) (if_pos (Bool.and_eq_true_iff.mpr ⟨hb, hadded⟩))
  rw [keepsTexts_iff, keepsOutputs_iff, htexts, hparts]
  exact ⟨rfl, fun _ _ => .inl rfl⟩

/-- Unless a line end is cut in two, the texts are kept exactly if there is none on one side, or
both are white space only, or neither is. -/
theorem keepsTexts_iff_of_not_cut (hcut : cutsLineEnd before.toList after.toList = false) :
    p.division.KeepsTexts ↔ p.standing.dataBefore = [] ∨ p.standing.dataAfter = [] ∨
      isAllBlank p.standing.dataBefore = isAllBlank p.standing.dataAfter := by
  have hadded : p.added = [] := by rw [added, hcut]; rfl
  rw [keepsTexts_iff, hadded, Xml.Standing.texts, Xml.Standing.parts, List.append_nil,
    String.join_append, join_leftTexts, join_leftTexts, join_leftTexts, isAllBlank,
    List.all_append, ← isAllBlank, ← isAllBlank]
  generalize p.standing.dataBefore = b, p.standing.dataAfter = a
  have hnil : isAllBlank [] = true := rfl
  cases hb : isAllBlank b <;> cases ha : isAllBlank a
  · simp
  · have hne : b ≠ [] := fun h => by rw [h, hnil] at hb; cases hb
    simp [hne, ← String.toList_inj]
  · have hne : a ≠ [] := fun h => by rw [h, hnil] at ha; cases ha
    simp [hne, ← String.toList_inj]
  · simp

end Cut

/-! ## Styles and locales -/

def SucceedAlike {ε α : Type} (related : α → α → Prop) (x x' : Except ε α) : Prop :=
  (∀ a, x = .ok a → ∃ a', x' = .ok a' ∧ related a a') ∧
    ∀ a', x' = .ok a' → ∃ a, x = .ok a ∧ related a a'

/-- It is enough that each succeeds if the other one does, and that the first leads to results that
are related. -/
theorem SucceedAlike.of_forward {ε α : Type} {related : α → α → Prop} {x x' : Except ε α}
    (h : ∀ a, x = .ok a → ∃ a', x' = .ok a' ∧ related a a')
    (h' : ∀ a', x' = .ok a' → ∃ a, x = .ok a) : SucceedAlike related x x' := by
  refine ⟨h, fun a' ha' => ?_⟩
  obtain ⟨a, ha⟩ := h' a' ha'
  obtain ⟨b, hb, hrelated⟩ := h a ha
  obtain rfl := Except.ok.inj (ha'.symm.trans hb)
  exact ⟨a, ha, hrelated⟩

/-- **A comment changes little.** With a comment at a place in content, a text that is well-formed
still is, and gives a locale or a style exactly if it does without. Both are the same up to the
division of the run of character data around the comment: the values of terms and the texts of info
are the same if the run keeps its text, and all layouts, keys for sorting and macros give the same
in every context if nothing is put between its parts. Between tags both hold, and the run keeps its
text unless white space is cut off from the rest. Whether the style refers to the year suffix is
searched for before and after the comment apart. -/
theorem comment_contained {before after : String} (p : Cut before after) {root : Element}
    (hroot : (Document.text (before ++ after)).parse = .ok root) {prims : Primitives}
    (hp : prims.Macros) (hj : prims.Joins) :
    (∃ root', (Document.text (before ++ commentMark ++ after)).parse = .ok root') ∧
      SucceedAlike (Locale.DiffersBy p.division) (Document.text (before ++ after)).locale.result
        (Document.text (before ++ commentMark ++ after)).locale.result ∧
      (∀ requested external, SucceedAlike
        (fun s s' => s.DiffersBy p.division prims s' ∧ s'.usesYearSuffix =
          (mentionsYearSuffix before.toList || mentionsYearSuffix after.toList))
        ((Document.text (before ++ after)).style requested external).result
        ((Document.text (before ++ commentMark ++ after)).style requested external).result) ∧
      (isAllBlank p.standing.dataBefore = true → isAllBlank p.standing.dataAfter = true →
        p.division.KeepsTexts ∧ p.division.KeepsOutputs) ∧
      (cutsLineEnd before.toList after.toList = false → (p.division.KeepsTexts ↔
        p.standing.dataBefore = [] ∨ p.standing.dataAfter = [] ∨
          isAllBlank p.standing.dataBefore = isAllBlank p.standing.dataAfter)) := by
  obtain ⟨root', hroot', hsame⟩ := p.parse_commented hroot
  refine ⟨⟨root', hroot'⟩, ?_, ?_, p.keeps_of_blank, p.keepsTexts_iff_of_not_cut⟩
  · refine .of_forward (fun l hl => locale_redivided hroot hroot' hsame hl) fun l' hl' => ?_
    obtain ⟨l, hl, -⟩ := locale_redivided hroot' hroot hsame.symm hl'
    exact ⟨l, hl⟩
  · intro requested external
    refine .of_forward (fun s hs => ?_) fun s' hs' => ?_
    · obtain ⟨s', hs', hdiffers⟩ := style_redivided hp hj hroot hroot' hsame hs
      obtain ⟨e, -, hbuild⟩ := Document.style_result_eq_ok_iff.mp hs'
      refine ⟨s', hs', hdiffers, ?_⟩
      rw [buildStyle_usesYearSuffix hbuild, Document.usesYearSuffix, Document.source,
        String.toList_append, String.toList_append, List.append_assoc, mentionsYearSuffix_commented]
    · obtain ⟨s, hs, -⟩ := style_redivided (D := p.division.swap) hp hj hroot' hroot hsame.symm hs'
      exact ⟨s, hs⟩

/-- A style with a text in a group without delimiter, up to the middle of the text. -/
def groupBefore : String := "<style><citation><layout><group prefix=\"(\" suffix=\")\">a"

def groupAfter : String :=
  "b<text variable=\"title\"/></group></layout></citation>" ++
    "<bibliography><layout/></bibliography></style>"

theorem comment_contained_in_group : ∃ (p : Cut groupBefore groupAfter) (s s' : Style),
    p.standing.texts = ["ab"] ∧ p.standing.parts p.added = ["a", "b"] ∧
    ((Document.text (groupBefore ++ groupAfter)).style none none).result = .ok s ∧
    ((Document.text (groupBefore ++ commentMark ++ groupAfter)).style none none).result = .ok s' ∧
    s.data = s'.data ∧ s'.usesYearSuffix = false ∧ ∀ ctx, s.RendersLike .plainText ctx s' := by
  have hbefore : groupBefore = String.ofList _ := rfl
  have hafter : groupAfter = String.ofList (_ ++ _) := String.ofList_append.symm
  have hcut : ((Cut.find? groupBefore groupAfter 4).map Cut.standing).map
      (fun q => (q.texts, q.parts [], q.surroundings)) =
        some (["ab"], ["a", "b"], .rendered (some "")) := by
    rw [hbefore, hafter, Cut.map_standing_find?]
    decide +kernel
  rw [Option.map_map] at hcut
  obtain ⟨p, -, hp⟩ := Option.map_eq_some_iff.mp hcut
  rw [Function.comp_apply, Prod.mk.injEq, Prod.mk.injEq] at hp
  obtain ⟨htexts, hwhole, hsurroundings⟩ := hp
  have hparts : p.standing.parts p.added = ["a", "b"] := by
    have hadded : p.added = [] := by
      rw [Cut.added, hbefore, hafter, String.toList_ofList, String.toList_ofList]
      rfl
    rw [hadded, hwhole]
  have hok : ((Document.text (groupBefore ++ groupAfter)).style none none).result.toBool =
      true := by
    rw [hbefore, hafter, ← String.ofList_append, Document.style, Document.parse_ofList,
      Document.usesYearSuffix_ofList]
    decide +kernel
  obtain ⟨s, hs⟩ := exists_ok_of_toBool hok
  obtain ⟨root, hroot, -⟩ := Document.style_result_eq_ok_iff.mp hs
  have hjoin : String.join p.standing.texts = String.join (p.standing.parts p.added) := by
    rw [htexts, hparts]
    decide
  have hcontained := comment_contained p hroot plainText_macros plainText_joins
  obtain ⟨s', hs', hdiffers, hflag⟩ := (hcontained.2.2.1 none none).1 s hs
  refine ⟨p, s, s', htexts, hparts, hs, hs', ?_, ?_, ?_⟩
  · exact (hdiffers.data.eq (p.keepsTexts_iff.mpr hjoin)).symm
  · rw [hflag, hbefore, hafter, String.toList_ofList, String.toList_ofList]
    decide +kernel
  · refine hdiffers.outputs (p.keepsOutputs_iff.mpr fun delimiter hd => .inr ⟨?_, hjoin⟩)
    exact (Option.some.inj (Surroundings.rendered.inj (hsurroundings.symm.trans hd))).symm

/-- A style with a text that spells a reference to the year suffix, up to the middle of that. -/
def spelledBefore : String := "<style><info>variable=\"year"

def spelledAfter : String :=
  "-suffix\"</info><citation><layout/></citation><bibliography><layout/></bibliography></style>"

/-- A locale with a term that ends in white space, up to that. -/
def spaceBefore : String := "<locale><terms><term name=\"and\">et"

def spaceAfter : String := " </term></terms></locale>"

def listBefore : String := "<style><citation><layout><group delimiter=\", \">a"

def listAfter : String :=
  "b</group></layout></citation><bibliography><layout/></bibliography></style>"

/-- A comment does show: in what refers to the year suffix, in a term whose white space it cuts off,
and between texts that a delimiter is put between. -/
theorem comment_shows :
    (∃ _ : Cut spelledBefore spelledAfter,
      ((Document.text (spelledBefore ++ spelledAfter)).style none none).result.toOption.map
        Style.usesYearSuffix = some true ∧
      ((Document.text (spelledBefore ++ commentMark ++ spelledAfter)).style none
        none).result.toOption.map Style.usesYearSuffix = some false) ∧
    (∃ _ : Cut spaceBefore spaceAfter,
      (Document.text (spaceBefore ++ spaceAfter)).locale.result.toOption.map
        (fun l => (l.data.terms.getD []).map Term.value) = some ["et "] ∧
      (Document.text (spaceBefore ++ commentMark ++ spaceAfter)).locale.result.toOption.map
        (fun l => (l.data.terms.getD []).map Term.value) = some ["et"]) ∧
    (∃ _ : Cut listBefore listAfter,
      ((Document.text (listBefore ++ listAfter)).style none none).result.toOption.map
        (fun s => (s.render {} s.citation.arrangement.layout).output.text) = some "ab" ∧
      ((Document.text (listBefore ++ commentMark ++ listAfter)).style none none).result.toOption.map
        (fun s => (s.render {} s.citation.arrangement.layout).output.text) = some "a, b") := by
  have hmark : commentMark = String.ofList _ := rfl
  refine ⟨?_, ?_, ?_⟩
  · have hbefore : spelledBefore = String.ofList _ := rfl
    have hafter : spelledAfter = String.ofList _ := rfl
    have hfound : (Cut.find? spelledBefore spelledAfter 15).isSome = true := by
      rw [hbefore, hafter, ← Option.isSome_map (f := Cut.standing), Cut.map_standing_find?]
      decide +kernel
    refine ⟨Option.get _ hfound, ?_, ?_⟩
    · rw [hbefore, hafter, ← String.ofList_append, Document.style, Document.parse_ofList,
        Document.usesYearSuffix_ofList]
      decide +kernel
    · rw [hbefore, hmark, hafter, ← String.ofList_append, ← String.ofList_append, Document.style,
        Document.parse_ofList, Document.usesYearSuffix_ofList]
      decide +kernel
  · have hbefore : spaceBefore = String.ofList _ := rfl
    have hafter : spaceAfter = String.ofList _ := rfl
    have hfound : (Cut.find? spaceBefore spaceAfter 4).isSome = true := by
      rw [hbefore, hafter, ← Option.isSome_map (f := Cut.standing), Cut.map_standing_find?]
      decide +kernel
    refine ⟨Option.get _ hfound, ?_, ?_⟩
    · rw [hbefore, hafter, ← String.ofList_append, Document.locale, Document.parse_ofList]
      decide +kernel
    · rw [hbefore, hmark, hafter, ← String.ofList_append, ← String.ofList_append, Document.locale,
        Document.parse_ofList]
      decide +kernel
  · have hbefore : listBefore = String.ofList _ := rfl
    have hafter : listAfter = String.ofList _ := rfl
    have hfound : (Cut.find? listBefore listAfter 4).isSome = true := by
      rw [hbefore, hafter, ← Option.isSome_map (f := Cut.standing), Cut.map_standing_find?]
      decide +kernel
    refine ⟨Option.get _ hfound, ?_, ?_⟩
    · rw [hbefore, hafter, ← String.ofList_append, Document.style, Document.parse_ofList,
        Document.usesYearSuffix_ofList]
      decide +kernel
    · rw [hbefore, hmark, hafter, ← String.ofList_append, ← String.ofList_append, Document.style,
        Document.parse_ofList, Document.usesYearSuffix_ofList]
      decide +kernel

end CiteStyle
