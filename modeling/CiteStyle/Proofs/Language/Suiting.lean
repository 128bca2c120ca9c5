import CiteStyle.Proofs.Language.Spelling
import Mathlib.Data.List.TakeWhile

/-! # Which locale suits which language

The usual form of a tag and its extension to a main region are canonical, and whether a locale suits
a language can be read off them (`suits_canonical`). How tags are spelled does not show, except in
the subtags that keep their case (`suits_respelled`). -/

namespace CiteStyle.Language

open Text

/-! ## Languages without region -/

/-- A tag that is a language and no more. -/
def IsBare (tag : String) : Prop := IsSubtag tag.toList

instance (tag : String) : Decidable (IsBare tag) :=
  List.decidableBAll (fun c => isSeparator c = false) tag.toList

theorem isSubtag_folded_iff {s : List Char} (h : IsAscii s) : IsSubtag (folded s) ↔ IsSubtag s := by
  rw [IsSubtag, folded, List.forall_mem_map]
  refine forall₂_congr fun c hc => ?_
  cases hsep : isSeparator c with
  | true => simp [isSeparator]
  | false => simp [isSeparator_toLower (h c hc), hsep]

theorem takeWhile_congr {p q : Char → Bool} {s : List Char} (h : ∀ c ∈ s, p c = q c) :
    s.takeWhile p = s.takeWhile q := by
  induction s with
  | nil => rfl
  | cons c rest ih =>
    obtain ⟨hc, hr⟩ := List.forall_mem_cons.mp h
    rw [List.takeWhile_cons, List.takeWhile_cons, hc, ih hr]

theorem head?_subtags (s : List Char) :
    (subtags s).head? = some (s.takeWhile fun c => !isSeparator c) := by
  induction s with
  | nil => rfl
  | cons c rest ih =>
    rw [subtags_cons, List.takeWhile_cons]
    cases isSeparator c with
    | true => rfl
    | false => simp [ih]

section

variable {tag tag' : String} (h : IsAscii tag.toList)
include h

theorem Respelled.isBare_iff (h' : IsAscii tag'.toList) (hr : Respelled tag tag') :
    IsBare tag ↔ IsBare tag' := by
  rw [IsBare, IsBare, ← isSubtag_folded_iff h, ← isSubtag_folded_iff h', hr]

theorem isBare_normalize_iff : IsBare (normalize tag) ↔ IsBare tag :=
  ((respelled_normalize h).isBare_iff h (isAscii_normalize h)).symm

/-- The only separator of the usual form is the hyphen. -/
theorem isSeparator_of_mem_normalize {c : Char} (hc : c ∈ (normalize tag).toList) :
    isSeparator c = (c == '-') := by
  rw [normalize, String.toList_ofList] at hc
  rcases mem_joinSubtags hc with rfl | ⟨s, hs, hc⟩
  · rfl
  · have hsep := (isSubtag_of_mem_normalizeSubtags h hs).1 c hc
    rw [hsep]
    rw [isSeparator, Bool.or_eq_false_iff] at hsep
    exact hsep.1.symm

theorem isExtended_normalize_iff : isExtended (normalize tag) = true ↔ ¬ IsBare tag := by
  rw [← isBare_normalize_iff h, isExtended, List.contains_iff_mem, IsBare, IsSubtag]
  constructor
  · intro hm hfree
    exact absurd (hfree _ hm) (by decide)
  · intro hsep
    by_contra hm
    refine hsep fun c hc => ?_
    rw [isSeparator_of_mem_normalize h hc, beq_eq_false_iff_ne]
    rintro rfl
    exact hm hc

theorem beforeHyphen_normalize : beforeHyphen (normalize tag) = primarySubtag (normalize tag) := by
  have hsame : (normalize tag).toList.takeWhile (· != '-') =
      (normalize tag).toList.takeWhile fun c => !isSeparator c :=
    takeWhile_congr fun c hc => by rw [isSeparator_of_mem_normalize h hc, bne]
  rw [beforeHyphen, primarySubtag, hsame]

/-- The first subtag of the usual form, which depends on the spelling as little as the whole. -/
theorem primarySubtag_normalize :
    primarySubtag (normalize tag) =
      String.ofList ((primarySubtag tag).toList.map Char.toLower) := by
  obtain ⟨language, rest, hsub, -, -, hnormal⟩ := exists_normalizeSubtags h
  have hhead := head?_subtags (normalize tag).toList
  have hhead' := head?_subtags tag.toList
  rw [subtags_normalize h, hnormal, List.head?_cons, Option.some.injEq] at hhead
  rw [hsub, List.head?_cons, Option.some.injEq] at hhead'
  rw [primarySubtag, primarySubtag, ← hhead, ← hhead', String.toList_ofList]

end

theorem primarySubtag_of_isBare {tag : String} (hb : IsBare tag) : primarySubtag tag = tag := by
  have hall : tag.toList.takeWhile (fun c => !isSeparator c) = tag.toList :=
    List.takeWhile_eq_self_iff.mpr fun c hc => by rw [hb c hc]; rfl
  rw [primarySubtag, hall, String.ofList_toList]

theorem ne_empty_of_not_isBare {tag : String} (hb : ¬ IsBare tag) : tag ≠ "" := by
  rintro rfl
  exact hb (List.forall_mem_nil _)

/-! ## Main regions -/

/-- What makes the entry of a main region a good one: it is an ASCII tag in its usual form that
extends to itself and belongs to the language. -/
structure IsMainRegion (language region : String) : Prop where
  ascii : IsAscii region.toList
  usual : normalize region = region
  extended : extend region = region
  subtag : primarySubtag region = language
  hyphen : beforeHyphen region = language
  bare : primarySubtag language = language

def asciiSubtags : List (List Char) → List (List Char)
  | [] => []
  | language :: rest =>
    language.map Char.toLower ::
      rest.map fun s => if s.length = 2 then s.map Char.toUpper else s

theorem normalize_of_isAscii {tag : String} (h : IsAscii tag.toList) :
    normalize tag = String.ofList (joinSubtags (asciiSubtags (subtags tag.toList))) := by
  obtain ⟨language, rest, hsub, -, hrest, hnormal⟩ := exists_normalizeSubtags h
  have hmap : rest.map normalizeSubtag =
      rest.map fun s => if s.length = 2 then s.map Char.toUpper else s :=
    List.map_congr_left fun s hs => normalizeSubtag_of_isAscii (hrest s hs)
  rw [normalize, hnormal, hsub, asciiSubtags, hmap]

theorem primaryDialects_isMainRegion : ∀ e ∈ primaryDialects, IsMainRegion e.1 e.2 := by
  -- the case tables are not looked up for each entry: its tag is ASCII
  have hall : ∀ e ∈ primaryDialects, IsAscii e.2.toList ∧
      String.ofList (joinSubtags (asciiSubtags (subtags e.2.toList))) = e.2 ∧
      (isExtended e.2 = true ∨ primaryDialects.lookup e.2 = some e.2) ∧
      primarySubtag e.2 = e.1 ∧ beforeHyphen e.2 = e.1 ∧ primarySubtag e.1 = e.1 := by
    decide +kernel
  intro e he
  obtain ⟨ha, hu, hx, hs, hh, hb⟩ := hall e he
  have hu' : normalize e.2 = e.2 := (normalize_of_isAscii ha).trans hu
  refine ⟨ha, hu', ?_, hs, hh, hb⟩
  rw [extend, hu']
  rcases hx with hx | hx
  · exact if_pos hx
  · rw [hx, Option.getD_some, ite_self]

/-- What a tag is extended to: its usual form, or the main region of its language. -/
theorem extend_cases (tag : String) :
    extend tag = normalize tag ∨ IsMainRegion (normalize tag) (extend tag) := by
  rw [extend]
  split
  · exact .inl rfl
  · cases hl : primaryDialects.lookup (normalize tag) with
    | none => exact .inl rfl
    | some dialect =>
      obtain ⟨before, after, hmem, -⟩ := List.lookup_eq_some_iff.mp hl
      have hin : (normalize tag, dialect) ∈ primaryDialects := by rw [hmem]; simp
      exact .inr (primaryDialects_isMainRegion _ hin)

/-- Extending a tag keeps its language. -/
theorem primarySubtag_extend (tag : String) :
    primarySubtag (extend tag) = primarySubtag (normalize tag) := by
  rcases extend_cases tag with he | he
  · rw [he]
  · rw [he.subtag, he.bare]

section

variable {tag : String} (h : IsAscii tag.toList)
include h

theorem extend_normalize : extend (normalize tag) = extend tag := by
  rw [extend, normalize_normalize h, ← extend]

theorem isAscii_extend : IsAscii (extend tag).toList := by
  rcases extend_cases tag with he | he
  · rw [he]
    exact isAscii_normalize h
  · exact he.ascii

theorem normalize_extend : normalize (extend tag) = extend tag := by
  rcases extend_cases tag with he | he
  · rw [he, normalize_normalize h]
  · exact he.usual

theorem extend_extend : extend (extend tag) = extend tag := by
  rcases extend_cases tag with he | he
  · conv_lhs => rw [he]
    exact extend_normalize h
  · exact he.extended

theorem beforeHyphen_extend : beforeHyphen (extend tag) = primarySubtag (normalize tag) := by
  rcases extend_cases tag with he | he
  · rw [he, beforeHyphen_normalize h]
  · rw [he.hyphen, he.bare]

theorem extend_of_not_isBare (hb : ¬ IsBare tag) : extend tag = normalize tag := by
  rw [extend, if_pos ((isExtended_normalize_iff h).mpr hb)]

theorem normalize_eq_empty_iff : normalize tag = "" ↔ tag = "" := by
  constructor
  · intro he
    have hr := respelled_normalize h
    rw [he, Respelled, folded, folded, String.toList_empty, List.map_nil, List.map_eq_nil_iff] at hr
    exact String.toList_eq_nil_iff.mp hr
  · rintro rfl
    decide +kernel

/-! ## Suiting -/

variable {requested : String}

theorem suits_of_isBare (hr : IsAscii requested.toList) (hne : tag ≠ "") (hb : IsBare tag) :
    suits (some tag) requested = (primarySubtag (normalize requested) == normalize tag) := by
  have hbare : ¬ isExtended (normalize tag) = true :=
    fun he => (isExtended_normalize_iff h).mp he hb
  rw [suits]
  simp only [if_neg hne, if_neg hbare, beforeHyphen_extend hr]

theorem suits_of_not_isBare (hb : ¬ IsBare tag) :
    suits (some tag) requested = (normalize tag == extend requested) := by
  rw [suits]
  simp only [if_neg (ne_empty_of_not_isBare hb), if_pos ((isExtended_normalize_iff h).mpr hb)]

end

theorem suits_empty (requested : String) : suits (some "") requested = true := rfl

theorem suits_self {tag : String} (h : IsAscii tag.toList) : suits (some tag) tag = true := by
  by_cases hne : tag = ""
  · subst hne
    exact suits_empty _
  by_cases hb : IsBare tag
  · rw [suits_of_isBare h h hne hb, primarySubtag_of_isBare ((isBare_normalize_iff h).mpr hb),
      beq_self_eq_true]
  · rw [suits_of_not_isBare h hb, extend_of_not_isBare h hb, beq_self_eq_true]

theorem suits_normalize_extend {tag requested : String} (h : IsAscii tag.toList)
    (hr : IsAscii requested.toList) :
    suits (some (normalize tag)) (extend requested) = suits (some tag) requested := by
  by_cases hne : tag = ""
  · rw [(normalize_eq_empty_iff h).mpr hne, hne, suits_empty, suits_empty]
  by_cases hb : IsBare tag
  · have hne' : normalize tag ≠ "" := mt (normalize_eq_empty_iff h).mp hne
    have hb' : IsBare (normalize tag) := (isBare_normalize_iff h).mpr hb
    rw [suits_of_isBare h hr hne hb,
      suits_of_isBare (isAscii_normalize h) (isAscii_extend hr) hne' hb', normalize_normalize h,
      normalize_extend hr, primarySubtag_extend]
  · have hb' : ¬ IsBare (normalize tag) := mt (isBare_normalize_iff h).mp hb
    rw [suits_of_not_isBare h hb, suits_of_not_isBare (isAscii_normalize h) hb',
      normalize_normalize h, extend_extend hr]

/-- **Tags have canonical forms, and suiting respects them.** The usual form and the extended form
of a tag are their own, and extending keeps the language. A locale suits a language as its usual
form suits the extended language; it suits its own tag; one for a language without region suits
whatever has that language; and those with a region that suit one language have one usual form. -/
theorem suits_canonical {c r : String} (hc : IsAscii c.toList) (hr : IsAscii r.toList) :
    (normalize (normalize c) = normalize c ∧ extend (extend c) = extend c) ∧
    primarySubtag (extend c) = primarySubtag (normalize c) ∧
    suits (some c) r = suits (some (normalize c)) (extend r) ∧
    suits (some c) c = true ∧
    (c ≠ "" → IsBare c →
      (suits (some c) r = true ↔ primarySubtag (normalize c) = primarySubtag (normalize r))) ∧
    ∀ c', IsAscii c'.toList → ¬ IsBare c → ¬ IsBare c' → suits (some c) r = true →
      suits (some c') r = true → normalize c = normalize c' := by
  refine ⟨⟨normalize_normalize hc, extend_extend hc⟩, primarySubtag_extend c,
    (suits_normalize_extend hc hr).symm, suits_self hc, fun hne hb => ?_,
    fun c' hc' hb hb' hs hs' => ?_⟩
  · rw [suits_of_isBare hc hr hne hb, beq_iff_eq,
      primarySubtag_of_isBare ((isBare_normalize_iff hc).mpr hb), eq_comm]
  · rw [suits_of_not_isBare hc hb, beq_iff_eq] at hs
    rw [suits_of_not_isBare hc' hb', beq_iff_eq] at hs'
    exact hs.trans hs'.symm

/-- A locale for the main region, however it is spelled, suits the language alone. -/
theorem english_canonical :
    IsAscii "EN_us".toList ∧ IsAscii "en-US".toList ∧ IsAscii "en".toList ∧
      ¬ IsBare "EN_us" ∧ ¬ IsBare "en-US" ∧ IsBare "en" ∧
      suits (some "EN_us") "en" = suits (some (normalize "EN_us")) (extend "en") ∧
      suits (some "EN_us") "EN_us" = true ∧ normalize "EN_us" = normalize "en-US" ∧
      (suits (some "en") "EN_us" = true ↔
        primarySubtag (normalize "en") = primarySubtag (normalize "EN_us")) := by
  have hc : IsAscii "EN_us".toList := by decide
  have hc' : IsAscii "en-US".toList := by decide
  have hr : IsAscii "en".toList := by decide
  have hb : ¬ IsBare "EN_us" := by decide
  have hb' : ¬ IsBare "en-US" := by decide
  have hbare : IsBare "en" := by decide
  obtain ⟨-, -, hs, hself, -, hone⟩ := suits_canonical hc hr
  obtain ⟨-, -, -, -, hlanguage, -⟩ := suits_canonical hr hc
  exact ⟨hc, hc', hr, hb, hb', hbare, hs, hself,
    hone "en-US" hc' hb hb' (by decide +kernel) (by decide +kernel), hlanguage (by decide) hbare⟩

/-! ## Spellings that do not show -/

theorem exactSubtags_of_isBare {tag : String} (hb : IsBare tag) : exactSubtags tag = [] := by
  rw [exactSubtags, subtags_eq_splitOnP, List.splitOnP_eq_singleton hb]
  rfl

namespace Respelled

variable {tag tag' : String} (h : IsAscii tag.toList) (h' : IsAscii tag'.toList)
  (hr : Respelled tag tag')
include hr

theorem eq_empty_iff : tag = "" ↔ tag' = "" := by
  rw [← String.toList_eq_nil_iff, ← String.toList_eq_nil_iff, ← List.map_eq_nil_iff, ← folded, hr,
    folded, List.map_eq_nil_iff]

include h h'

theorem primarySubtag_normalize_eq :
    primarySubtag (normalize tag) = primarySubtag (normalize tag') := by
  have hhead := congrArg List.head? ((folded_eq_iff h h').mp hr)
  rw [List.head?_map, List.head?_map, head?_subtags, head?_subtags, Option.map_some,
    Option.map_some, Option.some.injEq] at hhead
  rw [primarySubtag_normalize h, primarySubtag_normalize h', primarySubtag, primarySubtag,
    String.toList_ofList, String.toList_ofList, hhead]

end Respelled

/-- **How far the spelling of tags does not show.** Whether a locale suits a language does not
depend on the case of letters and on separators if the locale is for a language without region, or
if the subtags that are neither language nor region keep their case. A locale with a region suits a
language with a region if they are spellings of one tag and agree in the case of these subtags: in
them, case is not ignored. -/
theorem suits_respelled {c c' r r' : String} (hc : IsAscii c.toList) (hc' : IsAscii c'.toList)
    (hr : IsAscii r.toList) (hr' : IsAscii r'.toList) (h : Respelled c c') (h' : Respelled r r') :
    ((IsBare c ∨ exactSubtags c = exactSubtags c' ∧ exactSubtags r = exactSubtags r') →
      suits (some c) r = suits (some c') r') ∧
    (¬ IsBare c → ¬ IsBare r →
      (suits (some c) r = true ↔ Respelled c r ∧ exactSubtags c = exactSubtags r)) := by
  constructor
  · rintro (hb | ⟨hexact, hexact'⟩)
    · have hb' : IsBare c' := (h.isBare_iff hc hc').mp hb
      have hnormal : normalize c = normalize c' := (normalize_eq_iff hc hc').mpr
        ⟨h, by rw [exactSubtags_of_isBare hb, exactSubtags_of_isBare hb']⟩
      by_cases hne : c = ""
      · rw [hne, h.eq_empty_iff.mp hne, suits_empty, suits_empty]
      · rw [suits_of_isBare hc hr hne hb, suits_of_isBare hc' hr' (mt h.eq_empty_iff.mpr hne) hb',
          h'.primarySubtag_normalize_eq hr hr', hnormal]
    · have hnormal : normalize c = normalize c' := (normalize_eq_iff hc hc').mpr ⟨h, hexact⟩
      have hnormal' : normalize r = normalize r' := (normalize_eq_iff hr hr').mpr ⟨h', hexact'⟩
      rw [← suits_normalize_extend hc hr, ← suits_normalize_extend hc' hr', hnormal,
        ← extend_normalize hr, ← extend_normalize hr', hnormal']
  · intro hb hb'
    rw [suits_of_not_isBare hc hb, extend_of_not_isBare hr hb', beq_iff_eq, normalize_eq_iff hc hr]

/-- Case does not show in a region, but it does in a script. -/
theorem hanScript_respelled :
    Respelled "zh_Hans_tw" "ZH-Hans-TW" ∧ Respelled "Zh-Hans_TW" "zh-Hans-tw" ∧
      suits (some "zh_Hans_tw") "Zh-Hans_TW" = suits (some "ZH-Hans-TW") "zh-Hans-tw" ∧
      Respelled "zh-Hans" "zh-hans" ∧
      suits (some "zh-Hans") "zh-Hans" = true ∧ suits (some "zh-Hans") "zh-hans" = false := by
  have hregion : Respelled "zh_Hans_tw" "ZH-Hans-TW" := by decide
  have hregion' : Respelled "Zh-Hans_TW" "zh-Hans-tw" := by decide
  have hscript : Respelled "zh-Hans" "zh-hans" := by decide
  have hsame : suits (some "zh_Hans_tw") "Zh-Hans_TW" = suits (some "ZH-Hans-TW") "zh-Hans-tw" :=
    (suits_respelled (by decide) (by decide) (by decide) (by decide) hregion hregion').1
      (.inr (by decide))
  have hexact : suits (some "zh-Hans") "zh-hans" = true ↔ Respelled "zh-Hans" "zh-hans" ∧
      exactSubtags "zh-Hans" = exactSubtags "zh-hans" :=
    (suits_respelled (by decide) (by decide) (by decide) (by decide) hscript hscript.symm).2
      (by decide) (by decide)
  refine ⟨hregion, hregion', hsame, hscript, suits_self (by decide), ?_⟩
  exact Bool.eq_false_iff.mpr fun hs => absurd (hexact.mp hs).2 (by decide)

end CiteStyle.Language
