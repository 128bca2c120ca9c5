import CiteStyle.Language
import CiteStyle.Proofs.Text.LetterCase
import Mathlib.Data.List.Basic

/-! # Spellings of language tags

Tags may be written with letters of either case and with either separator. The usual form takes
two such spellings for one tag exactly if the subtags agree that keep their letters as they are
(`normalize_eq_iff`): those after the language that are no regions. -/

namespace CiteStyle.Language

open Text

/-! ## Subtags -/

def IsSubtag (s : List Char) : Prop := ∀ c ∈ s, isSeparator c = false

theorem subtags_ne_nil (s : List Char) : subtags s ≠ [] := by
  cases s with
  | nil => exact List.cons_ne_nil _ _
  | cons c rest =>
    rw [subtags]
    split
    · exact List.cons_ne_nil _ _
    · split <;> exact List.cons_ne_nil _ _

theorem subtags_cons (c : Char) (rest : List Char) :
    subtags (c :: rest) =
      if isSeparator c then [] :: subtags rest else (subtags rest).modifyHead (c :: ·) := by
  obtain ⟨first, more, hs⟩ := List.exists_cons_of_ne_nil (subtags_ne_nil rest)
  rw [subtags, hs, List.modifyHead_cons]

theorem subtags_eq_splitOnP (s : List Char) : subtags s = s.splitOnP isSeparator := by
  induction s with
  | nil => rfl
  | cons c rest ih => rw [subtags_cons, List.splitOnP_cons_eq_if_modifyHead, ih]

theorem mem_of_mem_subtags {s t : List Char} (h : t ∈ subtags s) :
    IsSubtag t ∧ ∀ c ∈ t, c ∈ s := by
  induction s generalizing t with
  | nil =>
    obtain rfl := List.mem_singleton.mp h
    exact ⟨List.forall_mem_nil _, List.forall_mem_nil _⟩
  | cons c rest ih =>
    rw [subtags_cons] at h
    split at h
    · rcases List.mem_cons.mp h with rfl | h
      · exact ⟨List.forall_mem_nil _, List.forall_mem_nil _⟩
      · exact ⟨(ih h).1, fun d hd => List.mem_cons_of_mem _ ((ih h).2 d hd)⟩
    · next hc =>
      obtain ⟨first, more, hs⟩ := List.exists_cons_of_ne_nil (subtags_ne_nil rest)
      rw [hs] at h ih
      rcases List.mem_cons.mp h with rfl | h
      · obtain ⟨hfree, hin⟩ := ih List.mem_cons_self
        exact ⟨List.forall_mem_cons.mpr ⟨Bool.eq_false_iff.mpr hc, hfree⟩,
          List.forall_mem_cons.mpr
            ⟨List.mem_cons_self, fun d hd => List.mem_cons_of_mem _ (hin d hd)⟩⟩
      · obtain ⟨hfree, hin⟩ := ih (List.mem_cons_of_mem _ h)
        exact ⟨hfree, fun d hd => List.mem_cons_of_mem _ (hin d hd)⟩

theorem joinSubtags_cons_cons (s t : List Char) (l : List (List Char)) :
    joinSubtags (s :: t :: l) = s ++ '-' :: joinSubtags (t :: l) := by
  rw [joinSubtags, List.intercalate_cons_cons, List.append_assoc]
  rfl

/-- What is joined from subtags is divided into them again. -/
theorem subtags_joinSubtags {l : List (List Char)} (hne : l ≠ []) (h : ∀ s ∈ l, IsSubtag s) :
    subtags (joinSubtags l) = l := by
  induction l with
  | nil => exact absurd rfl hne
  | cons s rest ih =>
    obtain ⟨hs, hrest⟩ := List.forall_mem_cons.mp h
    cases rest with
    | nil =>
      rw [joinSubtags, List.intercalate_singleton, subtags_eq_splitOnP]
      exact List.splitOnP_eq_singleton hs
    | cons t more =>
      rw [joinSubtags_cons_cons, subtags_eq_splitOnP,
        List.splitOnP_append_cons_of_forall_mem hs '-' rfl, ← subtags_eq_splitOnP,
        ih (List.cons_ne_nil _ _) hrest]

theorem mem_joinSubtags {c : Char} {l : List (List Char)} (h : c ∈ joinSubtags l) :
    c = '-' ∨ ∃ s ∈ l, c ∈ s := by
  induction l with
  | nil => exact absurd h List.not_mem_nil
  | cons s rest ih =>
    cases rest with
    | nil =>
      rw [joinSubtags, List.intercalate_singleton] at h
      exact .inr ⟨s, List.mem_cons_self, h⟩
    | cons t more =>
      rw [joinSubtags_cons_cons, List.mem_append, List.mem_cons] at h
      rcases h with h | h | h
      · exact .inr ⟨s, List.mem_cons_self, h⟩
      · exact .inl h
      · rcases ih h with h | ⟨u, hu, hc⟩
        · exact .inl h
        · exact .inr ⟨u, List.mem_cons_of_mem _ hu, hc⟩

theorem joinSubtags_subtags (s : List Char) :
    joinSubtags (subtags s) = s.map fun c => if isSeparator c then '-' else c := by
  induction s with
  | nil => rfl
  | cons c rest ih =>
    obtain ⟨first, more, hs⟩ := List.exists_cons_of_ne_nil (subtags_ne_nil rest)
    rw [subtags_cons, List.map_cons, ← ih, hs]
    split
    · exact joinSubtags_cons_cons [] first more
    · cases more with
      | nil => rw [List.modifyHead_cons, joinSubtags, joinSubtags, List.intercalate_singleton,
          List.intercalate_singleton]
      | cons t more =>
        rw [List.modifyHead_cons, joinSubtags_cons_cons, joinSubtags_cons_cons, List.cons_append]

/-! ## Spellings of one tag -/

theorem isSeparator_toLower {c : Char} (h : c.toNat < 128) :
    isSeparator c.toLower = isSeparator c :=
  forall_ascii (P := fun c => isSeparator c.toLower = isSeparator c) (by decide +kernel) h

theorem isSeparator_toUpper {c : Char} (h : c.toNat < 128) :
    isSeparator c.toUpper = isSeparator c :=
  forall_ascii (P := fun c => isSeparator c.toUpper = isSeparator c) (by decide +kernel) h

/-- A tag in small letters, with hyphens for all separators. -/
def folded (s : List Char) : List Char :=
  s.map fun c => if isSeparator c then '-' else c.toLower

/-- Tags that differ at most in the case of letters and in which separators they have. -/
def Respelled (tag tag' : String) : Prop := folded tag.toList = folded tag'.toList

instance (tag tag' : String) : Decidable (Respelled tag tag') :=
  inferInstanceAs (Decidable (folded tag.toList = folded tag'.toList))

theorem subtags_folded {s : List Char} (h : IsAscii s) :
    subtags (folded s) = (subtags s).map (·.map Char.toLower) := by
  induction s with
  | nil => rfl
  | cons c rest ih =>
    obtain ⟨hc, hr⟩ := List.forall_mem_cons.mp h
    obtain ⟨first, more, hs⟩ := List.exists_cons_of_ne_nil (subtags_ne_nil rest)
    have ih := ih hr
    rw [hs] at ih
    rw [folded, List.map_cons, subtags_cons, subtags_cons, hs, ← folded, ih]
    cases hsep : isSeparator c with
    | true => rfl
    | false => simp [isSeparator_toLower hc, hsep]

theorem joinSubtags_folded {s : List Char} (h : IsAscii s) :
    joinSubtags (subtags (folded s)) = folded s := by
  rw [joinSubtags_subtags, folded, List.map_map]
  refine List.map_congr_left fun c hc => ?_
  cases hsep : isSeparator c with
  | true => simp [hsep]
  | false => simp [hsep, isSeparator_toLower (h c hc)]

theorem folded_eq_iff {s t : List Char} (hs : IsAscii s) (ht : IsAscii t) :
    folded s = folded t ↔
      (subtags s).map (·.map Char.toLower) = (subtags t).map (·.map Char.toLower) := by
  rw [← subtags_folded hs, ← subtags_folded ht]
  constructor
  · exact congrArg subtags
  · intro h
    rw [← joinSubtags_folded hs, ← joinSubtags_folded ht, h]

/-! ## The usual form -/

/-- The subtags whose letters keep their case: those after the language that are no regions. -/
def exactSubtags (tag : String) : List (List Char) :=
  (subtags tag.toList).tail.filter (·.length != 2)

theorem normalizeSubtag_of_isAscii {s : List Char} (h : IsAscii s) :
    normalizeSubtag s = if s.length = 2 then s.map Char.toUpper else s := by
  rw [normalizeSubtag, upper_of_isAscii h]

theorem length_normalizeSubtag {s : List Char} (h : IsAscii s) :
    (normalizeSubtag s).length = s.length := by
  rw [normalizeSubtag_of_isAscii h]
  split
  · exact List.length_map _
  · rfl

theorem map_toLower_normalizeSubtag {s : List Char} (h : IsAscii s) :
    (normalizeSubtag s).map Char.toLower = s.map Char.toLower := by
  rw [normalizeSubtag_of_isAscii h]
  split
  · exact map_toLower_map_toUpper h
  · rfl

theorem normalizeSubtag_eq_iff {s t : List Char} (hs : IsAscii s) (ht : IsAscii t) :
    normalizeSubtag s = normalizeSubtag t ↔
      s.map Char.toLower = t.map Char.toLower ∧ (s.length ≠ 2 → s = t) := by
  constructor
  · intro h
    have hlength : s.length = t.length := by
      rw [← length_normalizeSubtag hs, h, length_normalizeSubtag ht]
    refine ⟨by rw [← map_toLower_normalizeSubtag hs, h, map_toLower_normalizeSubtag ht], ?_⟩
    intro hne
    rwa [normalizeSubtag, if_neg hne, normalizeSubtag, if_neg (hlength ▸ hne)] at h
  · rintro ⟨hlower, hexact⟩
    by_cases htwo : s.length = 2
    · have hlength : s.length = t.length := by simpa using congrArg List.length hlower
      rw [normalizeSubtag_of_isAscii hs, normalizeSubtag_of_isAscii ht, if_pos htwo,
        if_pos (hlength ▸ htwo), ← map_toUpper_map_toLower hs, hlower, map_toUpper_map_toLower ht]
    · rw [hexact htwo]

theorem map_normalizeSubtag_eq_iff {l l' : List (List Char)} (h : ∀ s ∈ l, IsAscii s)
    (h' : ∀ s ∈ l', IsAscii s) :
    l.map normalizeSubtag = l'.map normalizeSubtag ↔
      l.map (·.map Char.toLower) = l'.map (·.map Char.toLower) ∧
        l.filter (·.length != 2) = l'.filter (·.length != 2) := by
  induction l generalizing l' with
  | nil => cases l' <;> simp
  | cons s rest ih =>
    cases l' with
    | nil => simp
    | cons t rest' =>
      obtain ⟨hs, hrest⟩ := List.forall_mem_cons.mp h
      obtain ⟨ht, hrest'⟩ := List.forall_mem_cons.mp h'
      simp only [List.map_cons, List.cons.injEq, normalizeSubtag_eq_iff hs ht, ih hrest hrest']
      -- subtags that agree in small letters have one length, so the filter takes both or neither
      by_cases hlower : s.map Char.toLower = t.map Char.toLower
      · have hlength : s.length = t.length := by simpa using congrArg List.length hlower
        by_cases htwo : s.length = 2
        · simp [hlower, htwo, ← hlength]
        · have htwo' : t.length ≠ 2 := hlength ▸ htwo
          simp only [hlower, List.filter_cons, bne_iff_ne, ne_eq, htwo, htwo', not_false_eq_true,
            if_true, List.cons.injEq, true_implies, true_and]
          tauto
      · simp [hlower]

theorem isSubtag_map_toLower {s : List Char} (h : IsAscii s) (hs : IsSubtag s) :
    IsSubtag (s.map Char.toLower) := by
  intro d hd
  obtain ⟨c, hc, rfl⟩ := List.mem_map.mp hd
  rw [isSeparator_toLower (h c hc), hs c hc]

theorem isSubtag_normalizeSubtag {s : List Char} (h : IsAscii s) (hs : IsSubtag s) :
    IsSubtag (normalizeSubtag s) := by
  rw [normalizeSubtag_of_isAscii h]
  split
  · intro d hd
    obtain ⟨c, hc, rfl⟩ := List.mem_map.mp hd
    rw [isSeparator_toUpper (h c hc), hs c hc]
  · exact hs

theorem isAscii_normalizeSubtag {s : List Char} (h : IsAscii s) : IsAscii (normalizeSubtag s) := by
  rw [normalizeSubtag_of_isAscii h]
  split
  · exact isAscii_map_toUpper h
  · exact h

theorem isAscii_of_mem_subtags {s t : List Char} (hs : IsAscii s) (h : t ∈ subtags s) :
    IsAscii t := fun c hc => hs c ((mem_of_mem_subtags h).2 c hc)

/-- The subtags of an ASCII text, the language apart, and their usual form. -/
theorem exists_normalizeSubtags {s : List Char} (hs : IsAscii s) :
    ∃ language rest, subtags s = language :: rest ∧
      IsAscii language ∧ (∀ t ∈ rest, IsAscii t) ∧
      normalizeSubtags (subtags s) = language.map Char.toLower :: rest.map normalizeSubtag := by
  obtain ⟨language, rest, hsub⟩ := List.exists_cons_of_ne_nil (subtags_ne_nil s)
  have hall : ∀ t ∈ language :: rest, IsAscii t := fun t ht => isAscii_of_mem_subtags hs (hsub ▸ ht)
  obtain ⟨hlanguage, hrest⟩ := List.forall_mem_cons.mp hall
  refine ⟨language, rest, hsub, hlanguage, hrest, ?_⟩
  rw [hsub, normalizeSubtags, lower_of_isAscii hlanguage]

theorem isSubtag_of_mem_normalizeSubtags {s t : List Char} (hs : IsAscii s)
    (h : t ∈ normalizeSubtags (subtags s)) : IsSubtag t ∧ IsAscii t := by
  obtain ⟨language, rest, hsub, hlanguage, hrest, hnormal⟩ := exists_normalizeSubtags hs
  have hfree : ∀ u ∈ language :: rest, IsSubtag u := fun u hu => (mem_of_mem_subtags (hsub ▸ hu)).1
  obtain ⟨hfirst, hmore⟩ := List.forall_mem_cons.mp hfree
  rw [hnormal, List.mem_cons, List.mem_map] at h
  rcases h with rfl | ⟨u, hu, rfl⟩
  · exact ⟨isSubtag_map_toLower hlanguage hfirst, isAscii_map_toLower hlanguage⟩
  · exact ⟨isSubtag_normalizeSubtag (hrest u hu) (hmore u hu), isAscii_normalizeSubtag (hrest u hu)⟩

section

variable {tag tag' : String} (h : IsAscii tag.toList)
include h

theorem subtags_normalize :
    subtags (normalize tag).toList = normalizeSubtags (subtags tag.toList) := by
  obtain ⟨language, rest, -, -, -, hnormal⟩ := exists_normalizeSubtags h
  rw [normalize, String.toList_ofList]
  refine subtags_joinSubtags ?_ fun s hs => (isSubtag_of_mem_normalizeSubtags h hs).1
  rw [hnormal]
  exact List.cons_ne_nil _ _

theorem isAscii_normalize : IsAscii (normalize tag).toList := by
  intro c hc
  rw [normalize, String.toList_ofList] at hc
  rcases mem_joinSubtags hc with rfl | ⟨s, hs, hc⟩
  · decide
  · exact (isSubtag_of_mem_normalizeSubtags h hs).2 c hc

theorem respelled_normalize : Respelled tag (normalize tag) := by
  obtain ⟨language, rest, hsub, hlanguage, hrest, hnormal⟩ := exists_normalizeSubtags h
  refine (folded_eq_iff h (isAscii_normalize h)).mpr ?_
  rw [subtags_normalize h, hnormal, hsub, List.map_cons, List.map_cons,
    map_toLower_map_toLower hlanguage, List.map_map]
  congr 1
  exact List.map_congr_left fun s hs => (map_toLower_normalizeSubtag (hrest s hs)).symm

theorem exactSubtags_normalize : exactSubtags (normalize tag) = exactSubtags tag := by
  obtain ⟨language, rest, hsub, -, hrest, hnormal⟩ := exists_normalizeSubtags h
  rw [exactSubtags, exactSubtags, subtags_normalize h, hnormal, hsub, List.tail_cons,
    List.tail_cons, List.filter_map]
  have hfilter : rest.filter ((·.length != 2) ∘ normalizeSubtag) = rest.filter (·.length != 2) :=
    List.filter_congr fun s hs => by rw [Function.comp_apply, length_normalizeSubtag (hrest s hs)]
  rw [hfilter]
  -- what the filter takes is not changed by the usual form
  conv_rhs => rw [← List.map_id (rest.filter (·.length != 2))]
  refine List.map_congr_left fun s hs => ?_
  rw [normalizeSubtag, if_neg (bne_iff_ne.mp (List.mem_filter.mp hs).2), id]

/-- **What the usual form tells apart.** Two tags have one usual form exactly if they are spellings
of one tag and write alike the subtags that keep their case. -/
theorem normalize_eq_iff (h' : IsAscii tag'.toList) :
    normalize tag = normalize tag' ↔
      Respelled tag tag' ∧ exactSubtags tag = exactSubtags tag' := by
  obtain ⟨language, rest, hsub, hlanguage, hrest, hnormal⟩ := exists_normalizeSubtags h
  obtain ⟨language', rest', hsub', hlanguage', hrest', hnormal'⟩ := exists_normalizeSubtags h'
  have hsubtags : normalize tag = normalize tag' ↔
      normalizeSubtags (subtags tag.toList) = normalizeSubtags (subtags tag'.toList) := by
    constructor
    · intro heq
      rw [← subtags_normalize h, ← subtags_normalize h', heq]
    · intro heq
      rw [normalize, normalize, heq]
  rw [hsubtags, Respelled, folded_eq_iff h h', exactSubtags, exactSubtags, hnormal, hnormal', hsub,
    hsub', List.map_cons, List.map_cons, List.cons.injEq, List.cons.injEq, List.tail_cons,
    List.tail_cons, map_normalizeSubtag_eq_iff hrest hrest', and_assoc]

theorem normalize_normalize : normalize (normalize tag) = normalize tag :=
  ((normalize_eq_iff h (isAscii_normalize h)).mpr
    ⟨respelled_normalize h, (exactSubtags_normalize h).symm⟩).symm

end

end CiteStyle.Language
