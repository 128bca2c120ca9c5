import CiteStyle.Proofs.Rendering.Refusal
import CiteStyle.Proofs.Style.Wholeness
import CiteStyle.Proofs.Xml.Lines
import Mathlib.Control.Monad.Basic

/-! # Which element a style is refused for

A style that does not come out for the structure of its document is refused on the line of one of
the elements there, and for a rule that this element breaks itself in its role
(`refusal_names_culprit`). Elements have their role from where they stand. A locale has one only if
it is the one that counts, and what follows a layout has none. -/

namespace CiteStyle

/-- The elements that are looked at when a style is built for a language, with their roles. -/
inductive Element.Visits (language : String) (root : Element) : Role → Element → Prop
  | root : Visits language root .root root
  | inStyle {c : Element} (hc : c ∈ root.elements) : Visits language root .inStyle c
  | inLocale {l c : Element} (hl : settlingLocale language root.elements = some l)
      (hc : c ∈ l.elements) : Visits language root .inLocale c
  | inTerms {l block c : Element} (hl : settlingLocale language root.elements = some l)
      (hb : block ∈ l.elements) (ht : block.tag = "terms") (hc : c ∈ block.elements) :
      Visits language root .inTerms c
  | inMacro {m : Element} {n : Node} {r : Role} {e : Element} (hm : m ∈ root.elements)
      (ht : m.tag = "macro") (hn : n ∈ m.children) (hv : n.Visits r e) : Visits language root r e
  | inSection {s x : Element} {r : Role} {e : Element} (hs : s ∈ root.elements)
      (ht : s.tag = "citation" ∨ s.tag = "bibliography") (hx : x ∈ s.elements)
      (hxt : x.tag = "sort" ∨ x.tag = "layout") (hv : x.toNode.Visits r e) :
      Visits language root r e

theorem Element.Visits.contains {language : String} {root e : Element} {r : Role}
    (h : root.Visits language r e) : root.toNode.Contains e := by
  have hchild {e c d : Element} (hc : c ∈ e.elements) (hd : c.toNode.Contains d) :
      e.toNode.Contains d := .inside (mem_elements_iff.mp hc) hd
  cases h with
  | root => exact .top root
  | inStyle hc => exact hchild hc (.top _)
  | inLocale hl hc => exact hchild (List.mem_of_find?_eq_some hl) (hchild hc (.top _))
  | inTerms hl hb _ hc =>
    exact hchild (List.mem_of_find?_eq_some hl) (hchild hb (hchild hc (.top _)))
  | inMacro hm _ hn hv => exact hchild hm (.inside hn hv.contains)
  | inSection hs _ hx _ hv => exact hchild hs (hchild hx hv.contains)

/-! ## Locales -/

theorem not_isNamed {e : Element} {name : Option String} (hn : e.attribute? "name" = name)
    (h : name = none ∨ name = some "") : ¬ e.IsNamed := by
  rintro ⟨given, hgiven, hne⟩
  rw [hn] at hgiven
  obtain rfl | rfl := h
  · cases hgiven
  · exact hne (Option.some.inj hgiven).symm

theorem term_blames {e : Element} {m : Misplacement} (h : e.term = .error m) :
    m.Blames .inTerms e := by
  unfold Element.term at h
  split at h
  · next hr =>
    obtain rfl := Except.error.inj h
    exact blames_of_resolve hr _
  · next t hr =>
    have hk := resolve_eq_ok_iff.mp hr
    split at h
    · next ht =>
      have htag : e.tag = "term" := by rw [← hk, ht]; rfl
      split at h
      · next hn =>
        obtain rfl := Except.error.inj h
        exact (Breaks.namelessTerm htag (not_isNamed hn (.inl rfl))).blames
      · next name hn =>
        split at h
        · next hempty =>
          obtain rfl := Except.error.inj h
          exact (Breaks.namelessTerm htag (not_isNamed hn (.inr (congrArg some hempty)))).blames
        · cases h
    · next hne =>
      obtain rfl := Except.error.inj h
      have htag : e.tag ≠ "term" := fun htag => hne (Tag.toString_inj (hk.trans htag))
      exact (Breaks.inTerms ⟨t, hk⟩ htag).blames

theorem readTerms_blames {es : List Element} {m : Misplacement} (h : readTerms es = .error m) :
    ∃ e ∈ es, m.Blames .inTerms e := by
  induction es with
  | nil => cases h
  | cons e rest ih =>
    rw [readTerms] at h
    split at h
    · next ht =>
      obtain rfl := Except.error.inj h
      exact ⟨e, List.mem_cons_self, term_blames ht⟩
    · split at h
      · next hrest =>
        obtain rfl := Except.error.inj h
        exact List.exists_mem_cons_of_exists (ih hrest)
      · cases h

/-- How a child of a locale is refused: it may not stand there, or one of its terms is wrong. -/
inductive LocaleChildRefused (m : Misplacement) (e : Element) : Prop
  | child (hb : m.Blames .inLocale e)
  | term {c : Element} (ht : e.tag = "terms") (hc : c ∈ e.elements) (hb : m.Blames .inTerms c)

theorem mergeChild_eq_error {d : LocaleData} {e : Element} {m : Misplacement}
    (h : d.mergeChild e = .error m) : LocaleChildRefused m e := by
  unfold LocaleData.mergeChild at h
  split at h
  · next hr =>
    obtain rfl := Except.error.inj h
    exact .child (blames_of_resolve hr _)
  · cases h
  · cases h
  · next hr =>
    obtain ⟨c, hc, hb⟩ := readTerms_blames (map_eq_error_iff.mp h)
    exact .term (resolve_eq_ok_iff.mp hr).symm hc hb
  · cases h
  · next t hoptions hdate hterms hinfo hr =>
    obtain rfl := Except.error.inj h
    have ht : e.tag ∉ localeChildTags := by
      refine tag_not_mem_of_resolve [.styleOptions, .date, .terms, .info] hr ?_
      simp only [List.mem_cons, List.not_mem_nil, or_false, not_or]
      exact ⟨hoptions, hdate, hterms, hinfo⟩
    exact .child (Breaks.inLocale (isKnown_of_resolve hr) ht).blames

theorem mergeAll_eq_error {d : LocaleData} {es : List Element} {m : Misplacement}
    (h : (d.mergeAll es).2 = some m) : ∃ e ∈ es, LocaleChildRefused m e := by
  induction es generalizing d with
  | nil => cases h
  | cons e rest ih =>
    rw [LocaleData.mergeAll] at h
    split at h
    · next hm =>
      obtain rfl := Option.some.inj h
      exact ⟨e, List.mem_cons_self, mergeChild_eq_error hm⟩
    · exact List.exists_mem_cons_of_exists (ih h)

/-! ## Citations and bibliographies -/

theorem hasBeginning_iff_hasLayout {e : Element} : HasBeginning e.elements ↔ e.HasLayout := by
  constructor
  · rintro ⟨sort, layout, extras, hes, hsort, ht⟩
    cases sort with
    | none => exact ⟨layout, extras, ht, .inl hes⟩
    | some s => exact ⟨layout, extras, ht, .inr ⟨s, hsort s rfl, hes⟩⟩
  · rintro ⟨layout, rest, ht, he | ⟨sort, hs, he⟩⟩
    · exact ⟨none, layout, rest, he, nofun, ht⟩
    · exact ⟨some sort, layout, rest, he, fun s h => Option.some.inj h ▸ hs, ht⟩

theorem compileLayout_eq_error {sort : Option Element} {layout : Element} {m : Misplacement}
    (h : compileLayout sort layout = .error m) :
    ∃ x ∈ sort.toList ++ [layout], x.toNode.compile = .error m := by
  unfold compileLayout at h
  split at h
  · next hs =>
    obtain rfl := Except.error.inj h
    cases sort with
    | none => cases hs
    | some s => exact ⟨s, List.mem_cons_self, map_eq_error_iff.mp (map_eq_error_iff.mp hs)⟩
  · exact ⟨layout, List.mem_append_right _ List.mem_cons_self, map_eq_error_iff.mp h⟩

theorem fragment_eq_error {e : Element} {m : Misplacement} (h : e.fragment.result = .error m) :
    ¬ e.HasLayout ∧ m = ⟨.withoutLayout, e.tag, e.line⟩ ∨
      ∃ x ∈ e.elements, (x.tag = "sort" ∨ x.tag = "layout") ∧ x.toNode.compile = .error m := by
  by_cases hb : HasBeginning e.elements
  · obtain ⟨sort, layout, extras, hb⟩ := hb
    rw [fragment_of_begins hb] at h
    obtain ⟨x, hx, hc⟩ := compileLayout_eq_error (map_eq_error_iff.mp h)
    refine .inr ⟨x, ?_, ?_, hc⟩
    · rw [hb.elements]
      exact List.append_subset.mpr ⟨List.subset_append_left _ _, by simp⟩ hx
    · obtain hx | hx := List.mem_append.mp hx
      · exact .inl (hb.sortTag x (Option.mem_toList.mp hx))
      · exact .inr (List.mem_singleton.mp hx ▸ hb.layoutTag)
  · rw [fragment_of_not_hasBeginning hb] at h
    exact .inl ⟨fun hl => hb (hasBeginning_iff_hasLayout.mpr hl), (Except.error.inj h).symm⟩

/-! ## Children of a style -/

inductive ChildRefused (a : Assembly) (m : Misplacement) (e : Element) : Prop
  | child (hb : m.Blames .inStyle e)
  | locale (hf : a.localeMerged = false) (hs : e.isLocaleFor a.draft.language = true)
      (hm : (a.draft.data.merge e).2 = some m)
  | macroBody (ht : e.tag = "macro") (hc : compileAll e.children = .error m)
  | layoutSection {x : Element} (ht : e.tag = "citation" ∨ e.tag = "bibliography")
      (hx : x ∈ e.elements) (hxt : x.tag = "sort" ∨ x.tag = "layout")
      (hc : x.toNode.compile = .error m)

theorem addLocale_eq_error {a : Assembly} {e : Element} {m : Misplacement} (ht : e.tag = "locale")
    (h : (a.addLocale e).result = .error m) : ChildRefused a m e := by
  unfold Assembly.addLocale at h
  dsimp only at h
  split at h
  · next hc =>
    obtain ⟨hf, hs⟩ := Bool.and_eq_true_iff.mp hc
    split at h
    · next hm =>
      obtain rfl := Except.error.inj h
      exact .locale (by simpa using hf) (by simp [Element.isLocaleFor, ht, hs]) (by rw [hm])
    · cases h
  · cases h

/-- A named macro is refused for its children alone: without its attributes it still is generic. -/
theorem addMacro_eq_error {a : Assembly} {e : Element} {m : Misplacement} (ht : e.tag = "macro")
    (h : (a.addMacro e).result = .error m) : ChildRefused a m e := by
  unfold Assembly.addMacro at h
  split at h
  · next hn =>
    obtain rfl := Except.error.inj h
    exact .child (Breaks.namelessMacro ht (not_isNamed hn (.inl rfl))).blames
  · next name hn =>
    split at h
    · next hempty =>
      obtain rfl := Except.error.inj h
      exact .child (Breaks.namelessMacro ht (not_isNamed hn (.inr (congrArg some hempty)))).blames
    · split at h
      · next hc =>
        obtain rfl := Except.error.inj h
        let body : Element := { e with attributes := {} }
        have hg : body.tag ∈ genericTags := by rw [show body.tag = "macro" from ht]; decide
        have hne : body.tag ≠ "names" := by rw [show body.tag = "macro" from ht]; decide
        obtain hb | ⟨-, hc⟩ := compile_other_eq_error hne hc
        · exact absurd hb.breaks (not_breaks_of_mem_genericTags hg _)
        · exact .macroBody ht hc
      · cases h

theorem addSection_eq_error {a : Assembly} {e : Element} {set : Draft → Section → Draft}
    {m : Misplacement} (ht : e.tag = "citation" ∨ e.tag = "bibliography")
    (h : (a.addSection e set).result = .error m) : ChildRefused a m e := by
  obtain hf | ⟨f, -, hf⟩ := Logged.bind_result_eq_error_iff.mp h
  · obtain ⟨hl, rfl⟩ | ⟨x, hx, hxt, hc⟩ := fragment_eq_error hf
    · exact .child (Breaks.withoutLayout ht hl).blames
    · exact .layoutSection ht hx hxt hc
  · cases hf

theorem add_eq_error {a : Assembly} {e : Element} {m : Misplacement}
    (h : (a.add e).result = .error m) : ChildRefused a m e := by
  unfold Assembly.add at h
  split at h
  · next hr =>
    obtain rfl := Except.error.inj h
    exact .child (blames_of_resolve hr _)
  · cases h
  · next hr => exact addLocale_eq_error (resolve_eq_ok_iff.mp hr).symm h
  · next hr => exact addSection_eq_error (.inl (resolve_eq_ok_iff.mp hr).symm) h
  · next hr => exact addSection_eq_error (.inr (resolve_eq_ok_iff.mp hr).symm) h
  · next hr => exact addMacro_eq_error (resolve_eq_ok_iff.mp hr).symm h
  · next t hinfo hlocale hcitation hbibliography hmacro hr =>
    obtain rfl := Except.error.inj h
    have ht : e.tag ∉ styleChildTags := by
      refine tag_not_mem_of_resolve [.info, .locale, .citation, .bibliography, .macroDefinition]
        hr ?_
      simp only [List.mem_cons, List.not_mem_nil, or_false, not_or]
      exact ⟨hinfo, hlocale, hcitation, hbibliography, hmacro⟩
    exact .child (Breaks.inStyle (isKnown_of_resolve hr) ht).blames

/-- Children are taken in up to one that is refused. -/
theorem addAll_eq_error {a : Assembly} {es : List Element} {m : Misplacement}
    (h : (a.addAll es).result = .error m) : ∃ before e after b, es = before ++ e :: after ∧
      (a.addAll before).result = .ok b ∧ (b.add e).result = .error m := by
  induction es generalizing a with
  | nil => cases h
  | cons e rest ih =>
    obtain he | ⟨b, hb, hrest⟩ := Logged.bind_result_eq_error_iff.mp h
    · exact ⟨[], e, rest, a, rfl, rfl, he⟩
    · obtain ⟨before, e', after, c, rfl, hc, he'⟩ := ih hrest
      exact ⟨e :: before, e', after, c, rfl, Logged.bind_result_eq_ok_iff.mpr ⟨b, hb, hc⟩, he'⟩

/-- A locale has been merged exactly if there was one that suits. -/
theorem addAll_localeMerged {a b : Assembly} {es : List Element}
    (h : (a.addAll es).result = .ok b) :
    b.localeMerged = (a.localeMerged || es.any (·.isLocaleFor a.draft.language)) := by
  induction es generalizing a with
  | nil =>
    obtain rfl := Except.ok.inj h
    simp
  | cons e rest ih =>
    obtain ⟨c, hc, hrest⟩ := addAll_cons_eq_ok_iff.mp h
    rw [ih hrest, hc.language_eq, List.any_cons]
    cases hf : a.localeMerged with
    | true => simp [(hc.of_not_isLocaleFor (.inl hf)).1, hf]
    | false =>
      cases hs : e.isLocaleFor a.draft.language with
      | true => simp [(hc.of_isLocaleFor hf hs).1]
      | false => simp [(hc.of_not_isLocaleFor (.inr hs)).1, hf]

/-- The locale that is being merged when none has been is the one that counts. -/
theorem settlingLocale_of_addAll {a b : Assembly} {before : List Element} {e : Element}
    (h : (a.addAll before).result = .ok b) (hf : b.localeMerged = false)
    (hs : e.isLocaleFor a.draft.language = true) (after : List Element) :
    settlingLocale a.draft.language (before ++ e :: after) = some e := by
  rw [addAll_localeMerged h, Bool.or_eq_false_iff] at hf
  have hnone : before.find? (·.isLocaleFor a.draft.language) = none := by
    rw [List.find?_eq_none]
    exact List.any_eq_false.mp hf.2
  have hhere : (e :: after).find? (·.isLocaleFor a.draft.language) = some e :=
    List.find?_cons_of_pos hs
  rw [settlingLocale, List.find?_append, hnone, hhere, Option.none_or]

/-! ## Whole styles -/

theorem assemble_blames {root : Element} {flag : Bool} {language : String} {m : Misplacement}
    (h : (assemble root flag language).result = .error m) :
    ∃ r e, root.Visits language r e ∧ m.Blames r e := by
  unfold assemble at h
  split at h
  · obtain hall | ⟨a, -, ha⟩ := Logged.bind_result_eq_error_iff.mp h
    · obtain ⟨before, e, after, b, hes, hb, he⟩ := addAll_eq_error hall
      have hmem : e ∈ root.elements := by simp [hes]
      have hlang : b.draft.language = language :=
        addAll_kept (fun a => a.draft.language) Adds.language_eq hb
      cases add_eq_error he with
      | child hblames => exact ⟨_, e, .inStyle hmem, hblames⟩
      | locale hf hs hm =>
        rw [hlang] at hs
        have hl := settlingLocale_of_addAll hb hf hs after
        rw [← hes] at hl
        obtain ⟨c, hc, hrefused⟩ := mergeAll_eq_error hm
        cases hrefused with
        | child hblames => exact ⟨_, c, .inLocale hl hc, hblames⟩
        | term ht hx hblames => exact ⟨_, _, .inTerms hl hc ht hx, hblames⟩
      | macroBody ht hc =>
        obtain ⟨pre, n, post, hchildren, -, hn⟩ := compileAll_eq_error hc
        obtain ⟨r, d, hd, hblames⟩ := compile_blames hn
        exact ⟨r, d, .inMacro hmem ht (by simp [hchildren]) hd, hblames⟩
      | layoutSection ht hx hxt hc =>
        obtain ⟨r, d, hd, hblames⟩ := compile_blames hc
        exact ⟨r, d, .inSection hmem ht hx hxt hd, hblames⟩
    · cases ha
  · next ht =>
    obtain rfl := Except.error.inj h
    exact ⟨_, root, .root, (Breaks.notStyle ht).blames⟩

theorem finish_eq_error {d : Draft} {root : Element} {m : Misplacement}
    (h : d.finish root = .error m) :
    d.citation.arrangement = none ∧ m = ⟨.noPart "citation", root.tag, root.line⟩ ∨
      d.bibliography.arrangement = none ∧
        m = ⟨.noPart "bibliography", root.tag, root.line⟩ := by
  unfold Draft.finish at h
  split at h
  · cases h
  · next hc => exact .inl ⟨hc, (Except.error.inj h).symm⟩
  · next hb => exact .inr ⟨hb, (Except.error.inj h).symm⟩

/-- A section is missing only if there is no element of its kind. -/
theorem LastSettles.forall_tag_ne {tag : String} {es : List Element} {d : Section}
    (h : LastSettles (lastTagged tag es) SettlesSection {} d) (hn : d.arrangement = none) :
    ∀ e ∈ es, e.tag ≠ tag := by
  have hlast := h.arrangement_isSome
  rw [hn] at hlast
  have hnone := Option.isNone_iff_eq_none.mp (Option.isSome_eq_false_iff.mp hlast.symm)
  exact lastTagged_eq_none_iff.mp hnone

theorem buildStyle_blames {root : Element} {flag : Bool} {requested : Option String}
    {external : Option Locale} {m : Misplacement}
    (h : (buildStyle root flag requested external).result = .error m) :
    ∃ r e, root.Visits (requestedLanguage requested root) r e ∧ m.Blames r e := by
  obtain ha | ⟨d, hd, hf⟩ := Logged.bind_result_eq_error_iff.mp h
  · exact assemble_blames ha
  · have hm := assemble_madeOf hd
    rw [localize_eq] at hf
    obtain ⟨hnone, rfl⟩ | ⟨hnone, rfl⟩ := finish_eq_error hf
    · exact ⟨_, root, .root, (Breaks.noCitation (hm.citation.forall_tag_ne hnone)).blames⟩
    · exact ⟨_, root, .root, (Breaks.noBibliography (hm.bibliography.forall_tag_ne hnone)).blames⟩

/-! ## From a document -/

theorem Document.style_eq_error_iff {d : Document} {requested : Option String}
    {external : Option Locale} {f : Failure} :
    (d.style requested external).result = .error f ↔
      (∃ g, d.parse = .error g ∧ f = ⟨g.fault, d.source⟩) ∨
      ∃ root m, d.parse = .ok root ∧
        (buildStyle root d.usesYearSuffix requested external).result = .error m ∧
        f = ⟨.misplaced m, d.source⟩ := by
  simp only [Document.style, Logged.mapError_result_eq_error_iff, Logged.bind_result_eq_error_iff,
    Logged.ofExcept]
  constructor
  · rintro ⟨g, hparse | ⟨root, hparse, m, hm, rfl⟩, rfl⟩
    · exact .inl ⟨g, hparse, shownIn_source_of_parse_error hparse⟩
    · exact .inr ⟨root, m, hparse, hm, rfl⟩
  · rintro (⟨g, hparse, rfl⟩ | ⟨root, m, hparse, hm, rfl⟩)
    · exact ⟨g, .inl hparse, shownIn_source_of_parse_error hparse⟩
    · exact ⟨_, .inr ⟨root, hparse, m, hm, rfl⟩, rfl⟩

/-- **Refusals name their culprit.** When the structure of a document that can be read makes no
style, the failure has a line, which is that of an element of the document. The element breaks the
rule that the failure tells of itself, in the role it has where it stands. Of a tree without `names`
elements that does not compile, the first element to break a rule is named. -/
theorem refusal_names_culprit :
    (∀ (d : Document) (root : Element) (requested : Option String) (external : Option Locale)
      (f : Failure), d.parse = .ok root → (d.style requested external).result = .error f →
      ∃ m r e, f.fault = .misplaced m ∧ f.fault.line? = some e.line ∧
        root.toNode.Contains e ∧ root.Visits (requestedLanguage requested root) r e ∧
        m.Blames r e) ∧
    ∀ (n : Node) (m : Misplacement), n.WithoutNames → n.compile = .error m →
      ∃ before e after, n.allElements = before ++ e :: after ∧
        (∀ d ∈ before, ∀ v, ¬ Breaks .rendered d v) ∧ m.Blames .rendered e := by
  refine ⟨fun d root requested external f hparse h => ?_, fun n m => compile_blames_first⟩
  obtain ⟨g, hg, -⟩ | ⟨root', m, hparse', hbuild, rfl⟩ := Document.style_eq_error_iff.mp h
  · rw [hparse] at hg
    cases hg
  · obtain rfl := Except.ok.inj (hparse'.symm.trans hparse)
    obtain ⟨r, e, hv, hb⟩ := buildStyle_blames hbuild
    have hline : 1 ≤ e.line := Document.parse_onLines hparse e hv.contains
    have hplace : (Fault.misplaced m).line? = some e.line := by
      rw [Fault.line?, hb.line, if_neg (by omega)]
    exact ⟨m, r, e, rfl, hplace, hv.contains, hv, hb⟩

def strangeSubstitute : String :=
  "<style>\n<citation><layout>\n<names variable=\"author\"><label/><substitute>\n<font/>" ++
  "</substitute></names></layout></citation></style>"

def strayName : Node :=
  .element "group" {} [.text "by ", .element "text" {} [] 2, .element "name" {} [] 3,
    .element "font" {} [] 4] 1

theorem strangeSubstitute_culprit :
    (∃ root e, (Document.text strangeSubstitute).parse = .ok root ∧ root.toNode.Contains e ∧
      e.tag = "font" ∧ e.line = 4 ∧ ¬ e.IsKnown) ∧
    ∃ before e after, strayName.allElements = before ++ e :: after ∧
      (∀ d ∈ before, ∀ v, ¬ Breaks .rendered d v) ∧ e.tag = "name" ∧ e.line = 3 := by
  constructor
  · have hfails : ((Document.text strangeSubstitute).style none none).result.map (fun _ => ()) =
        .error ⟨.misplaced ⟨.unknownElement, "font", 4⟩, strangeSubstitute⟩ := by
      decide +kernel
    have hfails := map_eq_error_iff.mp hfails
    obtain ⟨g, hg, hfault⟩ | ⟨root, -, hparse, -, -⟩ := Document.style_eq_error_iff.mp hfails
    · obtain rfl | ⟨-, line, rfl⟩ := Document.parse_eq_error hg <;> cases hfault
    · obtain ⟨m, r, e, hm, -, hc, -, hb⟩ :=
        refusal_names_culprit.1 _ root none none _ hparse hfails
      obtain rfl := Fault.misplaced.inj hm
      cases hb.breaks with
      | unknown hk => exact ⟨root, e, hparse, hc, hb.tag.symm, hb.line.symm, hk⟩
  · have hwithout : strayName.WithoutNames := by
      intro e he
      have hall : ∀ d ∈ strayName.allElements, d.tag ≠ "names" := by decide
      exact hall e (mem_allElements_of_contains he)
    have hfails : strayName.compile = .error ⟨.outsideNames, "name", 3⟩ := rfl
    obtain ⟨before, e, after, hall, hbefore, hb⟩ :=
      refusal_names_culprit.2 strayName _ hwithout hfails
    exact ⟨before, e, after, hall, hbefore, hb.tag.symm, hb.line.symm⟩

end CiteStyle
