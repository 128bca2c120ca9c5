import CiteStyle.Proofs.Locale.Merge
import CiteStyle.Proofs.Style.Assembly

/-! # Which locale settles what

Three layers make the locale data of a finished style: the first `locale` of the style that suits
the language, a separate locale, and the defaults of options. `Localized` says how they are layered,
and `buildStyle_locale` that finished styles are so, whatever the other locales of the style
contain. -/

namespace CiteStyle

/-! ## Finishing -/

theorem finish_eq_ok_iff {d : Draft} {root : Element} {s : Style} :
    d.finish root = .ok s ↔ s.draft = d := by
  unfold Draft.finish
  constructor
  · intro h
    split at h
    · next citation bibliography hc hb =>
      obtain rfl := Except.ok.inj h
      obtain ⟨_, _, ⟨_, _⟩, ⟨_, _⟩, _, _, _, _, _⟩ := d
      cases hc
      cases hb
      rfl
    · cases h
    · cases h
  · rintro rfl
    rfl

theorem finish_congr (d : Draft) {root root' : Element} (ht : root'.tag = root.tag)
    (hl : root'.line = root.line) : d.finish root' = d.finish root := by
  unfold Draft.finish
  rw [ht, hl]

theorem complete_data (d : Draft) : d.complete.data =
    { d.data with options := d.data.options.addMissing OptionTables.localeDefaults } := rfl

/-- The locale data of a draft with those of a separate locale, if there is one, beneath. -/
theorem localize_data (d : Draft) (external : Option Locale) :
    ((external.map d.localize).getD d).data =
      d.data.fillFrom ((external.map Locale.data).getD {}) := by
  cases external with
  | some locale => rfl
  | none =>
    change d.data = d.data.fillFrom {}
    simp [LocaleData.fillFrom, Table.addMissing, Table.empty, EmptyCollection.emptyCollection]

theorem fillFrom_terms (d other : LocaleData) :
    (d.fillFrom other).terms = d.terms.merge mergeTerms other.terms := by
  rw [LocaleData.fillFrom]
  cases d.terms <;> cases other.terms <;> rfl

/-! ## The layers -/

def ownLocale (language : String) (root : Element) : List Element :=
  ((settlingLocale language root.elements).map Element.elements).getD []

/-- Locale data in layers: what the style's own locale settles, a separate locale beneath, and for
options the defaults last. Of both terms, those of the style's own locale are the newer. -/
structure Localized (own : List Element) (beneath d : LocaleData) : Prop where
  options : ∀ key, d.options.get? key =
    ((firstOption key own).or (beneath.options.get? key)).or
      (OptionTables.localeDefaults.lookup key)
  dateText : d.dateText = ((firstDate true own).map Element.dateFormat).or beneath.dateText
  dateNumeric :
    d.dateNumeric = ((firstDate false own).map Element.dateFormat).or beneath.dateNumeric
  terms : ∃ blocks,
    List.Forall₂ (fun e newer => readTerms e.elements = .ok newer) (tagged "terms" own) blocks ∧
      d.terms = (layTerms none blocks).merge mergeTerms beneath.terms

theorem Localized.terms_eq_none_iff {own : List Element} {beneath d : LocaleData}
    (h : Localized own beneath d) :
    d.terms = none ↔ tagged "terms" own = [] ∧ beneath.terms = none := by
  obtain ⟨blocks, hb, ht⟩ := h.terms
  have hlen := hb.length_eq
  rw [ht, ← List.length_eq_zero_iff, hlen, List.length_eq_zero_iff]
  have hn : layTerms none blocks = none ↔ _ := layTerms_eq_none_iff
  cases hl : layTerms none blocks <;> cases beneath.terms <;> simp_all

/-- What the style's own locale settles in a draft. -/
theorem assemble_mergedFrom {root : Element} {flag : Bool} {lang : String} {d : Draft}
    (h : (assemble root flag lang).result = .ok d) :
    ({} : LocaleData).MergedFrom (ownLocale lang root) d.data := by
  rw [(assemble_madeOf h).data, ownLocale]
  cases hs : settlingLocale lang root.elements with
  | none => exact mergeAll_mergedFrom rfl
  | some e =>
    obtain ⟨-, -, hloc⟩ := assemble_isOk_iff.mp ⟨d, h⟩
    exact mergeAll_mergedFrom (Prod.ext rfl (hloc e hs))

theorem buildStyle_localized {root : Element} {flag : Bool} {requested : Option String}
    {external : Option Locale} {s : Style}
    (h : (buildStyle root flag requested external).result = .ok s) :
    Localized (ownLocale (requestedLanguage requested root) root)
      ((external.map Locale.data).getD {}) s.data := by
  obtain ⟨d, hd, hf⟩ := Logged.bind_result_eq_ok_iff.mp h
  have hm := assemble_mergedFrom hd
  have hdata : s.data = _ := congrArg Draft.data (finish_eq_ok_iff.mp hf)
  rw [hdata, complete_data, localize_data]
  constructor
  case options =>
    intro key
    rw [Table.get?_addMissing, LocaleData.fillFrom, Table.get?_addMissing, hm.options]
    rfl
  case dateText => rw [LocaleData.fillFrom, hm.dateText]; rfl
  case dateNumeric => rw [LocaleData.fillFrom, hm.dateNumeric]; rfl
  case terms =>
    obtain ⟨blocks, hb, ht⟩ := hm.terms
    exact ⟨blocks, hb, by rw [fillFrom_terms, ht]⟩

/-! ## Locales that do not count -/

/-- A child in the place of another: the same, or a locale for the same language in the same line,
whatever it contains. -/
inductive Reworded : Element → Element → Prop
  | same (e : Element) : Reworded e e
  | locale {e e' : Element} (ht : e.tag = "locale") (ht' : e'.tag = "locale")
      (hl : e'.attribute? "lang" = e.attribute? "lang") (hline : e'.line = e.line) : Reworded e e'

theorem Reworded.isLocaleFor_eq {e e' : Element} (h : Reworded e e') (language : String) :
    e'.isLocaleFor language = e.isLocaleFor language := by
  cases h with
  | same => rfl
  | locale ht ht' hl _ => rw [Element.isLocaleFor, Element.isLocaleFor, ht, ht', hl]

/-- A locale that is skipped leaves no more behind than its language and line. -/
theorem Reworded.add_eq {a : Assembly} {e e' : Element} (h : Reworded e e')
    (hs : a.localeMerged = true ∨ e.isLocaleFor a.draft.language = false) : a.add e' = a.add e := by
  cases h with
  | same => rfl
  | locale ht ht' hl hline =>
    have hskip :
        (!a.localeMerged && Language.suits (e.attribute? "lang") a.draft.language) = false := by
      rcases hs with hs | hs
      · simp [hs]
      · simp_all [Element.isLocaleFor]
    have hr : e.resolve = .ok .locale := resolve_eq_ok_iff.mpr ht.symm
    have hr' : e'.resolve = .ok .locale := resolve_eq_ok_iff.mpr ht'.symm
    rw [Assembly.add, Assembly.add, hr, hr']
    simp only [Assembly.addLocale, hl, hline, hskip, Bool.false_eq_true, if_false]

/-- Children may be reworded as long as the locale that counts stays. -/
theorem addAll_reworded {a : Assembly} {es es' : List Element} (h : List.Forall₂ Reworded es es')
    (hs : a.localeMerged = false →
      settlingLocale a.draft.language es' = settlingLocale a.draft.language es) :
    a.addAll es' = a.addAll es := by
  induction h generalizing a with
  | nil => rfl
  | @cons e e' rest rest' he _ ih =>
    have hadd : a.add e' = a.add e := by
      cases hm : a.localeMerged with
      | true => exact he.add_eq (.inl hm)
      | false =>
        cases hl : e.isLocaleFor a.draft.language with
        | false => exact he.add_eq (.inr hl)
        | true =>
          have hsame := hs hm
          rw [settlingLocale_cons, settlingLocale_cons, he.isLocaleFor_eq, if_pos hl,
            if_pos hl] at hsame
          rw [Option.some.inj hsame]
    rw [Assembly.addAll, Assembly.addAll, hadd]
    refine Logged.bind_congr fun b hb => ih fun hm => ?_
    have hb := add_eq_ok_iff.mp hb
    rw [hb.language_eq]
    -- a locale that suits would have been merged, so `e` does not count
    cases hl : e.isLocaleFor a.draft.language with
    | true =>
      cases ha : a.localeMerged with
      | true => rw [(hb.of_not_isLocaleFor (.inl ha)).1, ha] at hm; cases hm
      | false => rw [(hb.of_isLocaleFor ha hl).1] at hm; cases hm
    | false =>
      have hsame := hs ((hb.of_not_isLocaleFor (.inr hl)).1.symm.trans hm)
      rwa [settlingLocale_cons, settlingLocale_cons, he.isLocaleFor_eq, hl] at hsame

/-- Roots that differ at most in what locales contain that do not count for a language. -/
structure SameButOtherLocales (language : String) (root root' : Element) : Prop where
  tag : root'.tag = root.tag
  attributes : root'.attributes = root.attributes
  line : root'.line = root.line
  children : List.Forall₂ Reworded root.elements root'.elements
  own : settlingLocale language root'.elements = settlingLocale language root.elements

theorem SameButOtherLocales.assemble_eq {lang : String} {root root' : Element}
    (h : SameButOtherLocales lang root root') (flag : Bool) :
    assemble root' flag lang = assemble root flag lang := by
  have hall := addAll_reworded (a := startOf root flag lang) h.children fun _ => h.own
  rw [startOf] at hall
  rw [assemble, assemble, h.tag, h.attributes, h.line]
  simp only [hall]

theorem SameButOtherLocales.buildStyle_eq {root root' : Element} {requested : Option String}
    (h : SameButOtherLocales (requestedLanguage requested root) root root') (flag : Bool)
    (external : Option Locale) :
    buildStyle root' flag requested external = buildStyle root flag requested external := by
  have hlang : requestedLanguage requested root' = requestedLanguage requested root := by
    rw [requestedLanguage, requestedLanguage, Element.attribute?, h.attributes]
    rfl
  rw [buildStyle, buildStyle, hlang, h.assemble_eq]
  simp only [finish_congr _ h.tag h.line]

/-- **Locale precedence.** The locale data of a finished style come from the children of its first
locale that suits the language, then from a separate locale, then from the defaults; terms are there
unless neither has any. Other locales have no influence: whatever they contain, the outcome is the
same, the log included. -/
theorem buildStyle_locale (root : Element) (flag : Bool) (requested : Option String)
    (external : Option Locale) :
    (∀ s, (buildStyle root flag requested external).result = .ok s →
      Localized (ownLocale (requestedLanguage requested root) root)
        ((external.map Locale.data).getD {}) s.data ∧
      (s.data.terms = none ↔
        tagged "terms" (ownLocale (requestedLanguage requested root) root) = [] ∧
          ((external.map Locale.data).getD {}).terms = none)) ∧
    ∀ root', SameButOtherLocales (requestedLanguage requested root) root root' →
      buildStyle root' flag requested external = buildStyle root flag requested external := by
  refine ⟨fun s h => ?_, fun root' h => h.buildStyle_eq flag external⟩
  have hl := buildStyle_localized h
  exact ⟨hl, hl.terms_eq_none_iff⟩

def bilingualRoot (french : List Node) : Element := ⟨"style", {}, [
  .element "locale" (.ofList [("lang", "fr")]) french 2,
  .element "locale" (.ofList [("lang", "en")])
    [.element "style-options" (.ofList [("punctuation-in-quote", "true")]) [] 3] 3,
  .element "citation" {} [.element "layout" {} [] 4] 4,
  .element "bibliography" {} [.element "layout" {} [] 5] 5], 1⟩

def separateLocale : Locale where
  data := { options := .ofList [
    ("punctuation-in-quote", "false"), ("limit-day-ordinals-to-day-1", "true")] }

theorem bilingualRoot_locale :
    ∃ s, SameButOtherLocales "en-US" (bilingualRoot []) (bilingualRoot [.element "font" {} [] 2]) ∧
      (buildStyle (bilingualRoot []) false none (some separateLocale)).result = .ok s ∧
      (buildStyle (bilingualRoot [.element "font" {} [] 2]) false none
        (some separateLocale)).result = .ok s ∧
      s.data.options.get? "punctuation-in-quote" = some "true" ∧
      s.data.options.get? "limit-day-ordinals-to-day-1" = some "true" ∧ s.data.terms = none := by
  have hsame : SameButOtherLocales (requestedLanguage none (bilingualRoot [])) (bilingualRoot [])
      (bilingualRoot [.element "font" {} [] 2]) := by
    refine ⟨rfl, rfl, rfl, .cons (.locale rfl rfl rfl rfl) ?_, rfl⟩
    exact List.forall₂_same.mpr fun e _ => .same e
  obtain ⟨s, hs⟩ : ∃ s, (buildStyle (bilingualRoot []) false none (some separateLocale)).result =
    .ok s := ⟨_, rfl⟩
  have hlocale := buildStyle_locale (bilingualRoot []) false none (some separateLocale)
  obtain ⟨hl, ht⟩ := hlocale.1 s hs
  exact ⟨s, hsame, hs, by rw [hlocale.2 _ hsame, hs], (hl.options _).trans rfl,
    (hl.options _).trans rfl, ht.mpr ⟨rfl, rfl⟩⟩

end CiteStyle
