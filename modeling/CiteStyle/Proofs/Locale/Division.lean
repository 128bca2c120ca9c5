import CiteStyle.Proofs.Division
import CiteStyle.Proofs.Locale.Merge

/-! # Locales that differ in how texts are divided

Texts come into a locale as the values of terms alone. So where texts are divided otherwise, the
same children are merged, and the data differ in the values of terms at most
(`mergeAll_redivided`). -/

namespace CiteStyle

def Division.KeepsTexts (D : Division) : Prop :=
  ∀ around us ts, D around us ts → String.join us = String.join ts

/-! ## Terms -/

/-- Terms that differ in their values at most, and not even in these under a condition. -/
structure Term.Alike (texts : Prop) (t t' : Term) : Prop where
  same : t' = { t with value := t'.value }
  value : texts → t'.value = t.value

theorem Term.Alike.refl (texts : Prop) (t : Term) : t.Alike texts t := ⟨rfl, fun _ => rfl⟩

theorem Term.Alike.eq {texts : Prop} {t t' : Term} (h : t.Alike texts t') (ht : texts) :
    t' = t := by
  rw [h.same, h.value ht]

theorem Term.Alike.key_eq {texts : Prop} {t t' : Term} (h : t.Alike texts t') : t'.key = t.key := by
  rw [h.same]
  rfl

/-- Lists of such terms. -/
abbrev TermsAlike (texts : Prop) : List Term → List Term → Prop := List.Forall₂ (Term.Alike texts)

variable {texts : Prop}

theorem TermsAlike.refl (texts : Prop) (terms : List Term) : TermsAlike texts terms terms :=
  List.forall₂_same.mpr fun t _ => .refl texts t

theorem TermsAlike.eq {terms terms' : List Term} (h : TermsAlike texts terms terms') (ht : texts) :
    terms' = terms := by
  induction h with
  | nil => rfl
  | cons h _ ih => rw [h.eq ht, ih]

theorem TermsAlike.keys_eq {terms terms' : List Term} (h : TermsAlike texts terms terms') :
    terms'.map Term.key = terms.map Term.key := by
  induction h with
  | nil => rfl
  | cons h _ ih => rw [List.map_cons, List.map_cons, h.key_eq, ih]

theorem TermsAlike.mergeTerms {newer newer' older older' : List Term}
    (hn : TermsAlike texts newer newer') (ho : TermsAlike texts older older') :
    TermsAlike texts (mergeTerms newer older) (mergeTerms newer' older') := by
  refine List.rel_append (List.rel_filter (fun t t' ht => ?_) ho) hn
  dsimp only
  rw [hn.keys_eq, ht.key_eq]

variable {D : Division} {around : Surroundings}

section

variable {e e' : Element}

/-- The numbers of a term come from its children; what their texts are is their own matter. -/
theorem numbered_redivided {es es' : List Element}
    (h : List.Forall₂ (Element.Redivided D around) es es') (t : Term) :
    TermsAlike D.KeepsTexts
      (es.filterMap fun child => (Plurality.ofString? child.tag).map fun p =>
        { t with value := child.text, number := some p })
      (es'.filterMap fun child => (Plurality.ofString? child.tag).map fun p =>
        { t with value := child.text, number := some p }) := by
  induction h with
  | nil => exact .nil
  | cons he _ ih =>
    rw [List.filterMap_cons, List.filterMap_cons, he.tag]
    cases Plurality.ofString? _ with
    | none => exact ih
    | some p => exact .cons ⟨rfl, fun hD => he.text_eq hD⟩ ih

theorem termForms_redivided (h : e.Redivided D around e') (name : String) :
    TermsAlike D.KeepsTexts (e.termForms name) (e'.termForms name) := by
  have hnumbered := numbered_redivided h.elements ⟨name, e.text, (e.attribute? "form").getD "long",
    none, e.attribute? "gender", e.attribute? "gender-form", e.attribute? "match"⟩
  unfold Element.termForms
  simp only [h.attribute?_eq, List.isEmpty_iff_length_eq_zero, hnumbered.length_eq]
  split
  · exact .cons ⟨rfl, fun hD => h.text_eq hD⟩ .nil
  · exact hnumbered

theorem term_redivided {terms : List Term} (h : e.Redivided D around e')
    (ht : e.term = .ok terms) :
    ∃ terms', e'.term = .ok terms' ∧ TermsAlike D.KeepsTexts terms terms' := by
  unfold Element.term at ht ⊢
  rw [h.resolve_eq, h.attribute?_eq]
  split at ht
  · cases ht
  · next tag htag =>
    split at ht
    · next hterm =>
      split at ht
      · cases ht
      · next name hname =>
        split at ht
        · cases ht
        · next hne =>
          cases ht
          refine ⟨_, ?_, termForms_redivided h name⟩
          simp only [hterm, hne, if_true, if_false]
    · cases ht

end

theorem readTerms_redivided {es es' : List Element} {terms : List Term}
    (h : List.Forall₂ (Element.Redivided D around) es es') (ht : readTerms es = .ok terms) :
    ∃ terms', readTerms es' = .ok terms' ∧ TermsAlike D.KeepsTexts terms terms' := by
  induction h generalizing terms with
  | nil =>
    cases ht
    exact ⟨[], rfl, .nil⟩
  | cons he _ ih =>
    rw [readTerms] at ht
    split at ht
    · cases ht
    · next here hhere =>
      split at ht
      · cases ht
      · next more hmore =>
        cases ht
        obtain ⟨here', hhere', hsame⟩ := term_redivided he hhere
        obtain ⟨more', hmore', hrest⟩ := ih hmore
        exact ⟨here' ++ more', by rw [readTerms, hhere', hmore'], List.rel_append hsame hrest⟩

/-! ## Locale data -/

/-- Locale data that differ in the values of terms at most, and not even in these under a
condition. -/
structure LocaleData.Alike (texts : Prop) (d d' : LocaleData) : Prop where
  options : d'.options = d.options
  dateText : d'.dateText = d.dateText
  dateNumeric : d'.dateNumeric = d.dateNumeric
  terms : Option.Rel (TermsAlike texts) d.terms d'.terms

namespace LocaleData.Alike

variable {d d' : LocaleData}

theorem refl (texts : Prop) (d : LocaleData) : d.Alike texts d :=
  ⟨rfl, rfl, rfl, by cases d.terms <;> constructor; exact .refl texts _⟩

theorem eq (h : d.Alike texts d') (ht : texts) : d' = d := by
  obtain ⟨options, dateText, dateNumeric, terms⟩ := d
  obtain ⟨options', dateText', dateNumeric', terms'⟩ := d'
  obtain ⟨rfl, rfl, rfl, hterms⟩ := h
  cases hterms with
  | none => rfl
  | some hterms => rw [hterms.eq ht]

theorem addTerms (h : d.Alike texts d') {newer newer' : List Term}
    (hn : TermsAlike texts newer newer') :
    (d.addTerms newer).Alike texts (d'.addTerms newer') where
  options := h.options
  dateText := h.dateText
  dateNumeric := h.dateNumeric
  terms := by
    have hterms := h.terms
    unfold LocaleData.addTerms
    dsimp only
    generalize d.terms = older, d'.terms = older' at hterms ⊢
    cases hterms with
    | none => exact .some (hn.mergeTerms .nil)
    | some ho => exact .some (hn.mergeTerms ho)

theorem fillFrom (h : d.Alike texts d') (other : LocaleData) :
    (d.fillFrom other).Alike texts (d'.fillFrom other) where
  options := by rw [LocaleData.fillFrom, LocaleData.fillFrom, h.options]
  dateText := by rw [LocaleData.fillFrom, LocaleData.fillFrom, h.dateText]
  dateNumeric := by rw [LocaleData.fillFrom, LocaleData.fillFrom, h.dateNumeric]
  terms := by
    have hterms := h.terms
    unfold LocaleData.fillFrom
    dsimp only
    generalize d.terms = newer, d'.terms = newer' at hterms ⊢
    cases other.terms with
    | none => exact hterms
    | some older =>
      cases hterms with
      | none => exact .some (.refl texts older)
      | some hn => exact .some (hn.mergeTerms (.refl texts older))

end LocaleData.Alike

theorem dateFormat_redivided {e e' : Element} (h : e.Redivided D around e') :
    e'.dateFormat = e.dateFormat := by
  have hparts := List.rel_filter (p := (·.tag == "date-part")) (q := (·.tag == "date-part"))
    (fun c c' (hc : Element.Redivided D _ c c') => by dsimp only; rw [hc.tag]) h.elements
  unfold Element.dateFormat
  dsimp only
  rw [h.attributes]
  congr 2
  generalize e.elements.filter _ = parts, e'.elements.filter _ = parts' at hparts ⊢
  induction hparts with
  | nil => rfl
  | cons hc _ ih => rw [List.map_cons, List.map_cons, hc.attribute?_eq, hc.attributes, ih]

theorem merges_redivided {d d' b : LocaleData} {e e' : Element} (hd : d.Alike D.KeepsTexts d')
    (he : e.Redivided D around e') (h : d.Merges e b) :
    ∃ b', d'.Merges e' b' ∧ b.Alike D.KeepsTexts b' := by
  cases h with
  | options ht =>
    refine ⟨_, .options (he.tag.trans ht), ?_⟩
    rw [he.attributes, hd.options]
    exact ⟨rfl, hd.dateText, hd.dateNumeric, hd.terms⟩
  | date ht =>
    refine ⟨_, .date (he.tag.trans ht), ?_⟩
    rw [LocaleData.addDate, LocaleData.addDate, he.attribute?_eq, dateFormat_redivided he]
    split
    · exact ⟨hd.options, by rw [hd.dateText], hd.dateNumeric, hd.terms⟩
    · exact ⟨hd.options, hd.dateText, by rw [hd.dateNumeric], hd.terms⟩
  | terms ht hr =>
    obtain ⟨newer', hr', hn⟩ := readTerms_redivided he.elements hr
    exact ⟨_, .terms (he.tag.trans ht) hr', hd.addTerms hn⟩
  | info ht => exact ⟨d', .info (he.tag.trans ht), hd⟩

/-- **Only the values of terms depend on how texts are divided.** -/
theorem mergeAll_redivided {d d' b : LocaleData} {es es' : List Element}
    (hd : d.Alike D.KeepsTexts d') (h : List.Forall₂ (Element.Redivided D around) es es')
    (hm : d.mergeAll es = (b, none)) :
    ∃ b', d'.mergeAll es' = (b', none) ∧ b.Alike D.KeepsTexts b' := by
  induction h generalizing d d' with
  | nil =>
    cases hm
    exact ⟨d', rfl, hd⟩
  | cons he _ ih =>
    obtain ⟨c, hc, hrest⟩ := LocaleData.mergeAll_cons_eq_iff.mp hm
    obtain ⟨c', hc', hsame⟩ := merges_redivided hd he hc
    obtain ⟨b', hb', halike⟩ := ih hsame hrest
    exact ⟨b', LocaleData.mergeAll_cons_eq_iff.mpr ⟨c', hc', hb'⟩, halike⟩

/-! ## Locales of their own -/

/-- Locales that differ by divisions of texts at most: for the same language, and with the same data
if divisions keep texts. -/
structure Locale.DiffersBy (D : Division) (l l' : Locale) : Prop where
  lang : l'.lang = l.lang
  data : l.data.Alike D.KeepsTexts l'.data

theorem Document.locale_eq_ok_iff {d : Document} {l : Locale} :
    d.locale.result = .ok l ↔ ∃ root, d.parse = .ok root ∧ root.tag = "locale" ∧
      ({} : LocaleData).merge root = (l.data, none) ∧ l.lang = root.attribute? "lang" := by
  obtain ⟨lang, data⟩ := l
  unfold Document.locale
  constructor
  · intro h
    split at h
    · cases h
    · next root hroot =>
      split at h
      · next htag =>
        split at h
        · cases h
        · next hm =>
          cases h
          exact ⟨root, hroot, htag, hm, rfl⟩
      · cases h
  · rintro ⟨root, hroot, htag, hm, rfl⟩
    simp only [hroot, htag, if_true, hm]

/-- Documents that differ in how texts are divided are both locales or neither is. -/
theorem locale_redivided {d d' : Document} {root root' : Element} {l : Locale}
    (hd : d.parse = .ok root) (hd' : d'.parse = .ok root') (h : root.Redivided D around root')
    (hl : d.locale.result = .ok l) :
    ∃ l', d'.locale.result = .ok l' ∧ l.DiffersBy D l' := by
  obtain ⟨e, he, htag, hm, hlang⟩ := Document.locale_eq_ok_iff.mp hl
  obtain rfl := Except.ok.inj (hd.symm.trans he)
  obtain ⟨data', hm', hdata⟩ := mergeAll_redivided (.refl _ {}) h.elements hm
  exact ⟨⟨root'.attribute? "lang", data'⟩,
    Document.locale_eq_ok_iff.mpr ⟨root', hd', h.tag.trans htag, hm', rfl⟩,
    (h.attribute?_eq "lang").trans hlang.symm, hdata⟩

end CiteStyle
