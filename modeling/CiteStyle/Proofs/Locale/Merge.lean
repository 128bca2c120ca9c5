import CiteStyle.Locale
import CiteStyle.Proofs.Children
import Mathlib.Data.List.Forall2

/-! # Merging the children of a locale

`Merges` lists everything that merging one child can do. Over all children the policies differ:
options and date formats keep the first value that comes, terms are laid over each other with the
newest on top (`mergeAll_mergedFrom`). -/

namespace CiteStyle

inductive LocaleData.Merges (d : LocaleData) (e : Element) : LocaleData → Prop
  | options (ht : e.tag = "style-options") :
      Merges d e { d with options := d.options.addMissing e.attributes.entries }
  | date (ht : e.tag = "date") : Merges d e (d.addDate e)
  | terms {newer : List Term} (ht : e.tag = "terms") (hr : readTerms e.elements = .ok newer) :
      Merges d e (d.addTerms newer)
  | info (ht : e.tag = "info") : Merges d e d

namespace LocaleData

variable {d b d' : LocaleData} {e : Element} {es rest : List Element}

theorem mergeChild_eq_ok_iff : d.mergeChild e = .ok b ↔ d.Merges e b := by
  unfold mergeChild
  constructor
  · intro h
    split at h
    · cases h
    · next hr =>
      obtain rfl := Except.ok.inj h
      exact .options (resolve_eq_ok_iff.mp hr).symm
    · next hr =>
      obtain rfl := Except.ok.inj h
      exact .date (resolve_eq_ok_iff.mp hr).symm
    · next hr =>
      cases ht : readTerms e.elements with
      | error m => rw [ht] at h; cases h
      | ok newer =>
        rw [ht] at h
        obtain rfl := Except.ok.inj h
        exact .terms (resolve_eq_ok_iff.mp hr).symm ht
    · next hr =>
      obtain rfl := Except.ok.inj h
      exact .info (resolve_eq_ok_iff.mp hr).symm
    · cases h
  · intro h
    have hr {t : Tag} (ht : e.tag = t.toString) : e.resolve = .ok t :=
      resolve_eq_ok_iff.mpr ht.symm
    cases h with
    | options ht => rw [hr (t := .styleOptions) ht]
    | date ht => rw [hr (t := .date) ht]
    | terms ht hterms => rw [hr (t := .terms) ht, hterms]; rfl
    | info ht => rw [hr (t := .info) ht]

theorem mergeAll_cons_eq_iff :
    d.mergeAll (e :: rest) = (d', none) ↔ ∃ b, d.Merges e b ∧ b.mergeAll rest = (d', none) := by
  simp only [← mergeChild_eq_ok_iff]
  rw [mergeAll]
  cases d.mergeChild e <;> simp

end LocaleData

/-! ## What remains of all children -/

/-- Blocks of terms laid over older terms, each over those before it. -/
def layTerms (older : Option (List Term)) (blocks : List (List Term)) : Option (List Term) :=
  blocks.foldl (fun older newer => some (mergeTerms newer (older.getD []))) older

theorem layTerms_cons (older : Option (List Term)) (newer : List Term) (blocks : List (List Term)) :
    layTerms older (newer :: blocks) = layTerms (some (mergeTerms newer (older.getD []))) blocks :=
  rfl

theorem layTerms_eq_none_iff {older : Option (List Term)} {blocks : List (List Term)} :
    layTerms older blocks = none ↔ older = none ∧ blocks = [] := by
  induction blocks generalizing older with
  | nil => simp [layTerms]
  | cons newer rest ih => simp [layTerms_cons, ih]

def firstDate (text : Bool) (es : List Element) : Option Element :=
  (tagged "date" es).find? fun e => (e.attribute? "form" == some "text") == text

def firstOption (key : String) (es : List Element) : Option String :=
  (tagged "style-options" es).findSome? (·.attribute? key)

namespace LocaleData

/-- What data are after all children are merged: for options and date formats the first value that
was there, for terms the newest on top. -/
structure MergedFrom (d : LocaleData) (es : List Element) (d' : LocaleData) : Prop where
  options : ∀ key, d'.options.get? key = (d.options.get? key).or (firstOption key es)
  dateText : d'.dateText = d.dateText.or ((firstDate true es).map Element.dateFormat)
  dateNumeric : d'.dateNumeric = d.dateNumeric.or ((firstDate false es).map Element.dateFormat)
  terms : ∃ blocks,
    List.Forall₂ (fun e newer => readTerms e.elements = .ok newer) (tagged "terms" es) blocks ∧
      d'.terms = layTerms d.terms blocks

end LocaleData

theorem firstOption_cons (key : String) (e : Element) (es : List Element) :
    firstOption key (e :: es) =
      if e.tag = "style-options" then (e.attribute? key).or (firstOption key es)
      else firstOption key es := by
  unfold firstOption
  rw [tagged_cons]
  split
  · rw [List.findSome?_cons]
    cases e.attribute? key <;> rfl
  · rfl

theorem firstDate_cons (text : Bool) (e : Element) (es : List Element) :
    firstDate text (e :: es) =
      if e.tag = "date" ∧ (e.attribute? "form" == some "text") = text then some e
      else firstDate text es := by
  unfold firstDate
  rw [tagged_cons]
  by_cases ht : e.tag = "date"
  · rw [if_pos ht, List.find?_cons]
    cases hf : (e.attribute? "form" == some "text") == text <;> simp_all
  · rw [if_neg ht, if_neg fun h => ht h.1]

namespace LocaleData.MergedFrom

variable {d b d' : LocaleData} {e : Element} {rest : List Element}

theorem cons_options (ht : e.tag = "style-options")
    (h : MergedFrom { d with options := d.options.addMissing e.attributes.entries } rest d') :
    MergedFrom d (e :: rest) d' where
  options key := by
    rw [h.options, firstOption_cons, if_pos ht, Table.get?_addMissing, Option.or_assoc]
    rfl
  dateText := by rw [h.dateText, firstDate_cons, if_neg (by simp [ht])]
  dateNumeric := by rw [h.dateNumeric, firstDate_cons, if_neg (by simp [ht])]
  terms := by
    rw [tagged_cons_of_ne _ (by simp [ht])]
    exact h.terms

theorem cons_date (ht : e.tag = "date") (h : MergedFrom (d.addDate e) rest d') :
    MergedFrom d (e :: rest) d' := by
  have htags : e.tag ≠ "style-options" ∧ e.tag ≠ "terms" := by simp [ht]
  rw [LocaleData.addDate] at h
  by_cases hf : e.attribute? "form" = some "text"
  · rw [if_pos hf] at h
    constructor
    case options => intro key; rw [h.options, firstOption_cons, if_neg htags.1]
    case dateText =>
      rw [h.dateText, firstDate_cons, if_pos (by simp [ht, hf]), Option.or_assoc]
      rfl
    case dateNumeric => rw [h.dateNumeric, firstDate_cons, if_neg (by simp [hf])]
    case terms => rw [tagged_cons_of_ne _ htags.2]; exact h.terms
  · rw [if_neg hf] at h
    constructor
    case options => intro key; rw [h.options, firstOption_cons, if_neg htags.1]
    case dateText => rw [h.dateText, firstDate_cons, if_neg (by simp [hf])]
    case dateNumeric =>
      rw [h.dateNumeric, firstDate_cons, if_pos (by simp [ht, hf]), Option.or_assoc]
      rfl
    case terms => rw [tagged_cons_of_ne _ htags.2]; exact h.terms

theorem cons_terms {newer : List Term} (ht : e.tag = "terms")
    (hr : readTerms e.elements = .ok newer) (h : MergedFrom (d.addTerms newer) rest d') :
    MergedFrom d (e :: rest) d' where
  options key := by rw [h.options, firstOption_cons, if_neg (by simp [ht])]; rfl
  dateText := by rw [h.dateText, firstDate_cons, if_neg (by simp [ht])]; rfl
  dateNumeric := by rw [h.dateNumeric, firstDate_cons, if_neg (by simp [ht])]; rfl
  terms := by
    obtain ⟨blocks, hb, hlaid⟩ := h.terms
    refine ⟨newer :: blocks, ?_, by rw [hlaid, layTerms_cons]; rfl⟩
    rw [tagged_cons, if_pos ht]
    exact .cons hr hb

theorem cons_info (ht : e.tag = "info") (h : MergedFrom d rest d') :
    MergedFrom d (e :: rest) d' where
  options key := by rw [h.options, firstOption_cons, if_neg (by simp [ht])]
  dateText := by rw [h.dateText, firstDate_cons, if_neg (by simp [ht])]
  dateNumeric := by rw [h.dateNumeric, firstDate_cons, if_neg (by simp [ht])]
  terms := by
    rw [tagged_cons_of_ne _ (by simp [ht])]
    exact h.terms

end LocaleData.MergedFrom

/-- **Merging keeps the first options and dates and the newest terms.** -/
theorem mergeAll_mergedFrom {d d' : LocaleData} {es : List Element}
    (h : d.mergeAll es = (d', none)) : d.MergedFrom es d' := by
  induction es generalizing d with
  | nil =>
    obtain rfl : d = d' := (Prod.mk.inj h).1
    exact ⟨fun key => (Option.or_none).symm, (Option.or_none).symm, (Option.or_none).symm,
      [], .nil, rfl⟩
  | cons e rest ih =>
    obtain ⟨b, hb, hr⟩ := LocaleData.mergeAll_cons_eq_iff.mp h
    cases hb with
    | options ht => exact (ih hr).cons_options ht
    | date ht => exact (ih hr).cons_date ht
    | terms ht hterms => exact (ih hr).cons_terms ht hterms
    | info ht => exact (ih hr).cons_info ht

end CiteStyle
