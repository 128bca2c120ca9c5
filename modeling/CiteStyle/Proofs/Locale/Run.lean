import CiteStyle.Proofs.Locale.Merge

/-! # Runs of merging

A run merges one `locale` element after another into the same data. Each of them may stop at a child
that breaks a rule, and the run goes on with what was merged until then. What the data are at any
time depends on the children that were merged alone (`merging_closedForm`): options and dates are
the first that came, and a term stays as long as no later block has one of its key. -/

namespace CiteStyle

namespace LocaleData

/-- The children that are merged: those before the first that breaks a rule. -/
def processed (d : LocaleData) : List Element → List Element
  | [] => []
  | e :: rest =>
    match d.mergeChild e with
    | .error _ => []
    | .ok d' => e :: d'.processed rest

/-- The data after `locale` elements were merged in order, whatever became of each. -/
def mergeRun (d : LocaleData) : List Element → LocaleData
  | [] => d
  | locale :: rest => (d.merge locale).1.mergeRun rest

def processedRun (d : LocaleData) : List Element → List Element
  | [] => []
  | locale :: rest => d.processed locale.elements ++ (d.merge locale).1.processedRun rest

variable {d d' : LocaleData}

/-! ## One step -/

/-- How merging children ends: all of them are merged, or one breaks a rule and the data are those
that the children before it left. -/
inductive Ends (d : LocaleData) (es : List Element) : LocaleData × Option Misplacement → Prop
  | whole {d' : LocaleData} (hp : d.processed es = es) (hm : d.mergeAll es = (d', none)) :
      Ends d es (d', none)
  | stopped {d' : LocaleData} {bad : Element} {after : List Element} {m : Misplacement}
      (hs : es = d.processed es ++ bad :: after) (hm : d.mergeAll (d.processed es) = (d', none))
      (hb : d'.mergeChild bad = .error m) : Ends d es (d', some m)

theorem mergeAll_ends (d : LocaleData) (es : List Element) : d.Ends es (d.mergeAll es) := by
  induction es generalizing d with
  | nil => exact .whole rfl rfl
  | cons e rest ih =>
    cases he : d.mergeChild e with
    | error m =>
      have hp : d.processed (e :: rest) = [] := by simp [processed, he]
      have hm : d.mergeAll (e :: rest) = (d, some m) := by simp [mergeAll, he]
      have hs : e :: rest = d.processed (e :: rest) ++ e :: rest := by rw [hp]; rfl
      rw [hm]
      exact .stopped hs (by rw [hp]; rfl) he
    | ok b =>
      have hp : d.processed (e :: rest) = e :: b.processed rest := by simp [processed, he]
      have hcons (es : List Element) : d.mergeAll (e :: es) = b.mergeAll es := by
        simp [mergeAll, he]
      rw [hcons]
      generalize hr : b.mergeAll rest = r
      have hi := ih b
      rw [hr] at hi
      cases hi with
      | whole hrest hm => exact .whole (by rw [hp, hrest]) ((hcons rest).trans hm)
      | stopped hs hm hb =>
        refine .stopped (by rw [hp, List.cons_append, ← hs]) ?_ hb
        rw [hp, hcons, hm]

/-- The children that are merged leave the same data when they stand alone, and then none of them
breaks a rule. -/
theorem mergeAll_processed (d : LocaleData) (es : List Element) :
    d.mergeAll (d.processed es) = ((d.mergeAll es).1, none) := by
  have h := d.mergeAll_ends es
  generalize d.mergeAll es = r at h
  cases h with
  | whole hp hm => rw [hp, hm]
  | stopped _ hm _ => exact hm

/-! ## Whole runs -/

theorem mergeAll_append {xs : List Element} (ys : List Element) (h : d.mergeAll xs = (d', none)) :
    d.mergeAll (xs ++ ys) = d'.mergeAll ys := by
  induction xs generalizing d with
  | nil =>
    obtain rfl : d = d' := (Prod.mk.inj h).1
    rfl
  | cons e rest ih =>
    rw [mergeAll] at h
    rw [List.cons_append, mergeAll]
    cases he : d.mergeChild e with
    | error m => rw [he] at h; cases h
    | ok b => rw [he] at h; exact ih h

/-- A run leaves the data that its merged children leave when they are merged at once. -/
theorem mergeAll_processedRun (d : LocaleData) (locales : List Element) :
    d.mergeAll (d.processedRun locales) = (d.mergeRun locales, none) := by
  induction locales generalizing d with
  | nil => rfl
  | cons locale rest ih =>
    rw [processedRun, mergeAll_append _ (d.mergeAll_processed locale.elements)]
    exact ih _

theorem mergeRun_append (d : LocaleData) (before after : List Element) :
    d.mergeRun (before ++ after) = (d.mergeRun before).mergeRun after := by
  induction before generalizing d with
  | nil => rfl
  | cons locale rest ih => exact ih _

theorem mergeRun_mergedFrom (d : LocaleData) (locales : List Element) :
    d.MergedFrom (d.processedRun locales) (d.mergeRun locales) :=
  mergeAll_mergedFrom (d.mergeAll_processedRun locales)

end LocaleData

/-! ## The terms that stay -/

/-- The terms of some blocks that stay: of each block, those whose key is in no later block. -/
def remainingTerms : List (List Term) → List Term
  | [] => []
  | block :: later =>
    block.filter (fun t => !(later.flatten.map Term.key).contains t.key) ++ remainingTerms later

/-- Blocks laid over older terms leave those older terms whose key is in none of the blocks. -/
theorem layTerms_some (older : List Term) (blocks : List (List Term)) :
    layTerms (some older) blocks =
      some (older.filter (fun t => !(blocks.flatten.map Term.key).contains t.key) ++
        remainingTerms blocks) := by
  induction blocks generalizing older with
  | nil => simp [layTerms, remainingTerms]
  | cons newer later ih =>
    have hstep : (mergeTerms newer older).filter
          (fun t => !(later.flatten.map Term.key).contains t.key) =
        older.filter (fun t => !((newer :: later).flatten.map Term.key).contains t.key) ++
          newer.filter (fun t => !(later.flatten.map Term.key).contains t.key) := by
      rw [mergeTerms, List.filter_append, List.filter_filter]
      congr 2
      funext t
      rw [List.flatten_cons, List.map_append, List.contains_append, Bool.not_or, Bool.and_comm]
    rw [layTerms_cons, Option.getD_some, ih, hstep, List.append_assoc]
    rfl

theorem layTerms_none {blocks : List (List Term)} (h : blocks ≠ []) :
    layTerms none blocks = some (remainingTerms blocks) := by
  cases blocks with
  | nil => exact absurd rfl h
  | cons block later =>
    have hfirst : mergeTerms block [] = block := by simp [mergeTerms]
    rw [layTerms_cons, Option.getD_none, hfirst, layTerms_some]
    rfl

/-! ## The closed form -/

namespace LocaleData

/-- What data are once some children were merged, and nothing else: options and dates of the first
child that has them, and the terms that no later block has anew. -/
structure ClosedForm (es : List Element) (d : LocaleData) : Prop where
  options : ∀ key, d.options.get? key = firstOption key es
  dateText : d.dateText = (firstDate true es).map Element.dateFormat
  dateNumeric : d.dateNumeric = (firstDate false es).map Element.dateFormat
  noTerms : d.terms = none ↔ tagged "terms" es = []
  terms : ∃ blocks,
    List.Forall₂ (fun e newer => readTerms e.elements = .ok newer) (tagged "terms" es) blocks ∧
      ∀ ts, d.terms = some ts → ts = remainingTerms blocks

/-- Data in which nothing that was settled before has changed. -/
structure Keeps (before after : LocaleData) : Prop where
  options : ∀ key value, before.options.get? key = some value →
    after.options.get? key = some value
  dateText : ∀ date, before.dateText = some date → after.dateText = some date
  dateNumeric : ∀ date, before.dateNumeric = some date → after.dateNumeric = some date

theorem MergedFrom.closedForm {es : List Element} (h : ({} : LocaleData).MergedFrom es d) :
    ClosedForm es d := by
  obtain ⟨blocks, hb, ht⟩ := h.terms
  have hnone : blocks = [] ↔ tagged "terms" es = [] := by
    rw [← List.length_eq_zero_iff, ← hb.length_eq, List.length_eq_zero_iff]
  constructor
  case options => intro key; rw [h.options]; rfl
  case dateText => rw [h.dateText]; rfl
  case dateNumeric => rw [h.dateNumeric]; rfl
  case noTerms => rw [ht, layTerms_eq_none_iff, hnone, and_iff_right rfl]
  case terms =>
    refine ⟨blocks, hb, fun ts hts => ?_⟩
    have hne : blocks ≠ [] := by
      rintro rfl
      rw [ht] at hts
      cases hts
    rw [ht, layTerms_none hne] at hts
    exact (Option.some.inj hts).symm

theorem MergedFrom.keeps {es : List Element} (h : d.MergedFrom es d') : Keeps d d' where
  options key value hv := by rw [h.options, hv, Option.some_or]
  dateText date hd := by rw [h.dateText, hd, Option.some_or]
  dateNumeric date hd := by rw [h.dateNumeric, hd, Option.some_or]

end LocaleData

/-- **Runs of merging have a closed form.** After any part of a run that begins without data, the
data are made of the children merged until then, and from there on no option and no date that is
settled changes. Each step merges all children of its element, or those before one that breaks a
rule, which leaves nothing behind. -/
theorem merging_closedForm (before after : List Element) :
    ((({} : LocaleData).mergeRun before).ClosedForm (({} : LocaleData).processedRun before)) ∧
      (({} : LocaleData).mergeRun before).Keeps (({} : LocaleData).mergeRun (before ++ after)) ∧
      ∀ locale : Element, (({} : LocaleData).mergeRun before).Ends locale.elements
        ((({} : LocaleData).mergeRun before).merge locale) := by
  refine ⟨(LocaleData.mergeRun_mergedFrom {} before).closedForm, ?_, fun locale => ?_⟩
  · rw [LocaleData.mergeRun_append]
    exact (LocaleData.mergeRun_mergedFrom _ after).keeps
  · exact LocaleData.mergeAll_ends _ _

/-- A term without name takes the whole block with it, but nothing that came before. -/
example : (({} : LocaleData).mergeRun [⟨"locale", {}, [
      .element "style-options" (.ofList [("punctuation-in-quote", "true")]) [] 2,
      .element "terms" {}
        [.element "term" (.ofList [("name", "and")]) [] 3, .element "term" {} [] 4] 3], 1⟩]) =
    { options := .ofList [("punctuation-in-quote", "true")] } := by decide +kernel

end CiteStyle
