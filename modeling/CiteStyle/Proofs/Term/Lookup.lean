import CiteStyle.Term
import Mathlib.Data.List.Basic

/-! # Looking up terms

A term is searched form by form, and in each form with two filters and a preference that gives way
when it leaves nothing. `Searches` is the search as it goes on step by step; it ends for every form.
What it finds is the one term that comes before all others (`findTerm?_best`): forms count first,
then the gender form, then the place in the list. -/

namespace CiteStyle

/-- What a term is looked up by. A number other than the two that terms have is `none`. -/
structure TermQuery where
  name : String
  form : String
  number : Option Plurality
  genderForm : Option String
  deriving DecidableEq, Repr

namespace TermQuery

/-- A term of the name asked for that does for the number asked for. -/
structure Fits (q : TermQuery) (t : Term) : Prop where
  name : t.name = q.name
  number : t.number = none ∨ t.number = q.number

/-- A term that may be found: it fits, and its form is among those that are tried. -/
structure Answers (q : TermQuery) (t : Term) : Prop extends q.Fits t where
  form : t.form ∈ formChain q.form

/-- The term `t` at the place `i` of a list comes before the term `u` at the place `j`. -/
inductive Outranks (q : TermQuery) (t : Term) (i : Nat) (u : Term) (j : Nat) : Prop
  | earlierForm (h : (formChain q.form).idxOf t.form < (formChain q.form).idxOf u.form)
  | genderForm (hf : t.form = u.form) (ht : t.genderForm = q.genderForm)
      (hu : u.genderForm ≠ q.genderForm)
  | later (hf : t.form = u.form) (hg : t.genderForm = q.genderForm ↔ u.genderForm = q.genderForm)
      (hp : j < i)

/-- The term that comes before all others that may be found. -/
def IsBest (q : TermQuery) (terms : List Term) (t : Term) : Prop :=
  ∃ i, terms[i]? = some t ∧ q.Answers t ∧
    ∀ j u, terms[j]? = some u → q.Answers u → j ≠ i → q.Outranks t i u j

/-- The search from a form on: the best term of the form ends it, and without one it goes on with
the form after it. -/
inductive Searches (q : TermQuery) (terms : List Term) : String → Option Term → Prop
  | found {form : String} {t : Term}
      (h : findForm? terms q.name form q.number q.genderForm = some t) :
      Searches q terms form (some t)
  | fallsBack {form next : String} {result : Option Term}
      (h : findForm? terms q.name form q.number q.genderForm = none)
      (hf : fallbackForm? form = some next) (hr : Searches q terms next result) :
      Searches q terms form result
  | inVain {form : String} (h : findForm? terms q.name form q.number q.genderForm = none)
      (hf : fallbackForm? form = none) : Searches q terms form none

end TermQuery

/-! ## The forms that are tried -/

theorem formChain_of_last {form : String} (h : fallbackForm? form = none) :
    formChain form = [form] := by
  simp [formChain, h]

theorem formChain_of_fallback {form next : String} (h : fallbackForm? form = some next) :
    formChain form = form :: formChain next := by
  have hthird := fallbackForm?_thrice form
  rw [h, Option.bind_some] at hthird
  simp [formChain, h, hthird]

theorem formChain_eq_self {form : String}
    (h : form ∉ ["verb-short", "symbol", "short", "verb"]) : formChain form = [form] := by
  simp only [List.mem_cons, List.not_mem_nil, or_false, not_or] at h
  exact formChain_of_last (by simp [fallbackForm?, h])

theorem TermQuery.searches_iff {q : TermQuery} {terms : List Term} {form : String}
    {result : Option Term} : q.Searches terms form result ↔
      (formChain form).findSome? (findForm? terms q.name · q.number q.genderForm) = result := by
  constructor
  · intro h
    induction h with
    | found h =>
      rw [formChain, List.findSome?_cons, h]
    | fallsBack h hf _ ih =>
      rw [formChain_of_fallback hf, List.findSome?_cons, h]
      exact ih
    | inVain h hf =>
      rw [formChain_of_last hf, List.findSome?_cons, h]
      rfl
  · rintro rfl
    -- each step leaves a shorter chain
    generalize hc : formChain form = chain
    induction chain generalizing form with
    | nil => cases hc
    | cons f rest ih =>
      obtain ⟨rfl, -⟩ := List.cons.inj hc
      rw [List.findSome?_cons]
      cases hr : findForm? terms q.name form q.number q.genderForm with
      | some t => exact .found hr
      | none =>
        cases hf : fallbackForm? form with
        | none =>
          rw [formChain_of_last hf] at hc
          obtain ⟨-, rfl⟩ := List.cons.inj hc
          exact .inVain hr hf
        | some next =>
          rw [formChain_of_fallback hf] at hc
          exact .fallsBack hr hf (ih (List.cons.inj hc).2)

/-! ## One form -/

/-- The last member of a list that passes a test, with its place. -/
theorem exists_of_getLast?_filter {α : Type} {p : α → Bool} {l : List α} {a : α}
    (h : (l.filter p).getLast? = some a) :
    ∃ i : Nat, l[i]? = some a ∧ p a = true ∧
      ∀ (j : Nat) (b : α), l[j]? = some b → p b = true → j ≠ i → j < i := by
  induction l with
  | nil => cases h
  | cons x rest ih =>
    cases hr : (rest.filter p).getLast? with
    | some b =>
      have hlast : ((x :: rest).filter p).getLast? = some b := by
        rw [List.filter_cons]
        split
        · rw [List.getLast?_cons, hr, Option.getD_some]
        · exact hr
      obtain rfl : b = a := Option.some.inj (hlast.symm.trans h)
      obtain ⟨i, hi, hp, hlater⟩ := ih hr
      refine ⟨i + 1, by simpa using hi, hp, ?_⟩
      intro j c hj hc hne
      cases j with
      | zero => omega
      | succ j =>
        have := hlater j c (by simpa using hj) hc (by omega)
        omega
    | none =>
      have hnil : rest.filter p = [] := List.getLast?_eq_none_iff.mp hr
      rw [List.filter_cons, hnil] at h
      split at h
      · next hx =>
        obtain rfl : x = a := by simpa using h
        refine ⟨0, rfl, hx, ?_⟩
        intro j c hj hc hne
        cases j with
        | zero => exact absurd rfl hne
        | succ j =>
          have hmem : c ∈ rest := List.mem_of_getElem? (by simpa using hj)
          exact absurd hc (List.filter_eq_nil_iff.mp hnil c hmem)
      · cases h

namespace TermQuery

variable {q : TermQuery} {terms : List Term} {form : String} {t : Term}

/-- The terms of one form among which the best is chosen. -/
def candidates (q : TermQuery) (form : String) (terms : List Term) : List Term :=
  terms.filter fun t =>
    t.name = q.name && t.form = form && (t.number.isNone || t.number = q.number)

theorem isCandidate_iff : (decide (t.name = q.name) && decide (t.form = form) &&
    (t.number.isNone || decide (t.number = q.number))) = true ↔ q.Fits t ∧ t.form = form := by
  simp only [Bool.and_eq_true, decide_eq_true_eq, Bool.or_eq_true, Option.isNone_iff_eq_none]
  constructor
  · rintro ⟨⟨hn, hf⟩, hnum⟩
    exact ⟨⟨hn, hnum⟩, hf⟩
  · rintro ⟨⟨hn, hnum⟩, hf⟩
    exact ⟨⟨hn, hf⟩, hnum⟩

theorem mem_candidates : t ∈ q.candidates form terms ↔ t ∈ terms ∧ q.Fits t ∧ t.form = form := by
  rw [candidates, List.mem_filter, isCandidate_iff]

theorem findForm?_eq (q : TermQuery) (form : String) (terms : List Term) :
    findForm? terms q.name form q.number q.genderForm =
      ((q.candidates form terms).filter fun t => t.genderForm = q.genderForm).getLast?.or
        (q.candidates form terms).getLast? := rfl

theorem findForm?_eq_none_iff :
    findForm? terms q.name form q.number q.genderForm = none ↔
      ∀ t ∈ terms, q.Fits t → t.form ≠ form := by
  rw [findForm?_eq, Option.or_eq_none_iff, List.getLast?_eq_none_iff, List.getLast?_eq_none_iff]
  constructor
  · rintro ⟨-, hnil⟩ t ht hfits hform
    exact List.not_mem_nil (hnil ▸ mem_candidates.mpr ⟨ht, hfits, hform⟩)
  · intro h
    have hnil : q.candidates form terms = [] := by
      refine List.eq_nil_iff_forall_not_mem.mpr fun t ht => ?_
      obtain ⟨hmem, hfits, hform⟩ := mem_candidates.mp ht
      exact h t hmem hfits hform
    exact ⟨by rw [hnil]; rfl, hnil⟩

/-- The term that is chosen in a form comes before all others of the form. -/
theorem outranks_of_findForm? (h : findForm? terms q.name form q.number q.genderForm = some t) :
    ∃ i, terms[i]? = some t ∧ q.Fits t ∧ t.form = form ∧
      ∀ j u, terms[j]? = some u → q.Fits u → u.form = form → j ≠ i → q.Outranks t i u j := by
  rw [findForm?_eq] at h
  cases hp : ((q.candidates form terms).filter fun t => t.genderForm = q.genderForm).getLast? with
  | some b =>
    rw [hp, Option.some_or] at h
    obtain rfl := Option.some.inj h
    rw [candidates, List.filter_filter] at hp
    obtain ⟨i, hi, hb, hlast⟩ := exists_of_getLast?_filter hp
    rw [Bool.and_eq_true, isCandidate_iff, decide_eq_true_eq] at hb
    obtain ⟨hgender, hfits, hform⟩ := hb
    refine ⟨i, hi, hfits, hform, ?_⟩
    intro j u hj hu hsame hne
    by_cases hg : u.genderForm = q.genderForm
    · refine .later (hform.trans hsame.symm) (iff_of_true hgender hg) (hlast j u hj ?_ hne)
      rw [Bool.and_eq_true, isCandidate_iff, decide_eq_true_eq]
      exact ⟨hg, hu, hsame⟩
    · exact .genderForm (hform.trans hsame.symm) hgender hg
  | none =>
    rw [hp, Option.none_or] at h
    -- no candidate has the gender form asked for, so all of them are alike in it
    have hother {u : Term} (hu : u ∈ q.candidates form terms) : u.genderForm ≠ q.genderForm := by
      have := List.filter_eq_nil_iff.mp (List.getLast?_eq_none_iff.mp hp) u hu
      simpa using this
    obtain ⟨i, hi, ht, hlast⟩ := exists_of_getLast?_filter h
    obtain ⟨hfits, hform⟩ := isCandidate_iff.mp ht
    refine ⟨i, hi, hfits, hform, ?_⟩
    intro j u hj hu hsame hne
    have hmem {i : Nat} {v : Term} (hv : terms[i]? = some v) (hf : q.Fits v)
        (hform : v.form = form) : v ∈ q.candidates form terms :=
      mem_candidates.mpr ⟨List.mem_of_getElem? hv, hf, hform⟩
    refine .later (hform.trans hsame.symm) ?_ (hlast j u hj (isCandidate_iff.mpr ⟨hu, hsame⟩) hne)
    exact iff_of_false (hother (hmem hi hfits hform)) (hother (hmem hj hu hsame))

/-! ## All forms -/

theorem Outranks.asymm {i j : Nat} {u : Term} (h : q.Outranks t i u j) : ¬ q.Outranks u j t i := by
  intro h'
  cases h with
  | earlierForm h =>
    cases h' with
    | earlierForm h' => omega
    | genderForm hf => rw [hf] at h; omega
    | later hf => rw [hf] at h; omega
  | genderForm hf ht hu =>
    cases h' with
    | earlierForm h' => rw [hf] at h'; omega
    | genderForm _ hu' => exact hu hu'
    | later _ hg => exact hu (hg.mpr ht)
  | later hf hg hp =>
    cases h' with
    | earlierForm h' => rw [hf] at h'; omega
    | genderForm _ hu ht => exact ht (hg.mpr hu)
    | later _ _ hp' => omega

theorem IsBest.unique {u : Term} (ht : q.IsBest terms t) (hu : q.IsBest terms u) : t = u := by
  obtain ⟨i, hi, hit, hbest⟩ := ht
  obtain ⟨j, hj, hju, hbest'⟩ := hu
  by_cases hne : j = i
  · subst hne
    exact Option.some.inj (hi.symm.trans hj)
  · exact absurd (hbest' i t hi hit (Ne.symm hne)) (hbest j u hj hju hne).asymm

theorem findTerm?_eq_none_iff :
    findTerm? terms q.name q.form q.number q.genderForm = none ↔ ∀ t ∈ terms, ¬ q.Answers t := by
  rw [findTerm?, List.findSome?_eq_none_iff]
  simp only [findForm?_eq_none_iff]
  constructor
  · rintro h t ht ⟨hfits, hform⟩
    exact h t.form hform t ht hfits rfl
  · rintro h form hform t ht hfits rfl
    exact h t ht ⟨hfits, hform⟩

theorem isBest_of_findTerm? (h : findTerm? terms q.name q.form q.number q.genderForm = some t) :
    q.IsBest terms t := by
  rw [findTerm?, List.findSome?_eq_some_iff] at h
  obtain ⟨before, form, after, hchain, hfound, hnone⟩ := h
  obtain ⟨i, hi, hfits, rfl, hbest⟩ := outranks_of_findForm? hfound
  refine ⟨i, hi, ⟨hfits, by simp [hchain]⟩, ?_⟩
  rintro j u hj ⟨hu, hform⟩ hne
  by_cases hsame : u.form = t.form
  · exact hbest j u hj hu hsame hne
  -- a form in which nothing was found comes before none that has an answer
  have hmissed {v : Term} {k : Nat} (hk : terms[k]? = some v) (hv : q.Fits v) :
      v.form ∉ before := by
    intro hmem
    exact findForm?_eq_none_iff.mp (hnone v.form hmem) v (List.mem_of_getElem? hk) hv rfl
  refine .earlierForm ?_
  rw [hchain, List.idxOf_append_of_notMem (hmissed hi hfits),
    List.idxOf_append_of_notMem (hmissed hj hu), List.idxOf_cons_self,
    List.idxOf_cons_ne _ (Ne.symm hsame)]
  omega

theorem findTerm?_eq_some_iff :
    findTerm? terms q.name q.form q.number q.genderForm = some t ↔ q.IsBest terms t := by
  refine ⟨isBest_of_findTerm?, fun h => ?_⟩
  cases hf : findTerm? terms q.name q.form q.number q.genderForm with
  | some u => rw [(isBest_of_findTerm? hf).unique h]
  | none =>
    obtain ⟨i, hi, ht, -⟩ := h
    exact absurd ht (findTerm?_eq_none_iff.mp hf t (List.mem_of_getElem? hi))

end TermQuery

/-- **A lookup finds the best term.** Nothing is found if no term has the name, a form that is tried
and a number that does. Otherwise the term is found that comes before all others of these: by the
earliest form, then by the gender form asked for, then by the latest place. Going from form to form
ends with it whatever the form is. -/
theorem findTerm?_best (q : TermQuery) (terms : List Term) :
    (findTerm? terms q.name q.form q.number q.genderForm = none ↔ ∀ t ∈ terms, ¬ q.Answers t) ∧
    (∀ t, findTerm? terms q.name q.form q.number q.genderForm = some t ↔ q.IsBest terms t) ∧
    (∀ result, q.Searches terms q.form result ↔
      findTerm? terms q.name q.form q.number q.genderForm = result) ∧
    formChain "verb-short" = ["verb-short", "verb", "long"] ∧
    formChain "symbol" = ["symbol", "short", "long"] ∧
    formChain "short" = ["short", "long"] ∧ formChain "verb" = ["verb", "long"] ∧
    ∀ form, form ∉ ["verb-short", "symbol", "short", "verb"] → formChain form = [form] := by
  refine ⟨TermQuery.findTerm?_eq_none_iff, fun t => TermQuery.findTerm?_eq_some_iff,
    fun result => TermQuery.searches_iff, ?_, ?_, ?_, ?_, fun form h => formChain_eq_self h⟩
  all_goals decide +kernel

end CiteStyle
