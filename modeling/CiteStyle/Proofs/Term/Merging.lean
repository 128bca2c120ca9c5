import CiteStyle.Proofs.Term.Lookup

/-! # Terms laid over each other

A newer list takes the place of the older terms that have one of its keys. The keys of the outcome
are those of both lists, whatever was replaced, so laying lists over each other is associative and
repeating it changes nothing. A key says nothing of numbers, and a look-up nothing of what terms
match; `findTerm?_mergeTerms` says what looking up terms keeps all the same. -/

namespace CiteStyle

variable {newer older : List Term} {t : Term}

theorem contains_key_iff {key : String × String × Option String × Option String}
    {terms : List Term} :
    (terms.map Term.key).contains key = true ↔ ∃ u ∈ terms, u.key = key := by
  rw [List.contains_iff_mem, List.mem_map]

theorem mem_mergeTerms :
    t ∈ mergeTerms newer older ↔ t ∈ newer ∨ t ∈ older ∧ ∀ u ∈ newer, u.key ≠ t.key := by
  have hkept : (!(newer.map Term.key).contains t.key) = true ↔ ∀ u ∈ newer, u.key ≠ t.key := by
    rw [Bool.not_eq_true', ← Bool.not_eq_true, contains_key_iff]
    simp only [not_exists, not_and, ne_eq]
  rw [mergeTerms, List.mem_append, List.mem_filter, hkept, or_comm]

/-! ## The laws of laying over -/

@[simp] theorem mergeTerms_nil_left (terms : List Term) : mergeTerms [] terms = terms := by
  simp [mergeTerms]

@[simp] theorem mergeTerms_nil_right (terms : List Term) : mergeTerms terms [] = terms := by
  simp [mergeTerms]

/-- The keys of both lists are there, whatever was replaced. -/
theorem contains_key_mergeTerms (newer older : List Term)
    (key : String × String × Option String × Option String) :
    ((mergeTerms newer older).map Term.key).contains key =
      ((newer.map Term.key).contains key || (older.map Term.key).contains key) := by
  rw [Bool.eq_iff_iff, Bool.or_eq_true, contains_key_iff, contains_key_iff, contains_key_iff]
  constructor
  · rintro ⟨u, hu, rfl⟩
    rcases mem_mergeTerms.mp hu with hu | ⟨hu, -⟩
    · exact .inl ⟨u, hu, rfl⟩
    · exact .inr ⟨u, hu, rfl⟩
  · rintro (⟨u, hu, rfl⟩ | ⟨u, hu, rfl⟩)
    · exact ⟨u, mem_mergeTerms.mpr (.inl hu), rfl⟩
    · by_cases hn : ∃ v ∈ newer, v.key = u.key
      · obtain ⟨v, hv, hkey⟩ := hn
        exact ⟨v, mem_mergeTerms.mpr (.inl hv), hkey⟩
      · exact ⟨u, mem_mergeTerms.mpr (.inr ⟨hu, fun v hv hkey => hn ⟨v, hv, hkey⟩⟩), rfl⟩

theorem mergeTerms_assoc (a b c : List Term) :
    mergeTerms a (mergeTerms b c) = mergeTerms (mergeTerms a b) c := by
  have hkeys : c.filter (fun t => !((mergeTerms a b).map Term.key).contains t.key) =
      (c.filter fun t => !(b.map Term.key).contains t.key).filter
        fun t => !(a.map Term.key).contains t.key := by
    rw [List.filter_filter]
    refine List.filter_congr fun t _ => ?_
    rw [contains_key_mergeTerms, Bool.not_or]
  rw [mergeTerms, mergeTerms, List.filter_append, mergeTerms, hkeys, mergeTerms, List.append_assoc]

/-- Terms that are all redefined leave nothing. -/
theorem mergeTerms_of_forall (h : ∀ t ∈ older, ∃ u ∈ newer, u.key = t.key) :
    mergeTerms newer older = newer := by
  have hnil : older.filter (fun t => !(newer.map Term.key).contains t.key) = [] := by
    refine List.filter_eq_nil_iff.mpr fun t ht => ?_
    rw [contains_key_iff.mpr (h t ht)]
    exact Bool.false_ne_true
  rw [mergeTerms, hnil, List.nil_append]

theorem mergeTerms_self (terms : List Term) : mergeTerms terms terms = terms :=
  mergeTerms_of_forall fun t ht => ⟨t, ht, rfl⟩

theorem mergeTerms_again (newer older : List Term) :
    mergeTerms newer (mergeTerms newer older) = mergeTerms newer older := by
  rw [mergeTerms_assoc, mergeTerms_self]

/-! ## Looking up terms that were laid over others -/

/-- Every key of some terms is there without number or in each number. -/
def CoversNumbers (terms : List Term) : Prop :=
  ∀ t ∈ terms, (∃ u ∈ terms, u.key = t.key ∧ u.number = none) ∨
    ∀ p : Plurality, ∃ u ∈ terms, u.key = t.key ∧ u.number = some p

namespace TermQuery

variable {q : TermQuery} {u : Term} {i j : Nat}

/-- Which of two terms comes before the other does not depend on what stands before both. -/
theorem Outranks.shift (n : Nat) (h : q.Outranks t i u j) : q.Outranks t (n + i) u (n + j) := by
  cases h with
  | earlierForm h => exact .earlierForm h
  | genderForm hf ht hu => exact .genderForm hf ht hu
  | later hf hg hp => exact .later hf hg (by omega)

/-- A term of just the form and the gender form asked for comes before all that stand before it. -/
theorem outranks_of_exact (hform : t.form = q.form) (hgender : t.genderForm = q.genderForm)
    (hp : j < i) : q.Outranks t i u j := by
  by_cases hf : u.form = q.form
  · by_cases hg : u.genderForm = q.genderForm
    · exact .later (hform.trans hf.symm) (iff_of_true hgender hg) hp
    · exact .genderForm (hform.trans hf.symm) hgender hg
  · refine .earlierForm ?_
    rw [formChain, hform, List.idxOf_cons_self, List.idxOf_cons_ne _ (Ne.symm hf)]
    omega

/-- A best term of just the form and the gender form asked for stays the best one. -/
theorem IsBest.mergeTerms (hform : t.form = q.form) (hgender : t.genderForm = q.genderForm)
    (h : q.IsBest newer t) (older : List Term) : q.IsBest (mergeTerms newer older) t := by
  obtain ⟨i, hi, ht, hbest⟩ := h
  rw [CiteStyle.mergeTerms]
  set kept := older.filter fun t => !(newer.map Term.key).contains t.key
  refine ⟨kept.length + i, ?_, ht, ?_⟩
  · rw [List.getElem?_append_right (Nat.le_add_right ..), Nat.add_sub_cancel_left]
    exact hi
  · intro j u hj hu hne
    by_cases hold : j < kept.length
    · exact outranks_of_exact hform hgender (by omega)
    · obtain ⟨k, rfl⟩ := Nat.exists_eq_add_of_le (Nat.le_of_not_lt hold)
      rw [List.getElem?_append_right (Nat.le_add_right ..), Nat.add_sub_cancel_left] at hj
      exact (hbest k u hj hu (by omega)).shift kept.length

/-- Terms of another name add no candidates and take none away. -/
theorem candidates_mergeTerms (h : ∀ t ∈ newer, t.name ≠ q.name) (form : String)
    (older : List Term) :
    q.candidates form (CiteStyle.mergeTerms newer older) = q.candidates form older := by
  have hnew : q.candidates form newer = [] := by
    refine List.eq_nil_iff_forall_not_mem.mpr fun t ht => ?_
    obtain ⟨hmem, hfits, -⟩ := mem_candidates.mp ht
    exact h t hmem hfits.name
  rw [CiteStyle.mergeTerms, candidates, List.filter_append, ← candidates, ← candidates, hnew,
    List.append_nil, candidates, List.filter_filter, candidates]
  refine List.filter_congr fun t _ => ?_
  by_cases hname : t.name = q.name
  · have hkept : (newer.map Term.key).contains t.key = false := by
      rw [← Bool.not_eq_true, contains_key_iff]
      rintro ⟨u, hu, hkey⟩
      exact h u hu ((congrArg Prod.fst hkey).trans hname)
    rw [hkept, Bool.not_false, Bool.and_true]
  · simp [hname]

theorem Answers.of_key (hkey : u.key = t.key) (hnumber : u.number = none ∨ u.number = q.number)
    (h : q.Answers t) : q.Answers u := by
  have hname : u.name = t.name := congrArg Prod.fst hkey
  have hform : u.form = t.form := congrArg (·.2.1) hkey
  exact ⟨⟨hname.trans h.name, hnumber⟩, hform ▸ h.form⟩

/-- What can be found stays so if all that is redefined is redefined for every number. -/
theorem exists_answer_mergeTerms {p : Plurality} (hq : q.number = some p)
    (hcovers : CoversNumbers newer) (ht : t ∈ older) (h : q.Answers t) :
    ∃ u ∈ CiteStyle.mergeTerms newer older, q.Answers u := by
  by_cases hnew : ∃ v ∈ newer, v.key = t.key
  · obtain ⟨v, hv, hkey⟩ := hnew
    rcases hcovers v hv with ⟨u, hu, hsame, hnumber⟩ | hall
    · exact ⟨u, mem_mergeTerms.mpr (.inl hu), h.of_key (hsame.trans hkey) (.inl hnumber)⟩
    · obtain ⟨u, hu, hsame, hnumber⟩ := hall p
      exact ⟨u, mem_mergeTerms.mpr (.inl hu),
        h.of_key (hsame.trans hkey) (.inr (hnumber.trans hq.symm))⟩
  · exact ⟨t, mem_mergeTerms.mpr (.inr ⟨ht, fun v hv hkey => hnew ⟨v, hv, hkey⟩⟩), h⟩

end TermQuery

/-- **Laying terms over others keeps what is looked up.** A term of the newer list that is found in
just the form and the gender form asked for is found again; a name that the newer list lacks is
looked up in the older list as before; and where the newer list has each of its keys for all
numbers, whatever was found in the older list, something is found. -/
theorem findTerm?_mergeTerms (newer older : List Term) (name form : String) (number : Plurality)
    (genderForm : Option String) :
    (∀ t, findTerm? newer name form number genderForm = some t → t.form = form →
      t.genderForm = genderForm →
      findTerm? (mergeTerms newer older) name form number genderForm = some t) ∧
    ((∀ t ∈ newer, t.name ≠ name) →
      findTerm? (mergeTerms newer older) name form number genderForm =
        findTerm? older name form number genderForm) ∧
    (CoversNumbers newer → findTerm? older name form number genderForm ≠ none →
      findTerm? (mergeTerms newer older) name form number genderForm ≠ none) := by
  let q : TermQuery := ⟨name, form, number, genderForm⟩
  refine ⟨?_, ?_, ?_⟩
  · intro t ht hform hgender
    exact TermQuery.findTerm?_eq_some_iff.mpr
      (TermQuery.IsBest.mergeTerms hform hgender (TermQuery.findTerm?_eq_some_iff (q := q).mp ht)
        older)
  · intro hname
    unfold findTerm?
    congr 1
    funext f
    rw [TermQuery.findForm?_eq q, TermQuery.findForm?_eq q, q.candidates_mergeTerms hname]
  · intro hcovers hfound hnone
    refine hfound (TermQuery.findTerm?_eq_none_iff (q := q).mpr fun t ht hans => ?_)
    obtain ⟨u, hu, hans'⟩ := TermQuery.exists_answer_mergeTerms rfl hcovers ht hans
    exact TermQuery.findTerm?_eq_none_iff (q := q).mp hnone u hu hans'

def severalEditors : Term :=
  { name := "editor", value := "Hgg.", form := "short", number := some .multiple }

def newEditors : List Term :=
  [{ name := "editor", value := "Hg.", form := "short", number := some .single }, severalEditors]

def oldEditors : List Term := [
  { name := "editor", value := "ed.", form := "short", number := some .single },
  { name := "editor", value := "editors", number := some .multiple },
  { name := "and", value := "and" }]

theorem newEditors_found :
    (findTerm? newEditors "editor" "short" (some .multiple) none = some severalEditors ∧
      findTerm? (mergeTerms newEditors oldEditors) "editor" "short" (some .multiple) none =
        some severalEditors) ∧
    ((∀ t ∈ newEditors, t.name ≠ "and") ∧
      findTerm? (mergeTerms newEditors oldEditors) "and" "symbol" (some .single) none =
        findTerm? oldEditors "and" "symbol" (some .single) none) ∧
    (CoversNumbers newEditors ∧
      findTerm? oldEditors "editor" "symbol" (some .single) (some "feminine") ≠ none ∧
      findTerm? (mergeTerms newEditors oldEditors) "editor" "symbol" (some .single)
        (some "feminine") ≠ none) := by
  have hfound : findTerm? newEditors "editor" "short" (some .multiple) none =
      some severalEditors := by
    decide +kernel
  have hname : ∀ t ∈ newEditors, t.name ≠ "and" := by decide +kernel
  have hcovers : CoversNumbers newEditors := by
    intro t ht
    refine .inr fun p => ?_
    cases p with
    | single => exact ⟨newEditors.head (by decide), by decide, by revert t; decide +kernel, rfl⟩
    | multiple => exact ⟨severalEditors, by decide, by revert t; decide +kernel, rfl⟩
  have hold : findTerm? oldEditors "editor" "symbol" (some .single) (some "feminine") ≠ none := by
    decide +kernel
  exact ⟨⟨hfound, (findTerm?_mergeTerms newEditors oldEditors "editor" "short" .multiple none).1 _
      hfound rfl rfl⟩,
    ⟨hname, (findTerm?_mergeTerms newEditors oldEditors "and" "symbol" .single none).2.1 hname⟩,
    hcovers, hold, (findTerm?_mergeTerms newEditors oldEditors "editor" "symbol" .single
      (some "feminine")).2.2 hcovers hold⟩

end CiteStyle
