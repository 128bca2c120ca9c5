import CiteStyle.Options.Defaults

/-! # What completing options does

`Completed` relates a table to what was set before: nothing that was set is lost or replaced, all
that is to be filled in is there, and there is nothing else. It composes, so that a table to which
defaults and then what depends on them are added is completed in one step by both
(`completeCitation_completed`). What is complete stays as it is when it is completed again
(`complete_complete`). -/

namespace CiteStyle

/-- A table that was completed. What was set is kept; what is to be filled in is there, with its
value unless the key was set; there is nothing else. -/
structure Completed (set : Table String) (fills : String → String → Prop)
    (options : Table String) : Prop where
  kept : ∀ {key value}, set.get? key = some value → options.get? key = some value
  filled : ∀ {key value}, fills key value → options.get? key = some ((set.get? key).getD value)
  nothingElse : ∀ {key}, options.contains key = true →
    set.contains key = true ∨ ∃ value, fills key value

theorem Table.addMissing_eq_self {t : Table String} {entries : List (String × String)}
    (h : ∀ e ∈ entries, t.contains e.1 = true) : t.addMissing entries = t := by
  induction entries with
  | nil => rfl
  | cons e rest ih =>
    obtain ⟨he, hrest⟩ := List.forall_mem_cons.mp h
    have hnew : t.insertNew e.1 e.2 = t := if_pos he
    have hstep : t.addMissing (e :: rest) = (t.insertNew e.1 e.2).addMissing rest := rfl
    rw [hstep, hnew, ih hrest]

namespace Completed

variable {set middle options : Table String} {fills fills' : String → String → Prop}

theorem contains_of_fills (h : Completed set fills options) {key value : String}
    (hf : fills key value) : options.contains key = true := by
  rw [Table.contains, h.filled hf, Option.isSome_some]

/-- A key that nothing fills stays as it was set. -/
theorem get?_of_not_fills (h : Completed set fills options) {key : String}
    (hn : ∀ value, ¬ fills key value) : options.get? key = set.get? key := by
  cases hs : set.get? key with
  | some value => exact h.kept hs
  | none =>
    cases ho : options.get? key with
    | none => rfl
    | some value =>
      rcases h.nothingElse (Option.isSome_iff_exists.mpr ⟨value, ho⟩) with hset | ⟨_, hf⟩
      · rw [Table.contains, hs] at hset; cases hset
      · exact absurd hf (hn _)

/-- There is nothing left to add of what was filled in. -/
theorem addMissing_eq_self (h : Completed set fills options) {entries : List (String × String)}
    (hfills : ∀ {key value}, (key, value) ∈ entries → fills key value) :
    options.addMissing entries = options :=
  Table.addMissing_eq_self fun _ he => h.contains_of_fills (hfills he)

/-- Completing twice, each time with other keys, is completing with both. -/
theorem trans (h : Completed set fills middle) (h' : Completed middle fills' options)
    (hd : ∀ {key value value'}, fills key value → ¬ fills' key value') :
    Completed set (fun key value => fills key value ∨ fills' key value) options where
  kept hs := h'.kept (h.kept hs)
  filled := by
    rintro key value (hf | hf')
    · exact h'.kept (h.filled hf)
    · rw [h'.filled hf', h.get?_of_not_fills fun _ hf => hd hf hf']
  nothingElse hc := by
    rcases h'.nothingElse hc with hm | ⟨value, hf'⟩
    · rcases h.nothingElse hm with hs | ⟨value, hf⟩
      · exact .inl hs
      · exact .inr ⟨value, .inl hf⟩
    · exact .inr ⟨value, .inr hf'⟩

end Completed

namespace OptionTables

/-- Adding what is missing completes a table. -/
theorem addMissing_completed (set : Table String) {entries : List (String × String)}
    (h : (entries.map Prod.fst).Nodup) :
    Completed set (fun key value => (key, value) ∈ entries) (set.addMissing entries) where
  kept hs := by rw [Table.get?_addMissing, hs, Option.some_or]
  filled hf := by
    rw [Table.get?_addMissing, (Table.lookup_eq_some_iff_mem h).mpr hf]
    cases set.get? _ <;> rfl
  nothingElse {key} hc := by
    rw [Table.contains, Table.get?_addMissing, Option.isSome_or, Bool.or_eq_true] at hc
    rcases hc with hs | hl
    · exact .inl hs
    · obtain ⟨value, hv⟩ := Option.isSome_iff_exists.mp hl
      exact .inr ⟨value, (Table.lookup_eq_some_iff_mem h).mp hv⟩

/-! ## Citations -/

/-- What is filled in for citations that collapse: a delimiter between groups always, and where the
layout has a delimiter, the same after a collapsed group and, for the ways that collapse year
suffixes, between those. -/
inductive CollapseFill (collapse delimiter : Option String) : String → String → Prop
  | group {way : String} (hw : collapse = some way) (hne : way ≠ "")
      (hn : way ≠ "citation-number") :
      CollapseFill collapse delimiter "cite-group-delimiter" ", "
  | afterCollapse {way d : String} (hw : collapse = some way) (hne : way ≠ "")
      (hn : way ≠ "citation-number") (hd : delimiter = some d) :
      CollapseFill collapse delimiter "after-collapse-delimiter" d
  | yearSuffix {way d : String} (hw : collapse = some way)
      (hy : way = "year-suffix" ∨ way = "year-suffix-ranged") (hd : delimiter = some d) :
      CollapseFill collapse delimiter "year-suffix-delimiter" d

/-- What is filled in for citations: the defaults, and what their way of collapsing asks for. -/
def CitationFill (collapse delimiter : Option String) (key value : String) : Prop :=
  (key, value) ∈ citationDefaults ∨ CollapseFill collapse delimiter key value

theorem mem_collapseDefaults_iff {collapse delimiter : Option String} {key value : String} :
    (key, value) ∈ collapseDefaults collapse delimiter ↔
      CollapseFill collapse delimiter key value := by
  constructor
  · intro h
    unfold collapseDefaults at h
    split at h
    · cases h
    · next way =>
      split at h
      · cases h
      · next hc =>
        obtain ⟨hne, hn⟩ : way ≠ "" ∧ way ≠ "citation-number" := by simpa using hc
        rcases List.mem_cons.mp h with hk | h
        · cases hk
          exact .group rfl hne hn
        · split at h
          · cases h
          · next d =>
            rcases List.mem_cons.mp h with hk | h
            · cases hk
              exact .afterCollapse rfl hne hn rfl
            · split at h
              · next hy =>
                cases List.mem_singleton.mp h
                exact .yearSuffix rfl (by simpa using hy) rfl
              · cases h
  · intro h
    cases h with
    | group hw hne hn => simp [collapseDefaults, hw, hne, hn]
    | afterCollapse hw hne hn hd => simp [collapseDefaults, hw, hne, hn, hd]
    | yearSuffix hw hy hd => rcases hy with rfl | rfl <;> simp [collapseDefaults, hw, hd]

theorem nodup_collapseDefaults (collapse delimiter : Option String) :
    ((collapseDefaults collapse delimiter).map Prod.fst).Nodup := by
  unfold collapseDefaults
  repeat' split
  all_goals simp

theorem CollapseFill.ne_collapse {collapse delimiter : Option String} {key value : String}
    (h : CollapseFill collapse delimiter key value) : key ≠ "collapse" := by
  cases h <;> decide

/-- What depends on the way of collapsing has no default. -/
theorem CollapseFill.not_mem_defaults {collapse delimiter : Option String} {key value : String}
    (h : CollapseFill collapse delimiter key value) (value' : String) :
    (key, value') ∉ citationDefaults := by
  cases h <;> simp [citationDefaults]

/-- Citation options are completed by the defaults and by what their own way of collapsing asks
for. -/
theorem completeCitation_completed (delimiter : Option String) (set : Table String) :
    Completed set (CitationFill ((completeCitation delimiter set).get? "collapse") delimiter)
      (completeCitation delimiter set) := by
  have hd : Completed set (fun key value => (key, value) ∈ citationDefaults) _ :=
    addMissing_completed set (by decide)
  have hc := addMissing_completed (set.addMissing citationDefaults)
    (nodup_collapseDefaults ((set.addMissing citationDefaults).get? "collapse") delimiter)
  simp only [mem_collapseDefaults_iff] at hc
  -- the way of collapsing is read between the two steps, and the second leaves it alone
  have hway : (completeCitation delimiter set).get? "collapse" =
      (set.addMissing citationDefaults).get? "collapse" :=
    hc.get?_of_not_fills fun _ hf => hf.ne_collapse rfl
  rw [hway]
  exact hd.trans hc fun hm hf => hf.not_mem_defaults _ hm

theorem CitationFill.ne_collapse {collapse delimiter : Option String} {key value : String}
    (h : CitationFill collapse delimiter key value) : key ≠ "collapse" := by
  obtain hm | hf := h
  · have hdefaults : ∀ e ∈ citationDefaults, e.1 ≠ "collapse" := by decide
    exact hdefaults _ hm
  · exact hf.ne_collapse

/-- The way of collapsing is never filled in. -/
theorem get?_collapse_completeCitation (delimiter : Option String) (set : Table String) :
    (completeCitation delimiter set).get? "collapse" = set.get? "collapse" :=
  (completeCitation_completed delimiter set).get?_of_not_fills fun _ hf => hf.ne_collapse rfl

theorem completeCitation_completeCitation (delimiter : Option String) (set : Table String) :
    completeCitation delimiter (completeCitation delimiter set) =
      completeCitation delimiter set := by
  have h := completeCitation_completed delimiter set
  generalize completeCitation delimiter set = options at h
  rw [completeCitation, h.addMissing_eq_self .inl]
  exact h.addMissing_eq_self fun hm => .inr (mem_collapseDefaults_iff.mp hm)

/-! ## All tables -/

/-- Options that were completed, each table by its own defaults, and citations also by what their
way of collapsing asks for, as it was set. -/
structure CompletedBy (delimiter : Option String) (set options : OptionTables) : Prop where
  style : Completed set.style (fun key value => (key, value) ∈ styleDefaults) options.style
  citation : Completed set.citation (CitationFill (set.citation.get? "collapse") delimiter)
    options.citation
  bibliography : Completed set.bibliography
    (fun key value => (key, value) ∈ bibliographyDefaults) options.bibliography
  locale : Completed set.locale (fun key value => (key, value) ∈ localeDefaults) options.locale

theorem complete_completedBy (delimiter : Option String) (t : OptionTables) :
    CompletedBy delimiter t (t.complete delimiter) where
  style := addMissing_completed _ (by decide)
  citation := get?_collapse_completeCitation delimiter t.citation ▸
    completeCitation_completed delimiter t.citation
  bibliography := addMissing_completed _ (by decide)
  locale := addMissing_completed _ (by decide)

/-- Completing once is enough. -/
theorem complete_complete (delimiter : Option String) (t : OptionTables) :
    (t.complete delimiter).complete delimiter = t.complete delimiter := by
  have h := complete_completedBy delimiter t
  have hcitation : completeCitation delimiter (t.complete delimiter).citation =
      (t.complete delimiter).citation := completeCitation_completeCitation delimiter t.citation
  generalize t.complete delimiter = options at h hcitation
  rw [complete, hcitation, h.style.addMissing_eq_self id, h.bibliography.addMissing_eq_self id,
    h.locale.addMissing_eq_self id]

end OptionTables

end CiteStyle
