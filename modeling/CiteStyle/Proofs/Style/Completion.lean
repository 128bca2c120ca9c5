import CiteStyle.Proofs.Options.Completion
import CiteStyle.Style.Draft
import Mathlib.Logic.Function.Iterate

/-! # Completing the options of a style

Completing a draft replaces its option tables and nothing else, so that what holds of completed
tables holds of the draft: nothing that was set is lost, and doing it again has no effect
(`complete_conservative`). -/

namespace CiteStyle.Draft

@[simp] theorem options_withOptions (d : Draft) (t : OptionTables) :
    (d.withOptions t).options = t := rfl

/-- Options are apart from all else: setting them back restores the draft. -/
theorem withOptions_withOptions_options (d : Draft) (t : OptionTables) :
    (d.withOptions t).withOptions d.options = d := rfl

@[simp] theorem withOptions_withOptions (d : Draft) (t t' : OptionTables) :
    (d.withOptions t).withOptions t' = d.withOptions t' := rfl

@[simp] theorem layoutAttributes_withOptions (d : Draft) (t : OptionTables) :
    (d.withOptions t).citation.layoutAttributes = d.citation.layoutAttributes := rfl

theorem complete_complete (d : Draft) : d.complete.complete = d.complete := by
  have hagain := OptionTables.complete_complete
    (d.citation.layoutAttributes.get? "delimiter") d.options
  simp only [complete, options_withOptions, layoutAttributes_withOptions, withOptions_withOptions,
    hagain]

/-- **Completing is conservative.** It keeps what is set, fills in the defaults that are missing
and, if citations collapse in a way that needs delimiters, those, and it adds nothing else. Apart
from the options the draft stays as it is, the attributes of the citation layout included. Doing it
any number of times more has no effect. The same holds of option tables by themselves, whatever
delimiter the layout has. -/
theorem complete_conservative (d : Draft) :
    OptionTables.CompletedBy (d.citation.layoutAttributes.get? "delimiter") d.options
      d.complete.options ∧
    d.complete.withOptions d.options = d ∧
    d.complete.citation.layoutAttributes = d.citation.layoutAttributes ∧
    (∀ n, complete^[n] d.complete = d.complete) ∧
    ∀ (delimiter : Option String) (t : OptionTables),
      OptionTables.CompletedBy delimiter t (t.complete delimiter) ∧
        ∀ n, (OptionTables.complete delimiter)^[n] (t.complete delimiter) = t.complete delimiter :=
  ⟨OptionTables.complete_completedBy _ d.options, withOptions_withOptions_options d _,
    layoutAttributes_withOptions d _, fun n => Function.iterate_fixed d.complete_complete n,
    fun delimiter t => ⟨OptionTables.complete_completedBy delimiter t,
      fun n => Function.iterate_fixed (OptionTables.complete_complete delimiter t) n⟩⟩

/-- A year-suffix style whose layout has an empty delimiter gets that one, not none. -/
example : ((OptionTables.complete (some "")
    { citation := .ofList [("collapse", "year-suffix")] }).citation.get? "year-suffix-delimiter") =
      some "" := by decide

end CiteStyle.Draft
