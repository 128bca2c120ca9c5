import CiteStyle.Proofs.Rendering.Acceptance

/-! # The rules for elements

What an element may be and must have depends on the role in which it is looked at. `Breaks` says
which rules an element breaks in a role, without the compiler. A misplacement that `Blames` an
element tells of a rule which that element breaks itself. -/

namespace CiteStyle

/-- The role of an element: root of a style, child of certain elements, something to be rendered, or
a substitute that lists variables alone. -/
inductive Role where
  | root | inStyle | inLocale | inTerms | rendered | shorthand | inNames | inName
  deriving DecidableEq, Repr

namespace Element

/-- The element belongs to the vocabulary. -/
def IsKnown (e : Element) : Prop := ∃ t : Tag, t.toString = e.tag

/-- The element has a `name` attribute that is not empty. -/
def IsNamed (e : Element) : Prop := ∃ name, e.attribute? "name" = some name ∧ name ≠ ""

/-- The element has a layout in place: as its first child, or after a `sort` as its first child. -/
def HasLayout (e : Element) : Prop :=
  ∃ layout rest, layout.tag = "layout" ∧
    (e.elements = layout :: rest ∨ ∃ sort, sort.tag = "sort" ∧ e.elements = sort :: layout :: rest)

end Element

def namesOnlyTags : List String := ["name", "name-part", "et-al", "substitute"]

theorem toString_mem_namesOnlyTags_iff (t : Tag) :
    t.toString ∈ namesOnlyTags ↔ t.isNamesOnly = true := by
  cases t <;> decide

def styleChildTags : List String := ["info", "locale", "citation", "bibliography", "macro"]

def localeChildTags : List String := ["style-options", "date", "terms", "info"]

/-- The rules that an element breaks. -/
inductive Breaks : Role → Element → Violation → Prop
  | unknown {r : Role} {e : Element} (hk : ¬ e.IsKnown) : Breaks r e .unknownElement
  | notStyle {e : Element} (ht : e.tag ≠ "style") : Breaks .root e (.notDocument "style")
  | noCitation {e : Element} (hc : ∀ c ∈ e.elements, c.tag ≠ "citation") :
      Breaks .root e (.noPart "citation")
  | noBibliography {e : Element} (hc : ∀ c ∈ e.elements, c.tag ≠ "bibliography") :
      Breaks .root e (.noPart "bibliography")
  | inStyle {e : Element} (hk : e.IsKnown) (ht : e.tag ∉ styleChildTags) :
      Breaks .inStyle e (.notAllowedInside "style")
  | namelessMacro {e : Element} (ht : e.tag = "macro") (hn : ¬ e.IsNamed) :
      Breaks .inStyle e .withoutName
  | withoutLayout {e : Element} (ht : e.tag = "citation" ∨ e.tag = "bibliography")
      (hl : ¬ e.HasLayout) : Breaks .inStyle e .withoutLayout
  | inLocale {e : Element} (hk : e.IsKnown) (ht : e.tag ∉ localeChildTags) :
      Breaks .inLocale e (.notAllowedInside "locale")
  | inTerms {e : Element} (hk : e.IsKnown) (ht : e.tag ≠ "term") :
      Breaks .inTerms e (.notAllowedInside "terms")
  | namelessTerm {e : Element} (ht : e.tag = "term") (hn : ¬ e.IsNamed) :
      Breaks .inTerms e .withoutName
  | outsideNames {e : Element} (ht : e.tag ∈ namesOnlyTags) : Breaks .rendered e .outsideNames
  | notRendering {e : Element} (hk : e.IsKnown) (hn : e.tag ≠ "names") (ho : e.tag ∉ namesOnlyTags)
      (ht : e.tag ∉ genericTags) : Breaks .rendered e .notRendering
  | withoutVariable {r : Role} {e : Element} (hr : r = .rendered ∨ r = .shorthand)
      (ht : e.tag = "names") (hv : ¬ e.ListsVariables) : Breaks r e .withoutVariable
  | withoutNameOrLabel {e : Element} (ht : e.tag = "names")
      (hc : ∀ c ∈ e.elements, c.tag ≠ "name" ∧ c.tag ≠ "label") :
      Breaks .rendered e .withoutNameOrLabel
  | inNames {e : Element} (hk : e.IsKnown) (ht : e.tag ∉ namesChildTags) :
      Breaks .inNames e (.notAllowedInside "names")
  | inName {e : Element} (hk : e.IsKnown) (ht : e.tag ≠ "name-part") :
      Breaks .inName e (.notAllowedInside "name")

/-- A misplacement tells of a rule that the element breaks in its role, under the tag and on the
line of the element. -/
structure Misplacement.Blames (m : Misplacement) (r : Role) (e : Element) : Prop where
  breaks : Breaks r e m.violation
  tag : m.tag = e.tag
  line : m.line = e.line

theorem Breaks.blames {r : Role} {e : Element} {v : Violation} (h : Breaks r e v) :
    Misplacement.Blames ⟨v, e.tag, e.line⟩ r e := ⟨h, rfl, rfl⟩

theorem isKnown_of_resolve {e : Element} {t : Tag} (h : e.resolve = .ok t) : e.IsKnown :=
  ⟨t, resolve_eq_ok_iff.mp h⟩

theorem Tag.toString_inj {t t' : Tag} (h : t.toString = t'.toString) : t = t' := by
  have ht := ofString?_toString t
  rw [h, ofString?_toString] at ht
  exact (Option.some.inj ht).symm

/-- An element whose tag is none of some is written under none of their names. -/
theorem tag_not_mem_of_resolve {e : Element} {t : Tag} (tags : List Tag) (hr : e.resolve = .ok t)
    (h : t ∉ tags) : e.tag ∉ tags.map Tag.toString := by
  rw [← resolve_eq_ok_iff.mp hr]
  intro hm
  obtain ⟨t', ht', heq⟩ := List.mem_map.mp hm
  exact h (Tag.toString_inj heq ▸ ht')

/-- Only elements outside the vocabulary have no known tag, in whatever role. -/
theorem blames_of_resolve {e : Element} {m : Misplacement} (h : e.resolve = .error m) (r : Role) :
    m.Blames r e := by
  have hk : ¬ e.IsKnown := by
    rintro ⟨t, ht⟩
    rw [resolve_eq_ok_iff.mpr ht] at h
    cases h
  unfold Element.resolve resolveTag at h
  split at h
  · cases h
  · obtain rfl := Except.error.inj h
    exact (Breaks.unknown hk).blames

theorem isKnown_of_mem_genericTags {e : Element} (h : e.tag ∈ genericTags) : e.IsKnown := by
  obtain ⟨t, ht, -⟩ := mem_genericTags_iff.mp h
  exact ⟨t, ht⟩

/-- Elements that render in the generic way break no rule themselves. -/
theorem not_breaks_of_mem_genericTags {e : Element} (h : e.tag ∈ genericTags) (v : Violation) :
    ¬ Breaks .rendered e v := by
  intro hb
  cases hb with
  | unknown hk => exact hk (isKnown_of_mem_genericTags h)
  | outsideNames ht =>
    have hdisjoint : ∀ s ∈ namesOnlyTags, s ∉ genericTags := by decide
    exact hdisjoint _ ht h
  | notRendering _ _ _ ht => exact ht h
  | withoutVariable _ ht => rw [ht] at h; exact absurd h (by decide)
  | withoutNameOrLabel ht => rw [ht] at h; exact absurd h (by decide)

end CiteStyle
