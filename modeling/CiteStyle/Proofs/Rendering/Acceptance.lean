import CiteStyle.Proofs.Rendering.Grammar
import CiteStyle.Proofs.Tree

/-! # Which trees compile

`Renderable` is the grammar of rendering elements, said without the compiler. A tree compiles exactly
if it belongs to the grammar, and any other tree is refused for one of a few reasons
(`compile_accepts_grammar`). Much of a `names` element has no part in this: text, and whatever stands
in children other than `substitute` and the last `name`. -/

namespace CiteStyle

/-! ## The grammar -/

def genericTags : List String := [
  "layout", "macro", "sort", "key", "text", "date", "date-part", "number", "label", "group",
  "choose", "if", "else-if", "else"]

/-- The element has a `variable` attribute that is not blank. -/
def Element.ListsVariables (e : Element) : Prop :=
  ∃ value, e.attribute? "variable" = some value ∧ Text.isAllBlank value.toList = false

mutual

/-- Trees that can be rendered. -/
inductive Renderable : Node → Prop
  | text (value : String) : Renderable (.text value)
  | generic {e : Element} (ht : e.tag ∈ genericTags) (hc : ∀ c ∈ e.children, Renderable c) :
      Renderable e.toNode
  | names {e : Element} (ht : e.tag = "names") (hv : e.ListsVariables)
      (hc : ∀ c ∈ e.elements, c.tag ∈ namesChildTags)
      (hn : ∃ c ∈ e.elements, c.tag = "name" ∨ c.tag = "label")
      (hp : ∀ name, lastTagged "name" e.elements = some name →
        ∀ part ∈ name.elements, part.tag = "name-part")
      (hs : ∀ s ∈ e.elements, s.tag = "substitute" → ∀ c ∈ s.elements, MaySubstitute c) :
      Renderable e.toNode

/-- Elements that can stand in for missing names: variables alone, or anything that renders. -/
inductive MaySubstitute : Element → Prop
  | shorthand {e : Element} (ht : e.tag = "names") (he : e.elements = []) (hv : e.ListsVariables) :
      MaySubstitute e
  | full {e : Element} (h : Renderable e.toNode) : MaySubstitute e

end

def compilerViolations : List Violation := [
  .unknownElement, .outsideNames, .notRendering, .withoutVariable, .withoutNameOrLabel,
  .notAllowedInside "names", .notAllowedInside "name"]

/-! ## Elements that compile -/

theorem toString_mem_genericTags_iff (t : Tag) : t.toString ∈ genericTags ↔ t.isGeneric = true := by
  cases t <;> decide

theorem mem_genericTags_iff {tag : String} :
    tag ∈ genericTags ↔ ∃ t : Tag, t.toString = tag ∧ t.isGeneric = true := by
  constructor
  · intro h
    have hknown : ∀ s ∈ genericTags, (Tag.ofString? s).isSome = true := by decide +kernel
    obtain ⟨t, ht⟩ := Option.isSome_iff_exists.mp (hknown tag h)
    obtain rfl := Tag.toString_of_ofString? ht
    exact ⟨t, rfl, (toString_mem_genericTags_iff t).mp h⟩
  · rintro ⟨t, rfl, hg⟩
    exact (toString_mem_genericTags_iff t).mpr hg

theorem compile_generic_isOk_iff {e : Element} (hn : e.tag ≠ "names") :
    (∃ p, e.toNode.compile = .ok p) ↔
      e.tag ∈ genericTags ∧ ∀ c ∈ e.children, ∃ q, c.compile = .ok q := by
  rw [mem_genericTags_iff, ← exists_forall₂_iff]
  constructor
  · rintro ⟨p, hp⟩
    obtain ⟨t, ps, ht, hg, hps, -⟩ := (compile_generic_eq_ok_iff hn).mp hp
    exact ⟨⟨t, ht, hg⟩, ps, hps⟩
  · rintro ⟨⟨t, ht, hg⟩, ps, hps⟩
    exact ⟨_, (compile_generic_eq_ok_iff hn).mpr ⟨t, ps, ht, hg, hps, rfl⟩⟩

theorem compile_names_isOk_iff {e : Element} (ht : e.tag = "names") :
    (∃ p, e.toNode.compile = .ok p) ↔
      NamesAccepted e ∧ ∀ c ∈ substituteElements e.elements, ∃ s, StandsFor c s := by
  rw [← exists_forall₂_iff]
  simp only [compile_names_eq_ok_iff ht]
  constructor
  · rintro ⟨-, ha, subs, hs, -⟩
    exact ⟨ha, subs, hs⟩
  · rintro ⟨ha, subs, hs⟩
    exact ⟨_, ha, subs, hs, rfl⟩

theorem listsVariables_iff {e : Element} :
    e.ListsVariables ↔ variableList e.attributes ≠ [] := by
  rw [variableList, Ne, List.map_eq_nil_iff, Text.words_eq_nil_iff, Element.ListsVariables,
    Element.attribute?]
  cases e.attributes.get? "variable" <;> simp [Text.isAllBlank]

theorem lastTagged_ne_none_iff {tag : String} {es : List Element} :
    lastTagged tag es ≠ none ↔ ∃ e ∈ es, e.tag = tag := by
  simp only [Ne, lastTagged_eq_none_iff, not_forall, not_not, exists_prop]

theorem namesAccepted_iff {e : Element} :
    NamesAccepted e ↔ e.ListsVariables ∧ (∀ c ∈ e.elements, c.tag ∈ namesChildTags) ∧
      (∃ c ∈ e.elements, c.tag = "name" ∨ c.tag = "label") ∧
      ∀ name, lastTagged "name" e.elements = some name →
        ∀ part ∈ name.elements, part.tag = "name-part" := by
  have hn : (∃ c ∈ e.elements, c.tag = "name" ∨ c.tag = "label") ↔
      lastTagged "name" e.elements ≠ none ∨ lastTagged "label" e.elements ≠ none := by
    rw [lastTagged_ne_none_iff, lastTagged_ne_none_iff]
    simp only [and_or_left, exists_or]
  have hp : (∀ part ∈ ((lastTagged "name" e.elements).map Element.elements).getD [],
      part.tag = "name-part") ↔ ∀ name, lastTagged "name" e.elements = some name →
        ∀ part ∈ name.elements, part.tag = "name-part" := by
    cases lastTagged "name" e.elements <;> simp
  rw [listsVariables_iff, hn, ← hp]
  exact ⟨fun h => ⟨h.listed, h.children, h.nameOrLabel, h.parts⟩,
    fun h => ⟨h.1, h.2.1, h.2.2.1, h.2.2.2⟩⟩

theorem mem_substituteElements_iff {c : Element} {es : List Element} :
    c ∈ substituteElements es ↔ ∃ s ∈ es, s.tag = "substitute" ∧ c ∈ s.elements := by
  simp only [substituteElements, List.mem_flatMap, mem_tagged, and_assoc]

theorem isShorthand_iff {e : Element} :
    isShorthand e.tag e.children = true ↔ e.tag = "names" ∧ e.elements = [] := by
  rw [isShorthand, Bool.and_eq_true, beq_iff_eq, List.isEmpty_iff, Element.elements]

/-! ## Trees that compile -/

theorem renderable_generic_iff {e : Element} (hn : e.tag ≠ "names") :
    Renderable e.toNode ↔ e.tag ∈ genericTags ∧ ∀ c ∈ e.children, Renderable c := by
  constructor
  · intro h
    obtain ⟨tag, attributes, children, line⟩ := e
    cases h with
    | generic ht hc => exact ⟨ht, hc⟩
    | names ht => exact absurd ht hn
  · rintro ⟨ht, hc⟩
    exact .generic ht hc

theorem renderable_names_iff {e : Element} (ht : e.tag = "names") :
    Renderable e.toNode ↔
      NamesAccepted e ∧ ∀ c ∈ substituteElements e.elements, MaySubstitute c := by
  rw [namesAccepted_iff]
  constructor
  · intro h
    obtain ⟨tag, attributes, children, line⟩ := e
    cases h with
    | generic hg => rw [ht] at hg; exact absurd hg (by decide)
    | names _ hv hc hn hp hs =>
      refine ⟨⟨hv, hc, hn, hp⟩, fun c hc => ?_⟩
      obtain ⟨s, hm, hst, hcs⟩ := mem_substituteElements_iff.mp hc
      exact hs s hm hst c hcs
  · rintro ⟨⟨hv, hc, hn, hp⟩, hs⟩
    exact .names ht hv hc hn hp fun s hm hst c hcs =>
      hs c (mem_substituteElements_iff.mpr ⟨s, hm, hst, hcs⟩)

/-- An element without elements inside is no `names` element that renders by itself. -/
theorem not_renderable_of_isShorthand {e : Element} (h : isShorthand e.tag e.children = true) :
    ¬ Renderable e.toNode := by
  obtain ⟨ht, he⟩ := isShorthand_iff.mp h
  intro hr
  obtain ⟨-, -, ⟨c, hc, -⟩, -⟩ := namesAccepted_iff.mp ((renderable_names_iff ht).mp hr).1
  rw [he] at hc
  exact List.not_mem_nil hc

theorem standsFor_iff_maySubstitute {e : Element}
    (h : (∃ p, e.toNode.compile = .ok p) ↔ Renderable e.toNode) :
    (∃ s, StandsFor e s) ↔ MaySubstitute e := by
  constructor
  · rintro ⟨_, hs⟩
    cases hs with
    | shorthand hf hv =>
      obtain ⟨ht, he⟩ := isShorthand_iff.mp hf
      exact .shorthand ht he (listsVariables_iff.mpr hv)
    | full _ hp => exact .full (h.mp ⟨_, hp⟩)
  · intro hm
    cases hm with
    | shorthand ht he hv =>
      exact ⟨_, .shorthand (isShorthand_iff.mpr ⟨ht, he⟩) (listsVariables_iff.mp hv)⟩
    | full hr =>
      obtain ⟨p, hp⟩ := h.mpr hr
      have hf : isShorthand e.tag e.children = false :=
        Bool.eq_false_iff.mpr fun hf => not_renderable_of_isShorthand hf hr
      exact ⟨_, .full hf hp⟩

theorem compile_text_isOk_iff (value : String) :
    (∃ p, (Node.text value).compile = .ok p) ↔ Renderable (.text value) :=
  ⟨fun _ => .text value, fun _ => ⟨_, by rw [Node.compile]⟩⟩

theorem compile_element_isOk_iff (e : Element) :
    (∃ p, e.toNode.compile = .ok p) ↔ Renderable e.toNode := by
  -- over all elements inside, since a substitution stands two levels down from its `names`
  induction e using Element.induction with
  | h e ih =>
    have hchild (c : Node) (hc : c ∈ e.children) : (∃ p, c.compile = .ok p) ↔ Renderable c := by
      cases c using Node.textOrElement with
      | text value => exact compile_text_isOk_iff value
      | element d => exact ih _ hc d (.top d)
    by_cases ht : e.tag = "names"
    · rw [compile_names_isOk_iff ht, renderable_names_iff ht]
      refine and_congr_right fun _ => forall₂_congr fun c hc => standsFor_iff_maySubstitute ?_
      obtain ⟨s, hs, -, hcs⟩ := mem_substituteElements_iff.mp hc
      exact ih _ (mem_elements_iff.mp hs) c (.inside (mem_elements_iff.mp hcs) (.top c))
    · rw [compile_generic_isOk_iff ht, renderable_generic_iff ht]
      exact and_congr_right fun _ => forall₂_congr hchild

theorem compile_isOk_iff (n : Node) : (∃ p, n.compile = .ok p) ↔ Renderable n := by
  cases n using Node.textOrElement with
  | text value => exact compile_text_isOk_iff value
  | element e => exact compile_element_isOk_iff e

/-! ## Trees that are refused -/

theorem resolveTag_violation {tag : String} {line : Int} {m : Misplacement}
    (h : resolveTag tag line = .error m) : m.violation ∈ compilerViolations := by
  unfold resolveTag at h
  split at h
  · cases h
  · obtain rfl := Except.error.inj h
    simp [compilerViolations]

theorem namesVariables_violation {attributes : Table String} {line : Int} {m : Misplacement}
    (h : namesVariables attributes line = .error m) : m.violation ∈ compilerViolations := by
  unfold namesVariables at h
  split at h
  · obtain rfl := Except.error.inj h
    simp [compilerViolations]
  · cases h

theorem nameParts_violation {parts : List Element} {m : Misplacement}
    (h : nameParts parts = .error m) : m.violation ∈ compilerViolations := by
  induction parts with
  | nil => rw [nameParts] at h; cases h
  | cons part rest ih =>
    rw [nameParts] at h
    split at h
    · next hr =>
      obtain rfl := Except.error.inj h
      exact resolveTag_violation hr
    · split at h
      · split at h
        · next hrest =>
          obtain rfl := Except.error.inj h
          exact ih hrest
        · cases h
      · obtain rfl := Except.error.inj h
        simp [compilerViolations]

theorem NamesParts.program_violation {parts : NamesParts} {vars : List String}
    {attributes : Table String} {line : Int} {m : Misplacement}
    (h : parts.program vars attributes line = .error m) : m.violation ∈ compilerViolations := by
  unfold NamesParts.program at h
  split at h
  · obtain rfl := Except.error.inj h
    simp [compilerViolations]
  · split at h
    · next hp =>
      obtain rfl := Except.error.inj h
      exact nameParts_violation hp
    · cases h

mutual

theorem compile_violation : ∀ {n : Node} {m : Misplacement}, n.compile = .error m →
    m.violation ∈ compilerViolations
  | .text value, m, h => by rw [Node.compile] at h; cases h
  | .element tag attributes children line, m, h => by
    rw [Node.compile] at h
    split at h
    · next hr =>
      obtain rfl := Except.error.inj h
      exact resolveTag_violation hr
    · split at h
      · split at h
        · next hv =>
          obtain rfl := Except.error.inj h
          exact namesVariables_violation hv
        · split at h
          · next hg =>
            obtain rfl := Except.error.inj h
            exact gatherNames_violation hg
          · exact NamesParts.program_violation h
      · split at h
        · obtain rfl := Except.error.inj h
          simp [compilerViolations]
        · split at h
          · split at h
            · next hc =>
              obtain rfl := Except.error.inj h
              exact compileAll_violation hc
            · cases h
          · obtain rfl := Except.error.inj h
            simp [compilerViolations]

theorem compileAll_violation : ∀ {nodes : List Node} {m : Misplacement},
    compileAll nodes = .error m → m.violation ∈ compilerViolations
  | [], m, h => by rw [compileAll] at h; cases h
  | n :: rest, m, h => by
    rw [compileAll] at h
    split at h
    · next hn =>
      obtain rfl := Except.error.inj h
      exact compile_violation hn
    · split at h
      · next hr =>
        obtain rfl := Except.error.inj h
        exact compileAll_violation hr
      · cases h

theorem gatherNames_violation : ∀ {nodes : List Node} {parts : NamesParts} {m : Misplacement},
    gatherNames parts nodes = .error m → m.violation ∈ compilerViolations
  | [], parts, m, h => by rw [gatherNames] at h; cases h
  | .text value :: rest, parts, m, h => by
    rw [gatherNames] at h
    exact gatherNames_violation h
  | .element tag attributes children line :: rest, parts, m, h => by
    rw [gatherNames] at h
    split at h
    · next hr =>
      obtain rfl := Except.error.inj h
      exact resolveTag_violation hr
    · exact gatherNames_violation h
    · exact gatherNames_violation h
    · exact gatherNames_violation h
    · split at h
      · next hs =>
        obtain rfl := Except.error.inj h
        exact compileSubstitutes_violation hs
      · exact gatherNames_violation h
    · obtain rfl := Except.error.inj h
      simp [compilerViolations]

theorem compileSubstitutes_violation : ∀ {nodes : List Node} {m : Misplacement},
    compileSubstitutes nodes = .error m → m.violation ∈ compilerViolations
  | [], m, h => by rw [compileSubstitutes] at h; cases h
  | .text value :: rest, m, h => by
    rw [compileSubstitutes] at h
    exact compileSubstitutes_violation h
  | .element tag attributes children line :: rest, m, h => by
    rw [compileSubstitutes] at h
    split at h
    · split at h
      · next hv =>
        obtain rfl := Except.error.inj h
        exact namesVariables_violation hv
      · split at h
        · next hs =>
          obtain rfl := Except.error.inj h
          exact compileSubstitutes_violation hs
        · cases h
    · split at h
      · next hp =>
        obtain rfl := Except.error.inj h
        exact compile_violation hp
      · split at h
        · next hs =>
          obtain rfl := Except.error.inj h
          exact compileSubstitutes_violation hs
        · cases h

end

theorem not_renderable_iff (n : Node) :
    ¬ Renderable n ↔ ∃ m, n.compile = .error m ∧ m.violation ∈ compilerViolations := by
  rw [← compile_isOk_iff]
  cases h : n.compile with
  | error m => simpa using compile_violation h
  | ok p => simp

/-! ## What has no part in it -/

/-- Two `names` elements that differ at most in what imposes no condition: they list the same
variables, their children have the same tags, the same elements stand inside `substitute`, and
elements with the same tags stand inside the last `name`. -/
structure SameToGrammar (e e' : Element) : Prop where
  tag : e.tag = "names"
  tag' : e'.tag = "names"
  listed : e'.attribute? "variable" = e.attribute? "variable"
  children : e'.elements.map Element.tag = e.elements.map Element.tag
  substitutes : substituteElements e'.elements = substituteElements e.elements
  parts : ∀ name name', lastTagged "name" e.elements = some name →
    lastTagged "name" e'.elements = some name' →
    name'.elements.map Element.tag = name.elements.map Element.tag

namespace SameToGrammar

variable {e e' : Element}

theorem symm (h : SameToGrammar e e') : SameToGrammar e' e where
  tag := h.tag'
  tag' := h.tag
  listed := h.listed.symm
  children := h.children.symm
  substitutes := h.substitutes.symm
  parts name name' hn hn' := (h.parts name' name hn' hn).symm

theorem exists_child (h : SameToGrammar e e') {c : Element} (hc : c ∈ e'.elements) :
    ∃ d ∈ e.elements, d.tag = c.tag := by
  have ht : c.tag ∈ e'.elements.map Element.tag := List.mem_map_of_mem hc
  rw [h.children] at ht
  exact List.mem_map.mp ht

theorem accepted (h : SameToGrammar e e') (ha : NamesAccepted e) : NamesAccepted e' := by
  obtain ⟨⟨value, hv, hb⟩, hc, ⟨c, hm, hn⟩, hp⟩ := namesAccepted_iff.mp ha
  refine namesAccepted_iff.mpr ⟨⟨value, h.listed.trans hv, hb⟩, ?_, ?_, ?_⟩
  · intro c' hc'
    obtain ⟨d, hd, ht⟩ := h.exists_child hc'
    exact ht ▸ hc d hd
  · obtain ⟨d, hd, ht⟩ := h.symm.exists_child hm
    exact ⟨d, hd, ht ▸ hn⟩
  · intro name' hname' part hpart
    have hsome : lastTagged "name" e'.elements ≠ none := by simp [hname']
    obtain ⟨c', hc', hct⟩ := lastTagged_ne_none_iff.mp hsome
    obtain ⟨d, hd, hdt⟩ := h.exists_child hc'
    obtain ⟨name, hname⟩ := Option.ne_none_iff_exists'.mp
      (lastTagged_ne_none_iff.mpr ⟨d, hd, hdt.trans hct⟩)
    have ht : part.tag ∈ name'.elements.map Element.tag := List.mem_map_of_mem hpart
    rw [h.parts name name' hname hname'] at ht
    obtain ⟨part', hpart', ht'⟩ := List.mem_map.mp ht
    exact ht' ▸ hp name hname part' hpart'

theorem renderable (h : SameToGrammar e e') (hr : Renderable e.toNode) : Renderable e'.toNode := by
  rw [renderable_names_iff h.tag] at hr
  rw [renderable_names_iff h.tag', h.substitutes]
  exact ⟨h.accepted hr.1, hr.2⟩

end SameToGrammar

/-- **The compiler accepts its grammar and nothing else.** A tree compiles exactly if it belongs to
the grammar; otherwise an element is refused for one of the compiler's reasons. Of two `names`
elements that differ in what the grammar ignores, both compile or neither does. -/
theorem compile_accepts_grammar :
    (∀ n : Node, ((∃ p, n.compile = .ok p) ↔ Renderable n) ∧
      (¬ Renderable n ↔ ∃ m, n.compile = .error m ∧ m.violation ∈ compilerViolations)) ∧
    ∀ e e' : Element, SameToGrammar e e' →
      ((∃ p, e.toNode.compile = .ok p) ↔ ∃ p, e'.toNode.compile = .ok p) := by
  refine ⟨fun n => ⟨compile_isOk_iff n, not_renderable_iff n⟩, fun e e' h => ?_⟩
  rw [compile_element_isOk_iff, compile_element_isOk_iff]
  exact ⟨h.renderable, h.symm.renderable⟩

def namesAround (ignored : List Node) : Element := ⟨"names", .ofList [("variable", "author")],
  ignored.filter (·.element?.isNone) ++ [
    .element "name" {} ignored 1,
    .element "label" {} ignored 1,
    .element "et-al" {} ignored 1,
    .element "name" {} [.element "name-part" {} ignored 2] 2,
    .element "substitute" {} [.element "names" (.ofList [("variable", "editor")]) [] 3] 3], 1⟩

theorem namesAround_same :
    SameToGrammar (namesAround []) (namesAround [.text "and", .element "font" {} [] 1]) ∧
      (∃ p, (namesAround []).toNode.compile = .ok p) ∧
      ∃ p, (namesAround [.text "and", .element "font" {} [] 1]).toNode.compile = .ok p := by
  have hs : SameToGrammar (namesAround []) (namesAround [.text "and", .element "font" {} [] 1]) := by
    refine ⟨rfl, rfl, rfl, rfl, rfl, fun name name' hn hn' => ?_⟩
    obtain rfl := Option.some.inj hn
    obtain rfl := Option.some.inj hn'
    rfl
  obtain ⟨p, hp⟩ : ∃ p, (namesAround []).toNode.compile = .ok p := ⟨_, rfl⟩
  exact ⟨hs, ⟨p, hp⟩, (compile_accepts_grammar.2 _ _ hs).mp ⟨p, hp⟩⟩

end CiteStyle
