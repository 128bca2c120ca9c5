import CiteStyle.Proofs.Children
import Mathlib.Data.List.Forall2

/-! # What the compiler accepts, and what it keeps

One equation for each compiler function. Generic elements keep their attributes and the programs of
their children (`compile_generic_eq_ok_iff`). A `names` element keeps its variables, the settings
gathered from the last child of each kind, and one substitute for every element inside its
`substitute` children (`compile_names_eq_ok_iff`). -/

namespace CiteStyle

/-! ## Texts and generic elements -/

theorem compile_text_eq_ok_iff {value : String} {p : Program} :
    (Node.text value).compile = .ok p ↔ p = .text value := by
  rw [Node.compile, Except.ok.injEq, eq_comm]

theorem compileAll_eq_ok_iff {nodes : List Node} {ps : List Program} :
    compileAll nodes = .ok ps ↔ List.Forall₂ (fun n p => n.compile = .ok p) nodes ps := by
  induction nodes generalizing ps with
  | nil => cases ps <;> simp [compileAll]
  | cons n rest ih =>
    rw [compileAll]
    cases hn : n.compile with
    | error m => cases ps <;> simp [hn]
    | ok p =>
      cases hr : compileAll rest with
      | error m => cases ps <;> simp [← ih, hn, hr]
      | ok more => cases ps <;> simp [← ih, hn, hr]

theorem isNamesOnly_of_isGeneric {t : Tag} (h : t.isGeneric = true) : t.isNamesOnly = false := by
  cases t <;> simp_all [Tag.isGeneric, Tag.isNamesOnly]

theorem compile_generic_eq_ok_iff {tag : String} {attributes : Table String} {children : List Node}
    {line : Int} {p : Program} (hn : tag ≠ "names") :
    (Node.element tag attributes children line).compile = .ok p ↔
      ∃ known ps, Tag.toString known = tag ∧ known.isGeneric = true ∧
        List.Forall₂ (fun n q => n.compile = .ok q) children ps ∧
        p = .element known attributes ps := by
  rw [Node.compile]
  constructor
  · intro h
    split at h
    · cases h
    · next known hr =>
      have ht := resolveTag_eq_ok_iff.mp hr
      have hne : known ≠ .names := by rintro rfl; exact hn ht.symm
      rw [if_neg hne] at h
      split at h
      · cases h
      · split at h
        · next hg =>
          split at h
          · cases h
          · next ps hps =>
            obtain rfl := Except.ok.inj h
            exact ⟨known, ps, ht, hg, compileAll_eq_ok_iff.mp hps, rfl⟩
        · cases h
  · rintro ⟨known, ps, ht, hg, hps, rfl⟩
    have hne : known ≠ .names := by rintro rfl; exact hn ht.symm
    rw [resolveTag_eq_ok_iff.mpr ht]
    simp only [hne, isNamesOnly_of_isGeneric hg, hg, compileAll_eq_ok_iff.mpr hps, if_false,
      if_true, Bool.false_eq_true]

/-! ## Variables, parts and substitutes -/

def variableList (attributes : Table String) : List String :=
  (Text.words ((attributes.get? "variable").getD "").toList).map String.ofList

theorem namesVariables_eq_ok_iff {attributes : Table String} {line : Int} {vars : List String} :
    namesVariables attributes line = .ok vars ↔ variableList attributes ≠ [] ∧
      vars = variableList attributes := by
  unfold namesVariables
  split
  · next he =>
    have he' : variableList attributes = [] := he
    simp [he']
  · next hne =>
    constructor
    · intro h
      exact ⟨hne, (Except.ok.inj h).symm⟩
    · rintro ⟨-, rfl⟩
      rfl

/-- The attributes of `name-part` elements under their names. -/
def partEntries (parts : List Element) : List (String × Table String) :=
  parts.map fun part => ((part.attribute? "name").getD "", part.attributes)

theorem nameParts_eq_ok_iff {parts : List Element} {entries : List (String × Table String)} :
    nameParts parts = .ok entries ↔ (∀ part ∈ parts, part.tag = "name-part") ∧
      entries = partEntries parts := by
  induction parts generalizing entries with
  | nil => simp [nameParts, partEntries, eq_comm]
  | cons part rest ih =>
    rw [nameParts, List.forall_mem_cons]
    split
    · next hr =>
      have ht : part.tag ≠ "name-part" := fun ht => by
        rw [resolve_eq_ok_iff (t := .namePart).mpr ht.symm] at hr; cases hr
      simp [ht]
    · next tag hr =>
      have ht := resolve_eq_ok_iff.mp hr
      split
      · next he =>
        subst he
        have hp : part.tag = "name-part" := ht.symm
        cases hm : nameParts rest with
        | error m =>
          have hf : ¬ ∀ x ∈ rest, x.tag = "name-part" := fun hf => by
            rw [ih.mpr ⟨hf, rfl⟩] at hm; cases hm
          simp [hf]
        | ok more =>
          obtain ⟨hf, rfl⟩ := ih.mp hm
          simp only [Except.ok.injEq, hp, true_and]
          exact ⟨fun h => ⟨hf, h.symm⟩, fun h => h.2.symm⟩
      · next he =>
        have hp : part.tag ≠ "name-part" := fun hp =>
          he (Except.ok.inj (hr.symm.trans (resolve_eq_ok_iff (t := .namePart).mpr hp.symm)))
        simp [hp]

/-- What an element stands for as a substitute: `names` without elements inside for its variables,
any other element for its program. -/
inductive StandsFor : Element → Substitute → Prop
  | shorthand {e : Element} (h : isShorthand e.tag e.children = true)
      (hv : variableList e.attributes ≠ []) : StandsFor e (.shorthand (variableList e.attributes))
  | full {e : Element} {p : Program} (h : isShorthand e.tag e.children = false)
      (hp : e.toNode.compile = .ok p) : StandsFor e (.full p)

theorem StandsFor.det {e : Element} {s s' : Substitute} (h : StandsFor e s) (h' : StandsFor e s') :
    s = s' := by
  cases h with
  | shorthand h _ =>
    cases h' with
    | shorthand _ _ => rfl
    | full h' _ => rw [h] at h'; cases h'
  | full h hp =>
    cases h' with
    | shorthand h' _ => rw [h] at h'; cases h'
    | full _ hp' => rw [hp] at hp'; rw [Except.ok.inj hp']

theorem compileSubstitutes_cons_eq_ok_iff {tag : String} {attributes : Table String}
    {children rest : List Node} {line : Int} {subs : List Substitute} :
    compileSubstitutes (.element tag attributes children line :: rest) = .ok subs ↔
      ∃ s more, StandsFor ⟨tag, attributes, children, line⟩ s ∧
        compileSubstitutes rest = .ok more ∧ subs = s :: more := by
  rw [compileSubstitutes]
  constructor
  · intro h
    split at h
    · next hs =>
      split at h
      · cases h
      · next vars hv =>
        obtain ⟨hne, rfl⟩ := namesVariables_eq_ok_iff.mp hv
        split at h
        · cases h
        · next more hm =>
          obtain rfl := Except.ok.inj h
          exact ⟨_, more, .shorthand hs hne, hm, rfl⟩
    · next hs =>
      split at h
      · cases h
      · next p hp =>
        split at h
        · cases h
        · next more hm =>
          obtain rfl := Except.ok.inj h
          exact ⟨_, more, .full (Bool.eq_false_iff.mpr hs) hp, hm, rfl⟩
  · rintro ⟨s, more, hs, hm, rfl⟩
    cases hs with
    | shorthand h hv => simp [h, namesVariables_eq_ok_iff.mpr ⟨hv, rfl⟩, hm]
    | full h hp =>
      have hp' : (Node.element tag attributes children line).compile = _ := hp
      simp [h, hp', hm]

theorem compileSubstitutes_eq_ok_iff {children : List Node} {subs : List Substitute} :
    compileSubstitutes children = .ok subs ↔
      List.Forall₂ StandsFor (Node.elements children) subs := by
  induction children generalizing subs with
  | nil => rw [compileSubstitutes]; cases subs <;> simp
  | cons node rest ih =>
    cases node with
    | text value => rw [compileSubstitutes, Node.elements_text]; exact ih
    | element tag attributes children line =>
      rw [compileSubstitutes_cons_eq_ok_iff, Node.elements_element, List.forall₂_cons_left_iff]
      simp only [ih]

/-! ## Gathering the children of `names` -/

def substituteElements (children : List Element) : List Element :=
  (tagged "substitute" children).flatMap Element.elements

/-- Gathered parts after some children: the last child of each kind, and all substitutes. -/
structure Gathers (before : NamesParts) (children : List Element) (after : NamesParts) : Prop where
  name : after.name = (lastTagged "name" children).or before.name
  label : after.label = ((lastTagged "label" children).map Element.attributes).or before.label
  etAl : after.etAl = ((lastTagged "et-al" children).map Element.attributes).getD before.etAl
  substitutes : ∃ subs, List.Forall₂ StandsFor (substituteElements children) subs ∧
    after.substitutes = before.substitutes ++ subs

namespace Gathers

variable {before after : NamesParts} {e : Element} {rest : List Element}

theorem cons_name (ht : e.tag = "name") (h : Gathers { before with name := some e } rest after) :
    Gathers before (e :: rest) after where
  name := by rw [h.name, lastTagged_cons, if_pos ht, Option.or_assoc, Option.some_or]
  label := by rw [h.label, lastTagged_cons_of_ne _ (by simp [ht])]
  etAl := by rw [h.etAl, lastTagged_cons_of_ne _ (by simp [ht])]
  substitutes := by
    rw [substituteElements, tagged_cons_of_ne _ (by simp [ht])]
    exact h.substitutes

theorem cons_label (ht : e.tag = "label")
    (h : Gathers { before with label := some e.attributes } rest after) :
    Gathers before (e :: rest) after where
  name := by rw [h.name, lastTagged_cons_of_ne _ (by simp [ht])]
  label := by
    rw [h.label, lastTagged_cons, if_pos ht, Option.map_or, Option.map_some, Option.or_assoc,
      Option.some_or]
  etAl := by rw [h.etAl, lastTagged_cons_of_ne _ (by simp [ht])]
  substitutes := by
    rw [substituteElements, tagged_cons_of_ne _ (by simp [ht])]
    exact h.substitutes

theorem cons_etAl (ht : e.tag = "et-al")
    (h : Gathers { before with etAl := e.attributes } rest after) :
    Gathers before (e :: rest) after where
  name := by rw [h.name, lastTagged_cons_of_ne _ (by simp [ht])]
  label := by rw [h.label, lastTagged_cons_of_ne _ (by simp [ht])]
  etAl := by
    rw [h.etAl, lastTagged_cons, if_pos ht]
    cases lastTagged "et-al" rest <;> rfl
  substitutes := by
    rw [substituteElements, tagged_cons_of_ne _ (by simp [ht])]
    exact h.substitutes

theorem cons_substitute {more : List Substitute} (ht : e.tag = "substitute")
    (hm : List.Forall₂ StandsFor e.elements more)
    (h : Gathers { before with substitutes := before.substitutes ++ more } rest after) :
    Gathers before (e :: rest) after where
  name := by rw [h.name, lastTagged_cons_of_ne _ (by simp [ht])]
  label := by rw [h.label, lastTagged_cons_of_ne _ (by simp [ht])]
  etAl := by rw [h.etAl, lastTagged_cons_of_ne _ (by simp [ht])]
  substitutes := by
    obtain ⟨subs, hs, ha⟩ := h.substitutes
    refine ⟨more ++ subs, ?_, by rw [ha, List.append_assoc]⟩
    rw [substituteElements, tagged_cons, if_pos ht, List.flatMap_cons]
    exact List.rel_append hm hs

end Gathers

def namesChildTags : List String := ["name", "label", "et-al", "substitute"]

theorem mem_namesChildTags {tag : String} {t : Tag} (ht : t.toString = tag)
    (h : t.toString ∈ namesChildTags) : tag ∈ namesChildTags := ht ▸ h

theorem gatherNames_eq_ok {children : List Node} {before after : NamesParts}
    (h : gatherNames before children = .ok after) :
    (∀ c ∈ Node.elements children, c.tag ∈ namesChildTags) ∧
      Gathers before (Node.elements children) after := by
  induction children generalizing before with
  | nil =>
    rw [gatherNames] at h
    obtain rfl := Except.ok.inj h
    exact ⟨by simp, rfl, rfl, rfl, [], .nil, (List.append_nil _).symm⟩
  | cons node rest ih =>
    cases node with
    | text value => rw [gatherNames] at h; exact ih h
    | element tag attributes children line =>
      rw [gatherNames] at h
      rw [Node.elements_element, List.forall_mem_cons]
      split at h
      · cases h
      · next hr =>
        have ht := resolveTag_eq_ok_iff.mp hr
        exact ⟨⟨mem_namesChildTags ht (by decide), (ih h).1⟩, .cons_name ht.symm (ih h).2⟩
      · next hr =>
        have ht := resolveTag_eq_ok_iff.mp hr
        exact ⟨⟨mem_namesChildTags ht (by decide), (ih h).1⟩, .cons_label ht.symm (ih h).2⟩
      · next hr =>
        have ht := resolveTag_eq_ok_iff.mp hr
        exact ⟨⟨mem_namesChildTags ht (by decide), (ih h).1⟩, .cons_etAl ht.symm (ih h).2⟩
      · next hr =>
        have ht := resolveTag_eq_ok_iff.mp hr
        split at h
        · cases h
        · next more hm =>
          exact ⟨⟨mem_namesChildTags ht (by decide), (ih h).1⟩,
            .cons_substitute ht.symm (compileSubstitutes_eq_ok_iff.mp hm) (ih h).2⟩
      · cases h

theorem compileSubstitutes_total {children : List Node}
    (h : ∀ e ∈ Node.elements children, ∃ s, StandsFor e s) :
    ∃ subs, compileSubstitutes children = .ok subs := by
  induction children with
  | nil => exact ⟨[], by rw [compileSubstitutes]⟩
  | cons node rest ih =>
    cases node with
    | text value =>
      obtain ⟨subs, hs⟩ := ih h
      exact ⟨subs, by rw [compileSubstitutes, hs]⟩
    | element tag attributes children line =>
      rw [Node.elements_element, List.forall_mem_cons] at h
      obtain ⟨s, hs⟩ := h.1
      obtain ⟨more, hm⟩ := ih h.2
      exact ⟨s :: more, compileSubstitutes_cons_eq_ok_iff.mpr ⟨s, more, hs, hm, rfl⟩⟩

theorem gatherNames_total {children : List Node} (before : NamesParts)
    (ht : ∀ c ∈ Node.elements children, c.tag ∈ namesChildTags)
    (hs : ∀ e ∈ substituteElements (Node.elements children), ∃ s, StandsFor e s) :
    ∃ after, gatherNames before children = .ok after := by
  induction children generalizing before with
  | nil => exact ⟨before, by rw [gatherNames]⟩
  | cons node rest ih =>
    cases node with
    | text value => rw [gatherNames]; exact ih _ ht hs
    | element tag attributes children line =>
      rw [Node.elements_element, List.forall_mem_cons] at ht
      obtain ⟨htag, ht⟩ := ht
      rw [Node.elements_element, substituteElements, tagged_cons] at hs
      rw [gatherNames]
      simp only [namesChildTags, List.mem_cons, List.not_mem_nil, or_false] at htag
      rcases htag with rfl | rfl | rfl | rfl
      · have hr : resolveTag "name" line = .ok .name := resolveTag_eq_ok_iff.mpr rfl
        rw [hr]
        exact ih _ ht hs
      · have hr : resolveTag "label" line = .ok .label := resolveTag_eq_ok_iff.mpr rfl
        rw [hr]
        exact ih _ ht hs
      · have hr : resolveTag "et-al" line = .ok .etAl := resolveTag_eq_ok_iff.mpr rfl
        rw [hr]
        exact ih _ ht hs
      · rw [if_pos rfl, List.flatMap_cons, List.forall_mem_append] at hs
        obtain ⟨more, hm⟩ := compileSubstitutes_total hs.1
        have hr : resolveTag "substitute" line = .ok .substitute := resolveTag_eq_ok_iff.mpr rfl
        have hm' : compileSubstitutes children = _ := hm
        rw [hr]
        simp only [hm']
        exact ih _ ht hs.2

/-! ## The whole element -/

/-- The settings of a `names` element: its attributes and those of the last child of each kind. -/
def Element.namesSettings (e : Element) : NamesSettings where
  names := e.attributes
  name := ((lastTagged "name" e.elements).map Element.attributes).getD {}
  parts := .ofList (partEntries (((lastTagged "name" e.elements).map Element.elements).getD []))
  etAl := ((lastTagged "et-al" e.elements).map Element.attributes).getD {}
  label := (lastTagged "label" e.elements).map Element.attributes

/-- The rules for a `names` element, those for its substitutes apart. -/
structure NamesAccepted (e : Element) : Prop where
  listed : variableList e.attributes ≠ []
  children : ∀ c ∈ e.elements, c.tag ∈ namesChildTags
  nameOrLabel : lastTagged "name" e.elements ≠ none ∨ lastTagged "label" e.elements ≠ none
  parts : ∀ part ∈ ((lastTagged "name" e.elements).map Element.elements).getD [],
    part.tag = "name-part"

def NamesParts.settings (parts : NamesParts) (attributes : Table String) : NamesSettings where
  names := attributes
  name := (parts.name.map Element.attributes).getD {}
  parts := .ofList (partEntries ((parts.name.map Element.elements).getD []))
  etAl := parts.etAl
  label := parts.label

theorem NamesParts.program_eq_ok_iff {parts : NamesParts} {vars : List String}
    {attributes : Table String} {line : Int} {p : Program} :
    parts.program vars attributes line = .ok p ↔
      (parts.name ≠ none ∨ parts.label ≠ none) ∧
      (∀ part ∈ (parts.name.map Element.elements).getD [], part.tag = "name-part") ∧
      p = .names vars (parts.settings attributes)
        (parts.substitutes.map (·.program (parts.settings attributes))) := by
  unfold NamesParts.program
  split
  · next hm =>
    have hn : ¬ (parts.name ≠ none ∨ parts.label ≠ none) := by simpa using hm
    simp [hn]
  · next hm =>
    have hn : parts.name ≠ none ∨ parts.label ≠ none := by
      by_contra hc
      simp only [not_or, not_not] at hc
      simp [hc] at hm
    split
    · next m hp =>
      have hf : ¬ ∀ part ∈ (parts.name.map Element.elements).getD [], part.tag = "name-part" :=
        fun hf => by rw [nameParts_eq_ok_iff.mpr ⟨hf, rfl⟩] at hp; cases hp
      simp [hf]
    · next entries hp =>
      obtain ⟨hf, rfl⟩ := nameParts_eq_ok_iff.mp hp
      exact ⟨fun h => ⟨hn, hf, (Except.ok.inj h).symm⟩, fun h => congrArg Except.ok h.2.2.symm⟩

theorem exists_of_forall₂ {α β : Type} {R : α → β → Prop} {xs : List α} {ys : List β}
    (h : List.Forall₂ R xs ys) : ∀ x ∈ xs, ∃ y, R x y := by
  induction h with
  | nil => simp
  | cons hxy _ ih => exact List.forall_mem_cons.mpr ⟨⟨_, hxy⟩, ih⟩

theorem exists_of_forall₂_right {α β : Type} {R : α → β → Prop} {xs : List α} {ys : List β}
    (h : List.Forall₂ R xs ys) : ∀ y ∈ ys, ∃ x ∈ xs, R x y := by
  induction h with
  | nil => simp
  | @cons x y xs ys hxy _ ih =>
    refine List.forall_mem_cons.mpr ⟨⟨x, List.mem_cons_self, hxy⟩, fun z hz => ?_⟩
    obtain ⟨w, hw, hwz⟩ := ih z hz
    exact ⟨w, List.mem_cons_of_mem _ hw, hwz⟩

theorem exists_forall₂_iff {α β : Type} {R : α → β → Prop} {xs : List α} :
    (∃ ys, List.Forall₂ R xs ys) ↔ ∀ x ∈ xs, ∃ y, R x y := by
  constructor
  · rintro ⟨ys, h⟩
    exact exists_of_forall₂ h
  · intro h
    induction xs with
    | nil => exact ⟨[], .nil⟩
    | cons x rest ih =>
      obtain ⟨⟨y, hy⟩, hrest⟩ := List.forall_mem_cons.mp h
      obtain ⟨ys, hys⟩ := ih hrest
      exact ⟨y :: ys, .cons hy hys⟩

theorem Gathers.settings {e : Element} {parts : NamesParts} (h : Gathers {} e.elements parts) :
    parts.settings e.attributes = e.namesSettings := by
  rw [NamesParts.settings, h.name, h.label, h.etAl, Option.or_none, Option.or_none]
  rfl

/-- **What the compiler keeps of a `names` element.** -/
theorem compile_names_eq_ok_iff {e : Element} {p : Program} (ht : e.tag = "names") :
    e.toNode.compile = .ok p ↔ NamesAccepted e ∧
      ∃ subs, List.Forall₂ StandsFor (substituteElements e.elements) subs ∧
        p = .names (variableList e.attributes) e.namesSettings
          (subs.map (·.program e.namesSettings)) := by
  have hr : resolveTag e.tag e.line = .ok .names := resolveTag_eq_ok_iff.mpr ht.symm
  rw [Element.toNode, Node.compile, hr]
  simp only [if_true]
  constructor
  · intro h
    split at h
    · cases h
    · next vars hv =>
      obtain ⟨hl, rfl⟩ := namesVariables_eq_ok_iff.mp hv
      split at h
      · cases h
      · next parts hg =>
        obtain ⟨hc, hga⟩ := gatherNames_eq_ok hg
        obtain ⟨hnl, hp, rfl⟩ := NamesParts.program_eq_ok_iff.mp h
        rw [hga.settings]
        obtain ⟨hn, hlab, -, subs, hs, ha⟩ := hga
        rw [Option.or_none] at hn hlab
        rw [hn, hlab, Ne, Ne, Option.map_eq_none_iff] at hnl
        rw [hn] at hp
        rw [List.nil_append] at ha
        exact ⟨⟨hl, hc, hnl, hp⟩, subs, hs, by rw [ha]⟩
  · rintro ⟨⟨hl, hc, hnl, hp⟩, subs, hs, rfl⟩
    rw [namesVariables_eq_ok_iff.mpr ⟨hl, rfl⟩]
    obtain ⟨parts, hg⟩ := gatherNames_total {} hc (exists_of_forall₂ hs)
    obtain ⟨-, hga⟩ := gatherNames_eq_ok hg
    have hset := hga.settings
    obtain ⟨hn, hlab, -, subs', hs', ha⟩ := hga
    have hu : Relator.RightUnique StandsFor := fun _ _ _ => StandsFor.det
    obtain rfl := hu.forall₂ hs hs'
    rw [Option.or_none] at hn hlab
    simp only [hg]
    refine NamesParts.program_eq_ok_iff.mpr ⟨?_, ?_, ?_⟩
    · rw [hn, hlab, Ne, Ne, Option.map_eq_none_iff]; exact hnl
    · rw [hn]; exact hp
    · rw [hset, ha, List.nil_append]

end CiteStyle
