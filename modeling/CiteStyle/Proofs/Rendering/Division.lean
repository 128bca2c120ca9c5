import CiteStyle.Proofs.Division
import CiteStyle.Proofs.Rendering.Grammar
import Mathlib.Data.Option.Defs

/-! # Compiling trees that differ in how texts are divided

Where texts are divided makes no difference to the rules of the compiler: an element compiles if the
other one does, and the programs differ in the same texts (`Element.Redivided.recompiles`). -/

namespace CiteStyle

/-- Programs side by side that are the same, except that some texts are divided otherwise. The
delimiter is what may be put between their outputs. -/
inductive RedividedPrograms (D : Division) : String → List Program → List Program → Prop
  | nil {delimiter : String} : RedividedPrograms D delimiter [] []
  | same {delimiter : String} (p : Program) {ps ps' : List Program}
      (h : RedividedPrograms D delimiter ps ps') :
      RedividedPrograms D delimiter (p :: ps) (p :: ps')
  | element {delimiter : String} (tag : Tag) (attributes : Table String)
      {cs cs' ps ps' : List Program}
      (hc : RedividedPrograms D (attributeOr attributes "delimiter") cs cs')
      (h : RedividedPrograms D delimiter ps ps') :
      RedividedPrograms D delimiter (.element tag attributes cs :: ps)
        (.element tag attributes cs' :: ps')
  | names {delimiter : String} (vars : List String) (settings : NamesSettings)
      {subs subs' ps ps' : List Program} (hs : RedividedPrograms D "" subs subs')
      (h : RedividedPrograms D delimiter ps ps') :
      RedividedPrograms D delimiter (.names vars settings subs :: ps)
        (.names vars settings subs' :: ps')
  | divided {delimiter : String} {us ts : List String} {ps ps' : List Program}
      (hd : D (.rendered (some delimiter)) us ts) (h : RedividedPrograms D delimiter ps ps') :
      RedividedPrograms D delimiter (us.map .text ++ ps) (ts.map .text ++ ps')

/-- A program that is the same as another, except that some texts in it are divided otherwise. -/
def Program.Redivided (D : Division) (p p' : Program) : Prop :=
  ∀ delimiter, RedividedPrograms D delimiter [p] [p']

variable {D : Division} {around : Surroundings} {delimiter : String}

theorem RedividedPrograms.append {ps ps' qs qs' : List Program}
    (h : RedividedPrograms D delimiter ps ps') (hq : RedividedPrograms D delimiter qs qs') :
    RedividedPrograms D delimiter (ps ++ qs) (ps' ++ qs') := by
  induction h with
  | nil => exact hq
  | same p _ ih => exact .same p (ih hq)
  | element tag attributes hc _ _ ih => exact .element tag attributes hc (ih hq)
  | names vars settings hs _ _ ih => exact .names vars settings hs (ih hq)
  | divided hd _ ih =>
    rw [List.append_assoc, List.append_assoc]
    exact .divided hd (ih hq)

theorem RedividedPrograms.of_forall₂ {ps ps' : List Program}
    (h : List.Forall₂ (Program.Redivided D) ps ps') : RedividedPrograms D delimiter ps ps' := by
  induction h with
  | nil => exact .nil
  | cons hp _ ih => exact (hp delimiter).append ih

/-! ## The children of an element -/

/-- Elements that compile alike where substitutes may stand, if the first compiles at all. -/
structure Element.Recompiles (D : Division) (e e' : Element) : Prop where
  shorthand : isShorthand e'.tag e'.children = isShorthand e.tag e.children
  attributes : e'.attributes = e.attributes
  compile : ∀ p, e.toNode.compile = .ok p →
    ∃ p', e'.toNode.compile = .ok p' ∧ p.Redivided D p'

theorem Element.Recompiles.standsFor {e e' : Element} {s : Substitute} (h : e.Recompiles D e')
    (hs : StandsFor e s) : ∃ s', StandsFor e' s' ∧
      ∀ settings, (s.program settings).Redivided D (s'.program settings) := by
  cases hs with
  | shorthand hf hv =>
    rw [← h.attributes] at hv ⊢
    exact ⟨_, .shorthand (h.shorthand.trans hf) hv, fun _ _ => .same _ .nil⟩
  | full hf hp =>
    obtain ⟨p', hp', hsame⟩ := h.compile _ hp
    exact ⟨.full p', .full (h.shorthand.trans hf) hp', fun _ => hsame⟩

theorem exists_standsFor {es es' : List Element} {subs : List Substitute}
    (h : List.Forall₂ (Element.Recompiles D) es es') (hs : List.Forall₂ StandsFor es subs) :
    ∃ subs', List.Forall₂ StandsFor es' subs' ∧ ∀ settings,
      List.Forall₂ (Program.Redivided D) (subs.map (·.program settings))
        (subs'.map (·.program settings)) := by
  induction h generalizing subs with
  | nil =>
    cases hs
    exact ⟨[], .nil, fun _ => .nil⟩
  | cons he _ ih =>
    cases hs with
    | cons hx hrest =>
      obtain ⟨s', hs', hsame⟩ := he.standsFor hx
      obtain ⟨subs', hsubs', hrest'⟩ := ih hrest
      exact ⟨s' :: subs', .cons hs' hsubs',
        fun settings => .cons (hsame settings) (hrest' settings)⟩

theorem compile_texts_append_iff {us : List String} {ns : List Node} {ps : List Program} :
    List.Forall₂ (fun n p => n.compile = .ok p) (us.map .text ++ ns) ps ↔
      ∃ qs, List.Forall₂ (fun n p => n.compile = .ok p) ns qs ∧ ps = us.map .text ++ qs := by
  induction us generalizing ps with
  | nil => simp
  | cons u us ih =>
    rw [List.map_cons, List.cons_append, List.forall₂_cons_left_iff]
    simp only [compile_text_eq_ok_iff, ih]
    constructor
    · rintro ⟨_, _, rfl, ⟨qs, hqs, rfl⟩, rfl⟩
      exact ⟨qs, hqs, rfl⟩
    · rintro ⟨qs, hqs, rfl⟩
      exact ⟨_, _, rfl, ⟨qs, hqs, rfl⟩, rfl⟩

/-- Children compile if their elements do. -/
theorem exists_programs {ns ns' : List Node} {ps : List Program}
    (h : Redivided D (.rendered (some delimiter)) ns ns')
    (he : List.Forall₂ (Element.Recompiles D) (Node.elements ns) (Node.elements ns'))
    (hp : List.Forall₂ (fun n p => n.compile = .ok p) ns ps) :
    ∃ ps', List.Forall₂ (fun n p => n.compile = .ok p) ns' ps' ∧
      RedividedPrograms D delimiter ps ps' := by
  generalize haround : Surroundings.rendered (some delimiter) = around at h
  induction h generalizing ps with
  | nil =>
    cases hp
    exact ⟨[], .nil, .nil⟩
  | text value _ ih =>
    cases hp with
    | cons hx hrest =>
      obtain ⟨ps', hps', hsame⟩ := ih he hrest haround
      exact ⟨_, .cons hx hps', .same _ hsame⟩
  | element tag attributes line _ _ _ ih =>
    cases hp with
    | cons hx hrest =>
      cases he with
      | cons hhere he =>
        obtain ⟨p', hp', hone⟩ := hhere.compile _ hx
        obtain ⟨ps', hps', hsame⟩ := ih he hrest haround
        exact ⟨p' :: ps', .cons hp' hps', (hone delimiter).append hsame⟩
  | divided hdivided _ ih =>
    rw [elements_texts_append, elements_texts_append] at he
    obtain ⟨qs, hqs, rfl⟩ := compile_texts_append_iff.mp hp
    obtain ⟨qs', hqs', hsame⟩ := ih he hqs haround
    rw [← haround] at hdivided
    exact ⟨_, compile_texts_append_iff.mpr ⟨qs', hqs', rfl⟩, .divided hdivided hsame⟩

/-! ## One element -/

theorem lastTagged_redivided {es es' : List Element} (tag : String)
    (h : List.Forall₂ (Element.Redivided D around) es es') :
    Option.Rel (Element.Redivided D around) (lastTagged tag es) (lastTagged tag es') := by
  induction h with
  | nil => exact .none
  | cons he _ ih =>
    rw [lastTagged_cons, lastTagged_cons, he.tag]
    generalize lastTagged tag _ = last at ih ⊢
    generalize lastTagged tag _ = last' at ih ⊢
    cases ih with
    | some hlast => exact .some hlast
    | none =>
      rw [Option.none_or, Option.none_or]
      split
      · exact .some he
      · exact .none

theorem tags_redivided {es es' : List Element}
    (h : List.Forall₂ (Element.Redivided D around) es es') :
    es'.map Element.tag = es.map Element.tag := by
  induction h with
  | nil => rfl
  | cons he _ ih => rw [List.map_cons, List.map_cons, he.tag, ih]

namespace Element.Redivided

variable {e e' : Element}

theorem isShorthand_eq (h : e.Redivided D around e') :
    isShorthand e'.tag e'.children = isShorthand e.tag e.children := by
  have hlength := h.elements.length_eq
  have hempty : (Node.elements e'.children).isEmpty = (Node.elements e.children).isEmpty := by
    rw [Bool.eq_iff_iff, List.isEmpty_iff_length_eq_zero, List.isEmpty_iff_length_eq_zero]
    exact hlength ▸ Iff.rfl
  rw [isShorthand, isShorthand, h.tag, hempty]

theorem lastTagged_attributes_eq (h : e.Redivided D around e') (tag : String) :
    (lastTagged tag e'.elements).map Element.attributes =
      (lastTagged tag e.elements).map Element.attributes := by
  have hlast := lastTagged_redivided tag h.elements
  generalize lastTagged tag e.elements = last at hlast ⊢
  generalize lastTagged tag e'.elements = last' at hlast ⊢
  cases hlast with
  | none => rfl
  | some hlast => exact congrArg some hlast.attributes

/-- What stands in the last `name` child. -/
theorem nameParts_redivided (h : e.Redivided D around e') : ∃ around',
    List.Forall₂ (Element.Redivided D around')
      (((lastTagged "name" e.elements).map Element.elements).getD [])
      (((lastTagged "name" e'.elements).map Element.elements).getD []) := by
  have hlast := lastTagged_redivided "name" h.elements
  generalize lastTagged "name" e.elements = last at hlast ⊢
  generalize lastTagged "name" e'.elements = last' at hlast ⊢
  cases hlast with
  | none => exact ⟨around, .nil⟩
  | some hlast => exact ⟨_, hlast.elements⟩

theorem namesSettings_eq (h : e.Redivided D around e') : e'.namesSettings = e.namesSettings := by
  obtain ⟨around', hparts⟩ := h.nameParts_redivided
  have hentries {es es' : List Element}
      (hes : List.Forall₂ (Element.Redivided D around') es es') :
      partEntries es' = partEntries es := by
    induction hes with
    | nil => rfl
    | cons he _ ih =>
      rw [partEntries, List.map_cons, ← partEntries, ih, he.attribute?_eq, he.attributes]
      rfl
  rw [Element.namesSettings, Element.namesSettings, h.attributes, h.lastTagged_attributes_eq,
    h.lastTagged_attributes_eq, h.lastTagged_attributes_eq, hentries hparts]

theorem namesAccepted (h : e.Redivided D around e') (ha : NamesAccepted e) : NamesAccepted e' where
  listed := by
    rw [h.attributes]
    exact ha.listed
  children := by
    rw [← List.forall_mem_map (f := Element.tag) (P := (· ∈ namesChildTags)),
      tags_redivided h.elements, List.forall_mem_map]
    exact ha.children
  nameOrLabel := by
    have hlast (tag : String) :
        lastTagged tag e'.elements = none ↔ lastTagged tag e.elements = none := by
      rw [← Option.map_eq_none_iff (f := Element.attributes), h.lastTagged_attributes_eq,
        Option.map_eq_none_iff]
    rw [Ne, Ne, hlast, hlast]
    exact ha.nameOrLabel
  parts := by
    obtain ⟨around', hparts⟩ := h.nameParts_redivided
    rw [← List.forall_mem_map (f := Element.tag) (P := (· = "name-part")),
      tags_redivided hparts, List.forall_mem_map]
    exact ha.parts

/-- A `names` element compiles alike if its substitutes do. -/
theorem recompiles_names (h : e.Redivided D around e') (ht : e.tag = "names")
    (hs : List.Forall₂ (Element.Recompiles D) (substituteElements e.elements)
      (substituteElements e'.elements)) : e.Recompiles D e' where
  shorthand := h.isShorthand_eq
  attributes := h.attributes
  compile p hp := by
    obtain ⟨haccepted, subs, hsubs, rfl⟩ := (compile_names_eq_ok_iff ht).mp hp
    obtain ⟨subs', hsubs', hsame⟩ := exists_standsFor hs hsubs
    refine ⟨_, (compile_names_eq_ok_iff (h.tag.trans ht)).mpr
      ⟨h.namesAccepted haccepted, subs', hsubs', rfl⟩, fun _ => ?_⟩
    rw [h.namesSettings_eq, h.attributes]
    exact .names _ _ (.of_forall₂ (hsame _)) .nil

/-- Any other element compiles alike if the elements in it do. -/
theorem recompiles_generic (h : e.Redivided D around e') (ht : e.tag ≠ "names")
    (haround : around.inside e.tag e.attributes =
      .rendered (some (attributeOr e.attributes "delimiter")))
    (hc : List.Forall₂ (Element.Recompiles D) e.elements e'.elements) : e.Recompiles D e' where
  shorthand := h.isShorthand_eq
  attributes := h.attributes
  compile p hp := by
    obtain ⟨known, ps, htag, hgeneric, hps, rfl⟩ := (compile_generic_eq_ok_iff ht).mp hp
    obtain ⟨ps', hps', hsame⟩ := exists_programs (haround ▸ h.children) hc hps
    refine ⟨.element known e'.attributes ps',
      (compile_generic_eq_ok_iff (h.tag ▸ ht)).mpr
        ⟨known, ps', htag.trans h.tag.symm, hgeneric, hps', rfl⟩, fun _ => ?_⟩
    rw [h.attributes]
    exact .element known _ hsame .nil

end Element.Redivided

/-- What is known of children that are the same apart from divisions, by where they stand. -/
structure RecompiledIn (D : Division) (around : Surroundings) (es es' : List Element) : Prop where
  rendered {delimiter : Option String} (h : around = .rendered delimiter) :
    List.Forall₂ (Element.Recompiles D) es es'
  names (h : around = .names) :
    List.Forall₂ (Element.Recompiles D) (substituteElements es) (substituteElements es')

theorem Element.Redivided.recompiles_of_children {e e' : Element} {delimiter : Option String}
    (h : e.Redivided D (.rendered delimiter) e')
    (hc : RecompiledIn D (Surroundings.inside (.rendered delimiter) e.tag e.attributes)
      e.elements e'.elements) : e.Recompiles D e' := by
  by_cases ht : e.tag = "names"
  · exact h.recompiles_names ht (hc.names (if_pos ht))
  · exact h.recompiles_generic ht (if_neg ht) (hc.rendered (if_neg ht))

/-- Elements compile alike where they are compiled: among rendered children, and in the `substitute`
children of `names`. -/
theorem Redivided.recompiled {ns ns' : List Node} (h : Redivided D around ns ns') :
    RecompiledIn D around (Node.elements ns) (Node.elements ns') := by
  induction h with
  | nil => exact ⟨fun _ => .nil, fun _ => .nil⟩
  | text value _ ih => exact ih
  | @element around tag attributes line cs cs' ns ns' hc _ ihc ih =>
    have he : Element.Redivided D around ⟨tag, attributes, cs, line⟩
        ⟨tag, attributes, cs', line⟩ := ⟨rfl, rfl, rfl, hc⟩
    constructor
    · rintro delimiter rfl
      exact .cons (he.recompiles_of_children ihc) (ih.rendered rfl)
    · rintro rfl
      rw [Node.elements_element, Node.elements_element, substituteElements, substituteElements,
        tagged_cons, tagged_cons]
      split
      · next ht => exact List.rel_append (ihc.rendered (if_pos ht)) (ih.names rfl)
      · exact ih.names rfl
  | divided _ _ ih =>
    rw [elements_texts_append, elements_texts_append]
    exact ih

/-- **Where texts are divided makes no difference to the compiler.** -/
theorem Element.Redivided.recompiles {e e' : Element} {delimiter : Option String}
    (h : e.Redivided D (.rendered delimiter) e') : e.Recompiles D e' :=
  h.recompiles_of_children (Redivided.recompiled h.children)

end CiteStyle
