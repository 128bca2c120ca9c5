import CiteStyle.Proofs.Rendering.Calls
import CiteStyle.Proofs.Rendering.Grammar

/-! # Compiled positions

An element stands in a compiled position below generic elements and inside the `substitute` children
of `names`. Replacing it by one that compiles to the same output keeps the output of the whole tree
(`fillAll_replaces`): rendering is a congruence. -/

namespace CiteStyle

/-- An element around a compiled position: a generic one, or `names` with a `substitute` child. -/
inductive Frame where
  | generic (tag : String) (hn : tag ≠ "names") (attributes : Table String)
      (before after : List Node) (line : Int)
  | substitute (names : Table String) (partsBefore partsAfter : List Node) (namesLine : Int)
      (attributes : Table String) (before after : List Node) (line : Int)

/-- The element with an element in its position. -/
def Frame.around : Frame → Element → Element
  | generic tag _ attributes before after line, e =>
    ⟨tag, attributes, before ++ e.toNode :: after, line⟩
  | substitute names partsBefore partsAfter namesLine attributes before after line, e =>
    ⟨"names", names,
      partsBefore ++
        .element "substitute" attributes (before ++ e.toNode :: after) line :: partsAfter,
      namesLine⟩

/-- A tree with an element in a compiled position, the outermost frame first. -/
def fillAll (fs : List Frame) (e : Element) : Element := fs.foldr Frame.around e

theorem elements_append_toNode (before after : List Node) (e : Element) :
    Node.elements (before ++ e.toNode :: after) =
      Node.elements before ++ e :: Node.elements after := by
  rw [Node.elements, List.filterMap_append, List.filterMap_cons_some e.element?_toNode]
  rfl

theorem isShorthand_around (f : Frame) (e : Element) :
    isShorthand (f.around e).tag (f.around e).children = false := by
  cases f with
  | generic tag hn => simp [Frame.around, isShorthand, hn]
  | substitute names partsBefore partsAfter namesLine attributes before after line =>
    have he := elements_append_toNode partsBefore partsAfter
      ⟨"substitute", attributes, before ++ e.toNode :: after, line⟩
    rw [Frame.around, isShorthand]
    simp only [Element.toNode] at he ⊢
    simp [he]

/-! ## One member of a list -/

theorem forall₂_member {α β : Type} {R : α → β → Prop} {x : α} {before after : List α} {ys : List β}
    (h : List.Forall₂ R (before ++ x :: after) ys) :
    ∃ pre y post, List.Forall₂ R before pre ∧ R x y ∧ ys = pre ++ y :: post ∧
      ∀ x' y', R x' y' → List.Forall₂ R (before ++ x' :: after) (pre ++ y' :: post) := by
  induction before generalizing ys with
  | nil =>
    cases h with
    | cons hy hr => exact ⟨[], _, _, .nil, hy, rfl, fun _ _ h' => .cons h' hr⟩
  | cons b before ih =>
    cases h with
    | cons hb hr =>
      obtain ⟨pre, y, post, hpre, hy, rfl, hall⟩ := ih hr
      exact ⟨_ :: pre, y, post, .cons hb hpre, hy, rfl, fun x' y' h' => .cons hb (hall x' y' h')⟩

theorem forall₂_replaced {β : Type} {S : β → β → Prop} (hs : ∀ y, S y y) {y y' : β} (h : S y y')
    (pre post : List β) : List.Forall₂ S (pre ++ y :: post) (pre ++ y' :: post) :=
  List.rel_append (List.forall₂_same.mpr fun y _ => hs y)
    (.cons h (List.forall₂_same.mpr fun y _ => hs y))

theorem lastTagged_replace {tag : String} {s s' : Element} (before after : List Element)
    (hs : s.tag ≠ tag) (hs' : s'.tag ≠ tag) :
    lastTagged tag (before ++ s :: after) = lastTagged tag (before ++ s' :: after) := by
  rw [lastTagged, lastTagged, tagged_append, tagged_append, tagged_cons_of_ne _ hs,
    tagged_cons_of_ne _ hs']

/-! ## Programs with the same output -/

section

variable (prims : Primitives) (calls : Context → Calls)

def SameOutput (p p' : Program) : Prop :=
  ∀ ctx, p'.output prims (calls ctx) ctx = p.output prims (calls ctx) ctx

variable {prims calls}

theorem SameOutput.map_output {ps ps' : List Program}
    (h : List.Forall₂ (SameOutput prims calls) ps ps') (ctx : Context) :
    ps'.map (·.output prims (calls ctx) ctx) = ps.map (·.output prims (calls ctx) ctx) := by
  induction h with
  | nil => rfl
  | cons hp _ ih => rw [List.map_cons, List.map_cons, hp ctx, ih]

theorem SameOutput.element (tag : Tag) (attributes : Table String) {ps ps' : List Program}
    (h : List.Forall₂ (SameOutput prims calls) ps ps') :
    SameOutput prims calls (.element tag attributes ps) (.element tag attributes ps') := by
  intro ctx
  rw [output_element, output_element, SameOutput.map_output h]

theorem SameOutput.names (vars : List String) (settings : NamesSettings) {ps ps' : List Program}
    (h : List.Forall₂ (SameOutput prims calls) ps ps') :
    SameOutput prims calls (.names vars settings ps) (.names vars settings ps') := by
  intro ctx
  rw [output_names, output_names, SameOutput.map_output h]

/-! ## Nodes that compile to the same output -/

variable (prims calls)

/-- An element that can take the place of another wherever it is compiled: neither is a shorthand,
and it compiles to the same output if the other one compiles. -/
structure Element.Replaces (e e' : Element) : Prop where
  full : isShorthand e.tag e.children = false
  full' : isShorthand e'.tag e'.children = false
  compile : ∀ p, e.toNode.compile = .ok p →
    ∃ p', e'.toNode.compile = .ok p' ∧ SameOutput prims calls p p'

variable {prims calls} {e e' : Element}

theorem Element.Replaces.standsFor (h : e.Replaces prims calls e') (settings : NamesSettings)
    {s : Substitute} (hs : StandsFor e s) :
    ∃ s', StandsFor e' s' ∧ SameOutput prims calls (s.program settings) (s'.program settings) := by
  cases hs with
  | shorthand hf _ => rw [h.full] at hf; cases hf
  | full _ hp =>
    obtain ⟨p', hp', hsame⟩ := h.compile _ hp
    exact ⟨.full p', .full h.full' hp', hsame⟩

theorem Element.Replaces.generic (h : e.Replaces prims calls e') {tag : String} (hn : tag ≠ "names")
    (attributes : Table String) (before after : List Node) (line : Int) {p : Program}
    (hp : (Element.mk tag attributes (before ++ e.toNode :: after) line).toNode.compile = .ok p) :
    ∃ p', (Element.mk tag attributes (before ++ e'.toNode :: after) line).toNode.compile = .ok p' ∧
      SameOutput prims calls p p' := by
  obtain ⟨known, ps, ht, hg, hps, rfl⟩ := (compile_generic_eq_ok_iff hn).mp hp
  obtain ⟨pre, q, post, -, hq, rfl, hall⟩ := forall₂_member hps
  obtain ⟨q', hq', hsame⟩ := h.compile q hq
  exact ⟨.element known attributes (pre ++ q' :: post),
    (compile_generic_eq_ok_iff hn).mpr ⟨known, _, ht, hg, hall _ _ hq', rfl⟩,
    SameOutput.element known attributes (forall₂_replaced (fun _ _ => rfl) hsame pre post)⟩

/-- A `names` element whose `substitute` child `s` gives way to `s'`. -/
structure Element.SwapsSubstitute (n n' s s' : Element) : Prop where
  tag : n.tag = "names"
  tag' : n'.tag = "names"
  attributes : n'.attributes = n.attributes
  substitute : s.tag = "substitute"
  substitute' : s'.tag = "substitute"
  elements : ∃ before after,
    n.elements = before ++ s :: after ∧ n'.elements = before ++ s' :: after

namespace Element.SwapsSubstitute

variable {n n' s s' : Element}

theorem of_children (names : Table String) (before after : List Node) (line : Int) (s s' : Element)
    (hs : s.tag = "substitute") (hs' : s'.tag = "substitute") :
    SwapsSubstitute ⟨"names", names, before ++ s.toNode :: after, line⟩
      ⟨"names", names, before ++ s'.toNode :: after, line⟩ s s' where
  tag := rfl
  tag' := rfl
  attributes := rfl
  substitute := hs
  substitute' := hs'
  elements := ⟨Node.elements before, Node.elements after,
    elements_append_toNode before after s, elements_append_toNode before after s'⟩

theorem lastTagged_eq (hs : SwapsSubstitute n n' s s') {tag : String} (ht : tag ≠ "substitute") :
    lastTagged tag n'.elements = lastTagged tag n.elements := by
  obtain ⟨before, after, he, he'⟩ := hs.elements
  rw [he, he']
  exact lastTagged_replace before after (by rw [hs.substitute']; exact ht.symm)
    (by rw [hs.substitute]; exact ht.symm)

theorem namesSettings_eq (hs : SwapsSubstitute n n' s s') :
    n'.namesSettings = n.namesSettings := by
  rw [Element.namesSettings, Element.namesSettings, hs.attributes,
    hs.lastTagged_eq (by decide : "name" ≠ "substitute"),
    hs.lastTagged_eq (by decide : "label" ≠ "substitute"),
    hs.lastTagged_eq (by decide : "et-al" ≠ "substitute")]

theorem accepted (hs : SwapsSubstitute n n' s s') (h : NamesAccepted n) : NamesAccepted n' where
  listed := by rw [hs.attributes]; exact h.listed
  children := by
    obtain ⟨before, after, he, he'⟩ := hs.elements
    have hc := h.children
    rw [he, List.forall_mem_append, List.forall_mem_cons] at hc
    rw [he', List.forall_mem_append, List.forall_mem_cons]
    exact ⟨hc.1, by rw [hs.substitute']; decide, hc.2.2⟩
  nameOrLabel := by
    rw [hs.lastTagged_eq (by decide : "name" ≠ "substitute"),
      hs.lastTagged_eq (by decide : "label" ≠ "substitute")]
    exact h.nameOrLabel
  parts := by
    rw [hs.lastTagged_eq (by decide : "name" ≠ "substitute")]
    exact h.parts

end Element.SwapsSubstitute

theorem substituteElements_append {s : Element} (before after : List Element)
    (hs : s.tag = "substitute") :
    substituteElements (before ++ s :: after) =
      substituteElements before ++ s.elements ++ substituteElements after := by
  rw [substituteElements, tagged_append, tagged_cons, if_pos hs, List.flatMap_append,
    List.flatMap_cons, ← List.append_assoc]
  rfl

namespace Element.SwapsSubstitute

variable {n n' s s' : Element} {before after : List Element}

/-- What stands in one place among the substitutes has one place among the programs, after those of
the substitutes before it. -/
theorem compile_eq (hs : SwapsSubstitute n n' s s') {outer inner : List Element}
    (hn : n.elements = outer ++ s :: inner) (hn' : n'.elements = outer ++ s' :: inner)
    (he : s.elements = before ++ e :: after) (he' : s'.elements = before ++ e' :: after)
    {p : Program} (hp : n.toNode.compile = .ok p) :
    ∃ pre sub post, List.Forall₂ StandsFor (substituteElements outer ++ before) pre ∧
      StandsFor e sub ∧
      p = .names (variableList n.attributes) n.namesSettings
        (pre.map (·.program n.namesSettings) ++ sub.program n.namesSettings :: post) ∧
      ∀ sub', StandsFor e' sub' → n'.toNode.compile =
        .ok (.names (variableList n.attributes) n.namesSettings
          (pre.map (·.program n.namesSettings) ++ sub'.program n.namesSettings :: post)) := by
  obtain ⟨hacc, subs, hsubs, rfl⟩ := (compile_names_eq_ok_iff hs.tag).mp hp
  rw [hn, substituteElements_append _ _ hs.substitute, he, ← List.append_assoc, List.append_assoc,
    List.cons_append] at hsubs
  obtain ⟨pre, sub, post, hpre, hsub, rfl, hall⟩ := forall₂_member hsubs
  refine ⟨pre, sub, post.map (·.program n.namesSettings), hpre, hsub,
    by rw [List.map_append, List.map_cons], fun sub' hsub' => ?_⟩
  have hsubs' := hall e' sub' hsub'
  rw [← List.cons_append, ← List.append_assoc, List.append_assoc _ before, ← he',
    ← substituteElements_append _ _ hs.substitute', ← hn'] at hsubs'
  refine (compile_names_eq_ok_iff hs.tag').mpr ⟨hs.accepted hacc, _, hsubs', ?_⟩
  rw [hs.namesSettings_eq, hs.attributes, List.map_append, List.map_cons]

/-- Substitutes of `names` elements that give the same outputs give the same names. -/
theorem compile (hs : SwapsSubstitute n n' s s') (h : e.Replaces prims calls e')
    (he : s.elements = before ++ e :: after) (he' : s'.elements = before ++ e' :: after)
    {p : Program} (hp : n.toNode.compile = .ok p) :
    ∃ p', n'.toNode.compile = .ok p' ∧ SameOutput prims calls p p' := by
  obtain ⟨outer, inner, hn, hn'⟩ := hs.elements
  obtain ⟨pre, sub, post, -, hsub, rfl, hall⟩ := hs.compile_eq hn hn' he he' hp
  obtain ⟨sub', hsub', hsame⟩ := h.standsFor n.namesSettings hsub
  exact ⟨_, hall sub' hsub', SameOutput.names _ _ (forall₂_replaced (fun _ _ => rfl) hsame _ post)⟩

end Element.SwapsSubstitute

/-- A frame keeps what its position gives. -/
theorem Element.Replaces.around (h : e.Replaces prims calls e') (f : Frame) :
    (f.around e).Replaces prims calls (f.around e') where
  full := isShorthand_around f e
  full' := isShorthand_around f e'
  compile p hp := by
    cases f with
    | generic tag hn attributes before after line => exact h.generic hn _ _ _ _ hp
    | substitute names partsBefore partsAfter namesLine attributes before after line =>
      have hs := Element.SwapsSubstitute.of_children names partsBefore partsAfter namesLine
        ⟨"substitute", attributes, before ++ e.toNode :: after, line⟩
        ⟨"substitute", attributes, before ++ e'.toNode :: after, line⟩ rfl rfl
      exact hs.compile h (elements_append_toNode before after e)
        (elements_append_toNode before after e') hp

/-- **Rendering is a congruence.** What may replace an element may do so in any compiled
position. -/
theorem fillAll_replaces (h : e.Replaces prims calls e') (fs : List Frame) :
    (fillAll fs e).Replaces prims calls (fillAll fs e') := by
  induction fs with
  | nil => exact h
  | cons f rest ih => exact ih.around f

end

end CiteStyle
