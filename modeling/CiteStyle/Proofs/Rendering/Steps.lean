import CiteStyle.Proofs.Rendering.Refusal
import CiteStyle.Proofs.Rendering.Suppression

/-! # The steps of rendering

Where there are no names and no calls of macros, the tree settles what is done: every element is
rendered once, after all that stands in it and with one text for each of its children
(`trace_postOrder`). The context only settles what these texts are. -/

namespace CiteStyle

/-! ## Elements in the order in which they are rendered -/

mutual

/-- The elements of a tree, each after those that stand in it, left to right. -/
def Node.postOrder : Node → List Element
  | .text _ => []
  | .element tag attributes children line =>
    postOrderOf children ++ [⟨tag, attributes, children, line⟩]

def postOrderOf : List Node → List Element
  | [] => []
  | n :: rest => n.postOrder ++ postOrderOf rest

end

theorem Element.postOrder_toNode (e : Element) :
    e.toNode.postOrder = postOrderOf e.children ++ [e] := by
  rw [Element.toNode, Node.postOrder]

def Node.WithoutCalls (n : Node) : Prop :=
  ∀ e, n.Contains e → e.tag = "text" ∨ e.tag = "key" → e.attribute? "macro" = none

theorem Node.WithoutCalls.child {e : Element} {c : Node} (h : e.toNode.WithoutCalls)
    (hc : c ∈ e.children) : c.WithoutCalls := fun d hd => h d (.inside hc hd)

theorem Node.WithoutCalls.calledName? {e : Element} {t : Tag} (h : e.toNode.WithoutCalls)
    (ht : t.toString = e.tag) : calledName? t e.attributes = none := by
  rw [CiteStyle.calledName?]
  split
  · next hcalls =>
    refine h e (.top e) ?_
    rw [← ht]
    exact hcalls.imp (congrArg Tag.toString) (congrArg Tag.toString)
  · rfl

/-! ## One step -/

/-- What the steps rely on: an element that calls no macro is rendered without further steps. -/
def Primitives.StepsInCalls (prims : Primitives) : Prop :=
  ∀ (calls : Calls) (ctx : Context) {tag : Tag} {attributes : Table String}
    (children : List Output), calledName? tag attributes = none →
    (prims.element calls ctx tag attributes children).2 = []

theorem Primitives.LooksUpOnly.stepsInCalls {prims : Primitives} (hp : prims.LooksUpOnly) :
    prims.StepsInCalls := by
  intro calls ctx tag attributes children hn
  refine List.eq_nil_iff_forall_not_mem.mpr fun event he => ?_
  obtain ⟨name, run, hname, -⟩ := hp.element_steps he
  rw [hn] at hname
  cases hname

/-- The element that a step renders, by its tag and attributes. -/
def Event.heading? : Event → Option (Tag × Table String)
  | element tag attributes _ => some (tag, attributes)
  | nameList .. => none
  | count .. => none

section

variable (prims : Primitives) (macros : Table Program) (ctx : Context)

/-- The text that a child has for the element around it: its own, or that of its own rendering. -/
inductive GivesText : Node → String → Prop
  | text (value : String) : GivesText (.text value) value
  | element {e : Element} {p : Program} (h : e.toNode.compile = .ok p) :
      GivesText e.toNode (p.renderWith prims macros ctx).output.text

/-- The step that renders an element, from one text for each of its children in order. -/
inductive StepFor : Element → Event → Prop
  | step {e : Element} {t : Tag} {texts : List String} (ht : t.toString = e.tag)
      (h : List.Forall₂ (GivesText prims macros ctx) e.children texts) :
      StepFor e (.element t e.attributes texts)

variable {prims macros ctx}

theorem StepFor.heading?_eq {e : Element} {event : Event} (h : StepFor prims macros ctx e event) :
    event.heading? = (Tag.ofString? e.tag).map fun t => (t, e.attributes) := by
  cases h with
  | step ht _ =>
    rw [Tag.ofString?_eq_some_iff.mpr ht]
    rfl

theorem givesText_of_compile {n : Node} {p : Program} (h : n.compile = .ok p) :
    GivesText prims macros ctx n (p.output prims (macros.calls prims ctx) ctx).text := by
  cases n using Node.textOrElement with
  | text value =>
    obtain rfl := compile_text_eq_ok_iff.mp h
    rw [output_text]
    exact .text value
  | element e => exact .element h

/-! ## All steps -/

/-- The steps of a generic element: those of its children, its own, and those of the macro it
calls. -/
theorem trace_element (calls : Calls) (tag : Tag) (attributes : Table String)
    (ps : List Program) :
    ((Program.element tag attributes ps).run prims calls ctx).trace =
      (ps.flatMap fun p => (p.run prims calls ctx).trace) ++
        .element tag attributes (ps.map fun p => (p.output prims calls ctx).text) ::
          (prims.element calls ctx tag attributes (ps.map (·.output prims calls ctx))).2 := by
  rw [Program.run, runAll_eq_map, List.flatMap_map, List.map_map, List.map_map]
  rfl

variable (prims macros ctx) in
/-- The steps of a program are those for the elements of a tree, in order. -/
def Node.TakesSteps (n : Node) (p : Program) : Prop :=
  List.Forall₂ (StepFor prims macros ctx) n.postOrder (p.renderWith prims macros ctx).trace

theorem takesSteps_text {value : String} {p : Program} (h : (Node.text value).compile = .ok p) :
    (Node.text value).TakesSteps prims macros ctx p := by
  obtain rfl := compile_text_eq_ok_iff.mp h
  rw [Node.TakesSteps, Node.postOrder, Program.renderWith, Program.run]
  exact .nil

theorem takesSteps_all {nodes : List Node} {ps : List Program}
    (h : List.Forall₂ (Node.TakesSteps prims macros ctx) nodes ps) :
    List.Forall₂ (StepFor prims macros ctx) (postOrderOf nodes)
      (ps.flatMap fun p => (p.renderWith prims macros ctx).trace) := by
  induction h with
  | nil => exact .nil
  | cons hn _ ih => exact List.rel_append hn ih

/-- Which elements the steps render can be told from the tree alone. -/
theorem headings_eq {n : Node} {p : Program} (h : n.TakesSteps prims macros ctx p) :
    (p.renderWith prims macros ctx).trace.map Event.heading? =
      n.postOrder.map fun e => (Tag.ofString? e.tag).map fun t => (t, e.attributes) := by
  rw [eq_comm, ← List.forall₂_eq_eq_eq, List.forall₂_map_left_iff, List.forall₂_map_right_iff]
  exact h.imp fun _ _ hstep => hstep.heading?_eq.symm

theorem takesSteps_element (hp : prims.StepsInCalls) {e : Element} {p : Program}
    (hc : e.toNode.compile = .ok p) (hn : e.toNode.WithoutNames) (hm : e.toNode.WithoutCalls) :
    e.toNode.TakesSteps prims macros ctx p := by
  induction e using Element.induction generalizing p with
  | h e ih =>
    obtain ⟨t, ps, ht, -, hps, rfl⟩ := (compile_generic_eq_ok_iff (hn e (.top e))).mp hc
    have hchild (c : Node) (q : Program) (hmem : c ∈ e.children) (hq : c.compile = .ok q) :
        c.TakesSteps prims macros ctx q := by
      have hnc := hn.child hmem
      have hmc := hm.child hmem
      cases c using Node.textOrElement with
      | text value => exact takesSteps_text hq
      | element d => exact ih _ hmem d (.top d) hq hnc hmc
    have hmem : List.Forall₂ (fun c q => c ∈ e.children ∧ c.compile = .ok q) e.children ps :=
      (List.forall₂_and_left _ _).mpr ⟨fun _ h => h, hps⟩
    have hinside : List.Forall₂ (Node.TakesSteps prims macros ctx) e.children ps :=
      hmem.imp fun c q h => hchild c q h.1 h.2
    have htexts : List.Forall₂ (GivesText prims macros ctx) e.children
        (ps.map fun q => (q.output prims (macros.calls prims ctx) ctx).text) :=
      List.forall₂_map_right_iff.mpr (hps.imp fun _ _ hq => givesText_of_compile hq)
    rw [Node.TakesSteps, e.postOrder_toNode, Program.renderWith, trace_element,
      hp _ _ _ (hm.calledName? ht)]
    exact List.rel_append (takesSteps_all hinside) (.cons (.step ht htexts) .nil)

end

/-! ## Whole trees -/

/-- **What is rendered, and in which order.** A tree without names and without calls of macros is
rendered in one step for each of its elements, those inside an element before it, left to right.
Each step has the tag and the attributes of its element and one text for each child: a text is
passed on as it is, an element as what it renders by itself. Which elements the steps render does
not depend on the context. -/
theorem trace_postOrder {prims : Primitives} (hp : prims.StepsInCalls) {n : Node} {p : Program}
    (hc : n.compile = .ok p) (hn : n.WithoutNames) (hm : n.WithoutCalls) (macros : Table Program)
    (ctx : Context) :
    List.Forall₂ (StepFor prims macros ctx) n.postOrder (p.renderWith prims macros ctx).trace ∧
      ∀ macros' ctx', (p.renderWith prims macros' ctx').trace.map Event.heading? =
        (p.renderWith prims macros ctx).trace.map Event.heading? := by
  have hsteps (macros : Table Program) (ctx : Context) : n.TakesSteps prims macros ctx p := by
    cases n using Node.textOrElement with
    | text value => exact takesSteps_text hc
    | element e => exact takesSteps_element hp hc hn hm
  refine ⟨hsteps macros ctx, fun macros' ctx' => ?_⟩
  rw [headings_eq (hsteps macros' ctx'), headings_eq (hsteps macros ctx)]

def titleInBranch : Element := ⟨"group", .ofList [("delimiter", ": ")], [
  .text "see",
  .element "choose" {} [
    .element "if" (.ofList [("type", "book")]) [
      .element "text" (.ofList [("variable", "title")]) [] 3] 2,
    .element "else" {} [.text "nothing"] 4] 2,
  .element "number" (.ofList [("variable", "volume")]) [] 5], 1⟩

theorem titleInBranch_postOrder :
    Primitives.plainText.StepsInCalls ∧ titleInBranch.toNode.WithoutNames ∧
      titleInBranch.toNode.WithoutCalls ∧
      ∃ p, titleInBranch.toNode.compile = .ok p ∧
        List.Forall₂ (StepFor .plainText {} (titledItem "A" "E")) titleInBranch.toNode.postOrder
          (p.renderWith .plainText {} (titledItem "A" "E")).trace ∧
        titleInBranch.toNode.postOrder.map Element.tag =
          ["text", "if", "else", "choose", "number", "group"] ∧
        (p.renderWith .plainText {} {}).trace.map Event.heading? =
          (p.renderWith .plainText {} (titledItem "A" "E")).trace.map Event.heading? := by
  obtain ⟨p, hp⟩ : ∃ p, titleInBranch.toNode.compile = .ok p := ⟨_, rfl⟩
  have hall {P : Element → Prop} (h : ∀ e ∈ titleInBranch.toNode.allElements, P e) :
      ∀ e, titleInBranch.toNode.Contains e → P e :=
    fun e he => h e (mem_allElements_of_contains he)
  have hnames : titleInBranch.toNode.WithoutNames := hall (by decide)
  have hcalls : titleInBranch.toNode.WithoutCalls := hall (by decide +kernel)
  have hsteps := plainText_looksUpOnly.stepsInCalls
  obtain ⟨htrace, hsame⟩ := trace_postOrder hsteps hp hnames hcalls {} (titledItem "A" "E")
  exact ⟨hsteps, hnames, hcalls, p, hp, htrace, by decide, hsame {} {}⟩

end CiteStyle
