import CiteStyle.Node

/-! # The elements of a tree

`Node.Contains` says which elements stand in a tree, and `Node.allElements` lists them.
`Element.induction` is complete induction on trees: what an element inherits from all elements
inside it holds of every element. `Node.mapLines` changes the lines of a tree and nothing else. -/

namespace CiteStyle

/-- An element stands in a tree, be it at the top. -/
inductive Node.Contains : Node → Element → Prop
  | top (e : Element) : Contains e.toNode e
  | inside {e d : Element} {c : Node} (hc : c ∈ e.children) (hd : c.Contains d) :
      Contains e.toNode d

theorem Element.eq_of_toNode_eq {e d : Element} (h : e.toNode = d.toNode) : e = d :=
  Option.some.inj (congrArg Node.element? h)

theorem mem_elements_iff {e : Element} {nodes : List Node} :
    e ∈ Node.elements nodes ↔ e.toNode ∈ nodes := by
  rw [Node.elements, List.mem_filterMap]
  constructor
  · rintro ⟨n, hn, he⟩
    exact Node.eq_toNode_of_element? he ▸ hn
  · intro h
    exact ⟨e.toNode, h, e.element?_toNode⟩

/-- A node is a text or an element. -/
theorem Node.textOrElement {P : Node → Prop} (text : ∀ value, P (.text value))
    (element : ∀ e : Element, P e.toNode) : ∀ n, P n
  | .text value => text value
  | .element tag attributes children line => element ⟨tag, attributes, children, line⟩

/-- What an element inherits from all elements inside it holds of every element. -/
theorem Element.induction {P : Element → Prop}
    (h : ∀ e : Element, (∀ c ∈ e.children, ∀ d, c.Contains d → P d) → P e) (e : Element) : P e := by
  have hall (n : Node) : ∀ d, n.Contains d → P d := by
    refine Node.rec (motive_1 := fun n => ∀ d, n.Contains d → P d)
      (motive_2 := fun nodes => ∀ c ∈ nodes, ∀ d, c.Contains d → P d) ?_ ?_ ?_ ?_ n
    · intro value d hd; cases hd
    · intro tag attributes children line ih d hd
      cases hd with
      | top => exact h _ ih
      | inside hc hd => exact ih _ hc d hd
    · simp
    · intro n rest hn hrest
      exact List.forall_mem_cons.mpr ⟨hn, hrest⟩
  exact hall e.toNode e (.top e)

mutual

/-- The elements of a tree in document order. -/
def Node.allElements : Node → List Element
  | .text _ => []
  | .element tag attributes children line =>
    ⟨tag, attributes, children, line⟩ :: allElementsOf children

def allElementsOf : List Node → List Element
  | [] => []
  | n :: rest => n.allElements ++ allElementsOf rest

end

theorem mem_allElementsOf_iff {nodes : List Node} {e : Element} :
    e ∈ allElementsOf nodes ↔ ∃ n ∈ nodes, e ∈ n.allElements := by
  induction nodes with
  | nil => simp [allElementsOf]
  | cons n rest ih => simp [allElementsOf, ih]

theorem mem_allElements_of_contains {n : Node} {e : Element} (h : n.Contains e) :
    e ∈ n.allElements := by
  induction h with
  | top e => rw [Element.toNode, Node.allElements]; exact List.mem_cons_self
  | inside hc _ ih =>
    rw [Element.toNode, Node.allElements]
    exact List.mem_cons_of_mem _ (mem_allElementsOf_iff.mpr ⟨_, hc, ih⟩)

/-! ## Lines -/

mutual

/-- A node with the lines of all elements in it changed. -/
def Node.mapLines (f : Int → Int) : Node → Node
  | .text value => .text value
  | .element tag attributes children line =>
    .element tag attributes (mapLinesOf f children) (f line)

def mapLinesOf (f : Int → Int) : List Node → List Node
  | [] => []
  | n :: rest => n.mapLines f :: mapLinesOf f rest

end

theorem mapLinesOf_eq_map (f : Int → Int) (nodes : List Node) :
    mapLinesOf f nodes = nodes.map (Node.mapLines f) := by
  induction nodes with
  | nil => rfl
  | cons n rest ih => rw [mapLinesOf, ih, List.map_cons]

def Element.mapLines (f : Int → Int) (e : Element) : Element :=
  ⟨e.tag, e.attributes, e.children.map (Node.mapLines f), f e.line⟩

theorem Element.toNode_mapLines (f : Int → Int) (e : Element) :
    (e.mapLines f).toNode = e.toNode.mapLines f := by
  rw [mapLines, toNode, toNode, Node.mapLines, mapLinesOf_eq_map]

end CiteStyle
