import CiteStyle.Proofs.Children
import CiteStyle.Rendering.Run
import Mathlib.Data.List.Forall2

/-! # Trees that differ in how texts are divided

One run of text may come as one child or as several. `Redivided` relates trees that are the same
apart from that; a parameter says which divisions are allowed where. The elements of such trees
correspond, with the same tags, attributes and lines (`Redivided.elements`), and so do their texts
where divisions keep them (`Element.Redivided.text_eq`). -/

namespace CiteStyle

/-- Where a text stands, as far as that matters: at the top of a document or of a style, among
children that are rendered, with the delimiter between their outputs unless texts are ignored, in
`names`, or anywhere else. -/
inductive Surroundings where
  | document
  | style
  | rendered (delimiter : Option String)
  | names
  | other
  deriving DecidableEq

/-- The surroundings inside an element. The attributes of a `macro` say nothing about its texts, and
those in a `citation` or `bibliography`, in `names` and in `substitute` are ignored. -/
def Surroundings.inside (around : Surroundings) (tag : String) (attributes : Table String) :
    Surroundings :=
  match around with
  | document => if tag = "style" then style else other
  | style =>
    if tag = "macro" then rendered (some "")
    else if tag = "citation" ∨ tag = "bibliography" then rendered none
    else other
  | rendered _ =>
    if tag = "names" then names else rendered (some (attributeOr attributes "delimiter"))
  | names => if tag = "substitute" then rendered none else other
  | other => other

/-- Which texts may come in place of which others, in given surroundings. -/
abbrev Division := Surroundings → List String → List String → Prop

def Division.swap (D : Division) : Division := fun around us ts => D around ts us

/-- Children that are the same, except that some texts are divided otherwise. -/
inductive Redivided (D : Division) : Surroundings → List Node → List Node → Prop
  | nil {around : Surroundings} : Redivided D around [] []
  | text {around : Surroundings} (value : String) {ns ns' : List Node}
      (h : Redivided D around ns ns') : Redivided D around (.text value :: ns) (.text value :: ns')
  | element {around : Surroundings} (tag : String) (attributes : Table String) (line : Int)
      {cs cs' ns ns' : List Node} (hc : Redivided D (around.inside tag attributes) cs cs')
      (h : Redivided D around ns ns') :
      Redivided D around (.element tag attributes cs line :: ns)
        (.element tag attributes cs' line :: ns')
  | divided {around : Surroundings} {us ts : List String} {ns ns' : List Node}
      (hd : D around us ts) (h : Redivided D around ns ns') :
      Redivided D around (us.map .text ++ ns) (ts.map .text ++ ns')

structure Element.Redivided (D : Division) (around : Surroundings) (e e' : Element) : Prop where
  tag : e'.tag = e.tag
  attributes : e'.attributes = e.attributes
  line : e'.line = e.line
  children :
    CiteStyle.Redivided D (around.inside e.tag e.attributes) e.children e'.children

theorem elements_texts_append (us : List String) (ns : List Node) :
    Node.elements (us.map .text ++ ns) = Node.elements ns := by
  induction us with
  | nil => rfl
  | cons u us ih => exact ih

variable {D : Division} {around : Surroundings}

namespace Redivided

variable {ns ns' : List Node}

theorem symm (h : Redivided D around ns ns') : Redivided D.swap around ns' ns := by
  induction h with
  | nil => exact .nil
  | text value _ ih => exact .text value ih
  | element tag attributes line _ _ ihc ih => exact .element tag attributes line ihc ih
  | divided hd _ ih => exact .divided hd ih

theorem append {ms ms' : List Node} (h : Redivided D around ns ns')
    (hm : Redivided D around ms ms') : Redivided D around (ns ++ ms) (ns' ++ ms') := by
  induction h with
  | nil => exact hm
  | text value _ ih => exact .text value (ih hm)
  | element tag attributes line hc _ _ ih => exact .element tag attributes line hc (ih hm)
  | divided hd _ ih =>
    rw [List.append_assoc, List.append_assoc]
    exact .divided hd (ih hm)

mutual

theorem refl_node (D : Division) : ∀ (around : Surroundings) (n : Node), Redivided D around [n] [n]
  | _, .text value => .text value .nil
  | _, .element tag attributes children line =>
    .element tag attributes line (refl D _ children) .nil

theorem refl (D : Division) : ∀ (around : Surroundings) (ns : List Node), Redivided D around ns ns
  | _, [] => .nil
  | around, n :: ns => (refl_node D around n).append (refl D around ns)

end

/-- Elements correspond one to one. -/
theorem elements (h : Redivided D around ns ns') :
    List.Forall₂ (Element.Redivided D around) (Node.elements ns) (Node.elements ns') := by
  induction h with
  | nil => exact .nil
  | text value _ ih => exact ih
  | element tag attributes line hc _ _ ih => exact .cons ⟨rfl, rfl, rfl, hc⟩ ih
  | divided hd _ ih =>
    rw [elements_texts_append, elements_texts_append]
    exact ih

/-- The texts in the same surroundings are the same if divisions keep them. -/
theorem join_eq (hD : ∀ us ts, D around us ts → String.join us = String.join ts)
    (h : Redivided D around ns ns') :
    String.join (ns.filterMap Node.text?) = String.join (ns'.filterMap Node.text?) := by
  have htexts (us : List String) (ms : List Node) :
      (us.map Node.text ++ ms).filterMap Node.text? = us ++ ms.filterMap Node.text? := by
    induction us with
    | nil => rfl
    | cons u us ih => exact congrArg (u :: ·) ih
  induction h with
  | nil => rfl
  | @text _ value ns ns' _ ih =>
    have hcons (ms : List Node) : (Node.text value :: ms).filterMap Node.text? =
        value :: ms.filterMap Node.text? := rfl
    rw [hcons, hcons, String.join_cons, String.join_cons, ih hD]
  | element tag attributes line _ _ _ ih => exact ih hD
  | divided hd _ ih =>
    rw [htexts, htexts, String.join_append, String.join_append, hD _ _ hd, ih hD]

end Redivided

namespace Element.Redivided

variable {e e' : Element}

theorem refl (D : Division) (around : Surroundings) (e : Element) : e.Redivided D around e :=
  ⟨rfl, rfl, rfl, .refl D _ _⟩

theorem symm (h : e.Redivided D around e') : e'.Redivided D.swap around e where
  tag := h.tag.symm
  attributes := h.attributes.symm
  line := h.line.symm
  children := by
    rw [h.tag, h.attributes]
    exact h.children.symm

theorem attribute?_eq (h : e.Redivided D around e') (name : String) :
    e'.attribute? name = e.attribute? name := by
  rw [Element.attribute?, h.attributes]
  rfl

theorem resolve_eq (h : e.Redivided D around e') : e'.resolve = e.resolve := by
  rw [Element.resolve, h.tag, h.line]
  rfl

theorem elements (h : e.Redivided D around e') :
    List.Forall₂ (Element.Redivided D (around.inside e.tag e.attributes)) e.elements
      e'.elements := h.children.elements

theorem toNode (h : e.Redivided D around e') :
    CiteStyle.Redivided D around [e.toNode] [e'.toNode] := by
  obtain ⟨tag, attributes, children, line⟩ := e
  obtain ⟨tag', attributes', children', line'⟩ := e'
  obtain ⟨rfl, rfl, rfl, h⟩ := h
  exact .element _ _ _ h .nil

theorem text_eq (h : e.Redivided D around e')
    (hD : ∀ around us ts, D around us ts → String.join us = String.join ts) :
    e'.text = e.text := (h.children.join_eq (hD _)).symm

end Element.Redivided

end CiteStyle
