import CiteStyle.Document
import CiteStyle.Proofs.Tree
import Mathlib.Data.List.Chain

/-! # Trees written as texts

Which trees a text can hold (`Node.Storable`), and what their texts look like: attributes in order
and in double quotes, some characters as references, and white space where it is next to no text.
There are many texts of a tree, and `Node.written` is the plainest of them. A text says where its
elements stand, so `ContentWritten` gives the tree once more with the lines that it has in the
text. -/

namespace CiteStyle

namespace Xml

open Text (isHexDigit numeral)

def isName : List Char → Bool
  | [] => false
  | c :: r => isNameStart c && r.all isNamePart

def isFiller (c : Char) : Bool := c == ' ' || c == '\t' || c == '\n'

/-- The characters that are never written as they are. -/
def reservedCharacters : List Char := ['&', '<', '>', '"', '\t', '\n', '\r']

/-- A character written in a text or a value: as it is, by a name that every document knows, or by
its number. -/
inductive CharWritten (c : Char) : List Char → Prop
  | plain (h : c ∉ reservedCharacters) : CharWritten c [c]
  | named {name : String} (h : predefined? name = some c) :
      CharWritten c ('&' :: (name.toList ++ [';']))
  | decimal {digits : List Char} (h : ∀ d ∈ digits, d.isDigit = true)
      (hc : numeral 10 digits = c.toNat) : CharWritten c ('&' :: '#' :: (digits ++ [';']))
  | hexadecimal {digits : List Char} (h : ∀ d ∈ digits, isHexDigit d = true)
      (hc : numeral 16 digits = c.toNat) : CharWritten c ('&' :: '#' :: 'x' :: (digits ++ [';']))

inductive TextWritten : List Char → List Char → Prop
  | nil : TextWritten [] []
  | cons {c : Char} {s p written : List Char} (hc : CharWritten c p) (hs : TextWritten s written) :
      TextWritten (c :: s) (p ++ written)

/-- Attributes written in their order, with white space before each and at the end. -/
inductive AttributesWritten : List (String × String) → List Char → Prop
  | nil {space : List Char} (hspace : ∀ c ∈ space, isFiller c = true) : AttributesWritten [] space
  | cons {name value : String} {entries : List (String × String)} {space spelled rest : List Char}
      (hspace : ∀ c ∈ space, isFiller c = true) (hsome : space ≠ [])
      (hvalue : TextWritten value.toList spelled) (hrest : AttributesWritten entries rest) :
      AttributesWritten ((name, value) :: entries)
        (space ++ (name.toList ++ '=' :: '"' :: (spelled ++ '"' :: rest)))

/-- How a start tag ends, be it that its element ends as well. -/
def tagEnd (closed : Bool) : List Char := if closed then ['/', '>'] else ['>']

def openingTag (tag : String) (attributes : List Char) (closed : Bool) : List Char :=
  '<' :: (tag.toList ++ (attributes ++ tagEnd closed))

def closingTag (tag : String) : List Char := '<' :: '/' :: (tag.toList ++ ['>'])

/-- White space where no text stands before it. -/
structure IsGap (afterText : Bool) (s : List Char) : Prop where
  filler : ∀ c ∈ s, isFiller c = true
  apart : afterText = true → s = []

/-- Children written as content after the text `before`, and the same children on the lines on which
they stand then: the line feeds up to the end of a start tag are counted. Where a text has been
written before, neither white space nor another text may follow. -/
inductive ContentWritten :
    List Char → Bool → List Node → List Char → List Node → Prop
  | nil {before gap : List Char} {afterText : Bool} (hgap : IsGap afterText gap) :
      ContentWritten before afterText [] gap []
  | text {before written rest : List Char} {value : String} {nodes placed : List Node}
      (hvalue : TextWritten value.toList written)
      (hrest : ContentWritten (before ++ written) true nodes rest placed) :
      ContentWritten before false (.text value :: nodes) (written ++ rest) (.text value :: placed)
  | element {before gap attributes inside rest : List Char} {afterText : Bool} {e : Element}
      {nodes children placed : List Node} (hgap : IsGap afterText gap)
      (hattributes : AttributesWritten e.attributes.entries attributes)
      (hinside : ContentWritten (before ++ (gap ++ openingTag e.tag attributes false)) false
        e.children inside children)
      (hrest : ContentWritten
        (before ++ (gap ++ (openingTag e.tag attributes false ++ (inside ++ closingTag e.tag))))
        false nodes rest placed) :
      ContentWritten before afterText (e.toNode :: nodes)
        (gap ++ (openingTag e.tag attributes false ++ (inside ++ closingTag e.tag)) ++ rest)
        ((Element.mk e.tag e.attributes children
          (1 + (before ++ (gap ++ openingTag e.tag attributes false)).count '\n')).toNode :: placed)
  | empty {before gap attributes rest : List Char} {afterText : Bool} {e : Element}
      {nodes placed : List Node} (hgap : IsGap afterText gap) (hchildren : e.children = [])
      (hattributes : AttributesWritten e.attributes.entries attributes)
      (hrest : ContentWritten (before ++ (gap ++ openingTag e.tag attributes true)) false nodes rest
        placed) :
      ContentWritten before afterText (e.toNode :: nodes)
        (gap ++ openingTag e.tag attributes true ++ rest)
        ((Element.mk e.tag e.attributes []
          (1 + (before ++ (gap ++ openingTag e.tag attributes true)).count '\n')).toNode :: placed)

end Xml

/-! ## Trees that a text can hold -/

/-- Not two texts. -/
def Node.Apart (a b : Node) : Prop := a.text? = none ∨ b.text? = none

/-- An element with a tag that a text can hold. Its names have no colon and declare no namespace, and
the characters of its values may stand in documents. -/
structure Element.PlainTag (e : Element) : Prop where
  tag : Xml.isName e.tag.toList = true
  names : ∀ a ∈ e.attributes.entries, Xml.isName a.1.toList = true ∧ a.1 ≠ "xmlns"
  values : ∀ a ∈ e.attributes.entries, ∀ c ∈ a.2.toList, Xml.isChar c = true

/-- A tree that a text can hold. Its tags are plain, its texts are more than white space, and no two
of them are neighbours. -/
inductive Node.Storable : Node → Prop
  | text {value : String} (blank : Text.isAllBlank value.toList = false)
      (characters : ∀ c ∈ value.toList, Xml.isChar c = true) : Storable (.text value)
  | element {e : Element} (tag : e.PlainTag) (apart : e.children.IsChain Node.Apart)
      (children : ∀ c ∈ e.children, c.Storable) : Storable e.toNode

theorem Node.storable_text_iff {value : String} : (Node.text value).Storable ↔
    Text.isAllBlank value.toList = false ∧ ∀ c ∈ value.toList, Xml.isChar c = true := by
  constructor
  · intro h
    cases h with
    | text blank characters => exact ⟨blank, characters⟩
  · rintro ⟨blank, characters⟩
    exact .text blank characters

theorem Element.storable_iff {e : Element} : e.toNode.Storable ↔
    e.PlainTag ∧ e.children.IsChain Node.Apart ∧ ∀ c ∈ e.children, c.Storable := by
  constructor
  · intro h
    generalize hn : e.toNode = n at h
    cases h with
    | text => cases hn
    | @element d tag apart children =>
      obtain rfl : e = d := Element.eq_of_toNode_eq hn
      exact ⟨tag, apart, children⟩
  · rintro ⟨tag, apart, children⟩
    exact .element tag apart children

mutual

def Node.depth : Node → Nat
  | .text _ => 0
  | .element _ _ children _ => 1 + depthOf children

def depthOf : List Node → Nat
  | [] => 0
  | n :: rest => max n.depth (depthOf rest)

end

/-- An element written as a document, with white space around it. -/
def Element.WrittenAs (e : Element) (s : List Char) (placed : Element) : Prop :=
  Xml.ContentWritten [] false [e.toNode] s [placed.toNode]

/-! ## The plainest text of a tree -/

namespace Xml

/-- A character with a reference in its place if it needs one. -/
def escaped : Char → List Char
  | '&' => "&amp;".toList
  | '<' => "&lt;".toList
  | '>' => "&gt;".toList
  | '"' => "&quot;".toList
  | '\t' => "&#9;".toList
  | '\n' => "&#10;".toList
  | '\r' => "&#13;".toList
  | c => [c]

theorem charWritten_escaped (c : Char) : CharWritten c (escaped c) := by
  unfold escaped
  split
  · exact @CharWritten.named '&' "amp" rfl
  · exact @CharWritten.named '<' "lt" rfl
  · exact @CharWritten.named '>' "gt" rfl
  · exact @CharWritten.named '"' "quot" rfl
  · exact @CharWritten.decimal '\t' ['9'] (List.all_eq_true.mp (by decide)) (by decide)
  · exact @CharWritten.decimal '\n' ['1', '0'] (List.all_eq_true.mp (by decide)) (by decide)
  · exact @CharWritten.decimal '\r' ['1', '3'] (List.all_eq_true.mp (by decide)) (by decide)
  · refine .plain ?_
    simp_all [reservedCharacters]

theorem textWritten_escaped (s : List Char) : TextWritten s (s.flatMap escaped) := by
  induction s with
  | nil => exact .nil
  | cons c s ih => exact .cons (charWritten_escaped c) ih

/-- Attributes with one space before each. -/
def writtenAttributes : List (String × String) → List Char
  | [] => []
  | (name, value) :: rest =>
    [' '] ++ (name.toList ++
      '=' :: '"' :: (value.toList.flatMap escaped ++ '"' :: writtenAttributes rest))

theorem attributesWritten_writtenAttributes (entries : List (String × String)) :
    AttributesWritten entries (writtenAttributes entries) := by
  induction entries with
  | nil => exact .nil fun c hc => absurd hc List.not_mem_nil
  | cons a entries ih =>
    exact .cons (List.all_eq_true.mp (by decide)) (by simp) (textWritten_escaped _) ih

end Xml

mutual

/-- The plainest text of a tree: no white space between elements, an end tag for every element, and
references only where they are needed. -/
def Node.written : Node → List Char
  | .text value => value.toList.flatMap Xml.escaped
  | .element tag attributes children _ =>
    Xml.openingTag tag (Xml.writtenAttributes attributes.entries) false ++
      (writtenAll children ++ Xml.closingTag tag)

def writtenAll : List Node → List Char
  | [] => []
  | n :: rest => n.written ++ writtenAll rest

end

namespace Xml

/-- Nodes are written if the children of every element among them are. -/
theorem exists_contentWritten_of_children {nodes : List Node} (hapart : nodes.IsChain Node.Apart)
    (hinside : ∀ e : Element, e.toNode ∈ nodes → ∀ before, ∃ placed,
      ContentWritten before false e.children (writtenAll e.children) placed) :
    ∀ before afterText, (afterText = true → ∀ n ∈ nodes.head?, n.text? = none) →
      ∃ placed, ContentWritten before afterText nodes (writtenAll nodes) placed := by
  induction nodes with
  | nil => exact fun before afterText _ => ⟨[], .nil ⟨by simp [writtenAll], fun _ => rfl⟩⟩
  | cons n nodes ih =>
    intro before afterText hfirst
    obtain ⟨hnext, hrest⟩ := List.isChain_cons.mp hapart
    have ih := ih hrest fun e he => hinside e (List.mem_cons_of_mem n he)
    induction n using Node.textOrElement with
    | text value =>
      cases afterText with
      | true => cases hfirst rfl _ rfl
      | false =>
        obtain ⟨placed, hplaced⟩ := ih (before ++ value.toList.flatMap escaped) true fun _ m hm =>
          (hnext m hm).resolve_left (by simp [Node.text?])
        exact ⟨_, .text (textWritten_escaped _) hplaced⟩
    | element e =>
      have hgap : IsGap afterText [] := ⟨by simp, fun _ => rfl⟩
      have hattributes := attributesWritten_writtenAttributes e.attributes.entries
      obtain ⟨children, hchildren⟩ := hinside e List.mem_cons_self
        (before ++ ([] ++ openingTag e.tag (writtenAttributes e.attributes.entries) false))
      obtain ⟨placed, hplaced⟩ := ih _ false (by simp)
      exact ⟨_, .element hgap hattributes hchildren hplaced⟩

theorem exists_contentWritten {n : Node} (h : n.Storable) :
    ∀ e : Element, n = e.toNode → ∀ before, ∃ placed,
      ContentWritten before false e.children (writtenAll e.children) placed := by
  induction h with
  | text =>
    intro e he
    cases he
  | @element d _ apart _ ih =>
    intro e he before
    obtain rfl : d = e := Element.eq_of_toNode_eq he
    refine exists_contentWritten_of_children apart ?_ before false (by simp)
    exact fun c hc => ih _ hc c rfl

end Xml

/-! ## Trees without lines -/

def Node.unplaced : Node → Node := Node.mapLines fun _ => 0

def Element.unplaced : Element → Element := Element.mapLines fun _ => 0

theorem Element.toNode_unplaced (e : Element) : e.unplaced.toNode = e.toNode.unplaced :=
  e.toNode_mapLines _

theorem Element.unplaced_congr {e : Element} {children : List Node} (line : Int)
    (h : children.map Node.unplaced = e.children.map Node.unplaced) :
    (Element.mk e.tag e.attributes children line).toNode.unplaced = e.toNode.unplaced := by
  rw [← toNode_unplaced, ← toNode_unplaced]
  show (Element.mk e.tag e.attributes (children.map Node.unplaced) 0).toNode =
    (Element.mk e.tag e.attributes (e.children.map Node.unplaced) 0).toNode
  rw [h]

/-- On whatever lines a text puts elements, it is the text of the same tree. -/
theorem Xml.ContentWritten.map_unplaced {before s : List Char} {afterText : Bool}
    {nodes placed : List Node} (h : ContentWritten before afterText nodes s placed) :
    placed.map Node.unplaced = nodes.map Node.unplaced := by
  induction h with
  | nil => rfl
  | text _ _ ih => rw [List.map_cons, ih, List.map_cons]
  | element _ _ _ _ ihinside ihrest =>
    rw [List.map_cons, ihrest, List.map_cons, Element.unplaced_congr _ ihinside]
  | empty _ hchildren _ _ ih =>
    rw [List.map_cons, ih, List.map_cons, Element.unplaced_congr _ (by rw [hchildren])]

theorem Element.exists_writtenAs {e : Element} (h : e.toNode.Storable) :
    ∃ placed, e.WrittenAs e.toNode.written placed := by
  have hchildren (d : Element) (hd : d.toNode ∈ [e.toNode]) (before : List Char) :
      ∃ placed, Xml.ContentWritten before false d.children (writtenAll d.children) placed :=
    Xml.exists_contentWritten (List.mem_singleton.mp hd ▸ h) d rfl before
  obtain ⟨placed, hplaced⟩ := Xml.exists_contentWritten_of_children (List.isChain_singleton _)
    hchildren [] false (by simp)
  have hshape := hplaced.map_unplaced
  obtain ⟨n, rfl⟩ : ∃ n, placed = [n] :=
    List.length_eq_one_iff.mp (by simpa using congrArg List.length hshape)
  rw [writtenAll, writtenAll, List.append_nil] at hplaced
  induction n using Node.textOrElement with
  | text value => cases hshape
  | element d => exact ⟨d, hplaced⟩

end CiteStyle
