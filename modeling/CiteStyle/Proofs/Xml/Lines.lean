import CiteStyle.Proofs.Declaration
import CiteStyle.Proofs.Xml.Ending

/-! # Elements and their start tags

Every element that is read has its tag and its attributes from a start tag of the text, and its line
is the one on which that tag ends, counted by line feeds (`document_headed`). In particular every
element stands on a line (`parse_onLines`). The induction is on the content of an element, for any
property of tags, attributes and lines that start tags have. -/

namespace CiteStyle

/-- The tag, the attributes and the line of every element in a tree have a property together. -/
def Node.Headed (P : String → Table String → Int → Prop) (n : Node) : Prop :=
  ∀ d, n.Contains d → P d.tag d.attributes d.line

/-- Every element in a tree has a place. -/
def Node.OnLines (n : Node) : Prop := ∀ d, n.Contains d → 1 ≤ d.line

variable {P : String → Table String → Int → Prop}

theorem Node.headed_text (value : String) : (Node.text value).Headed P := by
  intro d hd
  cases hd

theorem Element.headed_iff {e : Element} :
    e.toNode.Headed P ↔ P e.tag e.attributes e.line ∧ ∀ c ∈ e.children, c.Headed P := by
  constructor
  · intro h
    exact ⟨h e (.top e), fun c hc d hd => h d (.inside hc hd)⟩
  · rintro ⟨hheading, hchildren⟩ d hd
    obtain ⟨tag, attributes, children, line⟩ := e
    cases hd with
    | top => exact hheading
    | inside hc hd => exact hchildren _ hc d hd

namespace Xml

/-! ## Open elements -/

/-- An open element and all that stands in it have a property of tags, attributes and lines. -/
structure Frame.Headed (P : String → Table String → Int → Prop) (f : Frame) : Prop where
  heading : P f.name.base f.attributes f.line
  children : ∀ c ∈ f.children, c.Headed P

variable {f : Frame}

theorem Frame.Headed.write (h : f.Headed P) (s : List Char) : (f.write s).Headed P :=
  ⟨h.heading, h.children⟩

theorem Frame.Headed.settle (h : f.Headed P) : f.settle.Headed P := by
  unfold Frame.settle
  split
  · exact ⟨h.heading, h.children⟩
  · exact ⟨h.heading, List.forall_mem_cons.mpr ⟨Node.headed_text _, h.children⟩⟩

theorem Frame.Headed.push (h : f.Headed P) {child : Element} (hc : child.toNode.Headed P) :
    (f.push child).Headed P :=
  ⟨h.heading, List.forall_mem_cons.mpr ⟨hc, h.children⟩⟩

theorem Frame.Headed.close (h : f.Headed P) : f.close.toNode.Headed P :=
  Element.headed_iff.mpr ⟨h.heading, fun c hc => h.settle.children c (List.mem_reverse.mp hc)⟩

/-- An element that has just been opened has nothing in it. -/
theorem Frame.headed_new {name : QName} {attributes : Table String} {line : Int} (scope : Scope)
    (h : P name.base attributes line) : (⟨name, attributes, line, scope, [], []⟩ : Frame).Headed P :=
  ⟨h, fun _ hc => absurd hc List.not_mem_nil⟩

theorem openElement_headed {line : Int} {top top' : Frame} {below below' : List Frame}
    {name : QName} {attributes : List Attribute} {closed : Bool}
    (hnew : P name.base (attributeTable attributes) line) (ht : top.Headed P)
    (hb : ∀ f ∈ below, f.Headed P)
    (h : openElement line top below name attributes closed = some (top', below')) :
    top'.Headed P ∧ ∀ f ∈ below', f.Headed P := by
  unfold openElement at h
  dsimp only at h
  split at h
  · split at h
    · cases h
      exact ⟨ht.settle.push (Frame.headed_new _ hnew).close, hb⟩
    · cases h
      exact ⟨Frame.headed_new _ hnew, List.forall_mem_cons.mpr ⟨ht.settle, hb⟩⟩
  · cases h

/-! ## Content -/

/-- A start tag with a given tag and attributes stands in a text, and a rest of the text begins
where it ends. -/
def StartTagIn (entities : Entities) (s : List Char) (tag : String) (attributes : Table String)
    (rest : List Char) : Prop :=
  ∃ u name given closed, '<' :: u <:+ s ∧ startTag entities u = .ok ((name, given, closed), rest) ∧
    name.base = tag ∧ attributeTable given = attributes

theorem StartTagIn.closes {entities : Entities} {s rest : List Char} {tag : String}
    {attributes : Table String} (h : StartTagIn entities s tag attributes rest) :
    '>' :: rest <:+ s := by
  obtain ⟨u, name, given, closed, hu, htag, -, -⟩ := h
  exact (closes_startTag htag).trans ((List.suffix_cons '<' u).trans hu)

theorem startTag_of_token {entities : Entities} {s r : List Char} {name : QName}
    {attributes : List Attribute} {closed : Bool}
    (h : token entities s = .ok (.opening name attributes closed, r)) :
    ∃ u, s = '<' :: u ∧ startTag entities u = .ok ((name, attributes, closed), r) := by
  unfold token at h
  split at h
  · cases h
  · next u =>
    refine ⟨u, rfl, ?_⟩
    unfold markup at h
    split at h <;> obtain ⟨x, hx, he⟩ := exists_of_map_eq_ok h
    all_goals cases he
    exact hx
  · obtain ⟨⟨x, t⟩, -, he⟩ := exists_of_map_eq_ok h
    obtain ⟨he, -⟩ := Prod.mk.inj he
    cases x with
    | character c => cases he
    | entity n =>
      dsimp only [Reference.token] at he
      split at he <;> cases he
  · cases h
  · split at h <;> cases h

/-- The elements of a text have a property if they have it whenever their start tags stand in the
text. -/
def StartTagsHave (P : String → Table String → Int → Prop) (setting : Setting) (s : List Char) :
    Prop :=
  ∀ {tag attributes rest}, StartTagIn setting.entities s tag attributes rest →
    P tag attributes (setting.lineOf rest)

theorem StartTagsHave.of_suffix {setting : Setting} {s r : List Char}
    (h : StartTagsHave P setting s) (hr : r <:+ s) : StartTagsHave P setting r := by
  rintro tag attributes rest ⟨u, name, given, closed, hu, htag⟩
  exact h ⟨u, name, given, closed, hu.trans hr, htag⟩

theorem content_headed {setting : Setting} {top : Frame} {below : List Frame} {s t : List Char}
    {root : Element} (hs : StartTagsHave P setting s) (ht : top.Headed P)
    (hb : ∀ f ∈ below, f.Headed P)
    (h : content setting top below s = .ok (.closed root t)) : root.toNode.Headed P := by
  fun_induction content setting top below s with
  | case1 => cases h
  | case2 => cases h
  | case3 top below c cs piece r hr ih =>
    exact ih (hs.of_suffix (suffix_of_token hr)) (ht.write piece) hb h
  | case4 top below c cs r hr ih => exact ih (hs.of_suffix (suffix_of_token hr)) ht.settle hb h
  | case5 top below c cs name r hr _ ih =>
    exact ih (hs.of_suffix (suffix_of_token hr)) ht.settle hb h
  | case6 => cases h
  | case7 top below c cs name attributes closed r hr top' below' hopen ih =>
    obtain ⟨u, hu, htag⟩ := startTag_of_token hr
    have hnew : P name.base (attributeTable attributes) (setting.lineOf r) :=
      hs ⟨u, name, attributes, closed, hu ▸ List.suffix_rfl, htag, rfl, rfl⟩
    obtain ⟨ht', hb'⟩ := openElement_headed hnew ht hb hopen
    exact ih (hs.of_suffix (suffix_of_token hr)) ht' hb' h
  | case8 => cases h
  | case9 =>
    cases h
    exact ht.close
  | case10 top c cs r f fs hr ih =>
    obtain ⟨hf, hfs⟩ := List.forall_mem_cons.mp hb
    exact ih (hs.of_suffix (suffix_of_token hr)) (hf.push ht.close) hfs h
  | case11 => cases h

theorem rootElement_headed {setting : Setting} {s t : List Char} {root : Element}
    (hs : StartTagsHave P setting ('<' :: s)) (h : rootElement setting s = .ok (root, t)) :
    root.toNode.Headed P := by
  unfold rootElement at h
  split at h
  · cases h
  · next name attributes closed r hr =>
    have hnew : P name.base (attributeTable attributes) (setting.lineOf r) :=
      hs ⟨s, name, attributes, closed, List.suffix_rfl, hr, rfl, rfl⟩
    have hrest : StartTagsHave P setting r :=
      hs.of_suffix (suffix_cons_of_suffix '<' (suffix_of_startTag hr))
    dsimp only at h
    split at h
    · split at h
      · cases h
        exact (Frame.headed_new _ hnew).close
      · split at h
        · cases h
        · next hc =>
          cases h
          exact content_headed hrest (Frame.headed_new _ hnew)
            (fun _ hf => absurd hf List.not_mem_nil) hc
        · cases h
    · cases h

/-! ## Documents -/

/-- The elements of a text are those of its start tags, each on the line on which its tag ends. -/
theorem document_headed {s : List Char} {root : Element} (h : document s = .ok root) :
    ∃ entities, root.toNode.Headed fun tag attributes line =>
      ∃ rest, StartTagIn entities s tag attributes rest ∧
        line = 1 + (s.count '\n' : Int) - rest.count '\n' := by
  obtain ⟨entities, u, v, hu, hroot, -⟩ := document_eq_ok h
  refine ⟨entities, rootElement_headed (fun htag => ⟨_, ?_, rfl⟩) hroot⟩
  obtain ⟨w, name, given, closed, hw, htag⟩ := htag
  exact ⟨w, name, given, closed, hw.trans hu, htag⟩

end Xml

/-- **Every element of a document has a place.** -/
theorem Document.parse_onLines {d : Document} {root : Element} (h : d.parse = .ok root) :
    root.toNode.OnLines := by
  intro e he
  obtain ⟨-, hread⟩ := Document.parse_eq_ok_iff.mp h
  obtain ⟨entities, hheaded⟩ := Xml.document_headed (Xml.read_eq_ok_iff.mp hread)
  obtain ⟨rest, htag, hline⟩ := hheaded e he
  have hcount := ((List.suffix_cons '>' rest).trans htag.closes).sublist.count_le '\n'
  omega

end CiteStyle
