import CiteStyle.Proofs.Xml.Parts
import Mathlib.Data.List.Nodup

/-! # Texts of trees are read back

Whatever text a tree is written as, the same tree is read from it (`written_tree_readBack`).

The reader keeps open elements on a stack, and text that it has read stays pending in the innermost
one until anything else comes. So `ReadBack` says of written children what reading them does to an
open element once its pending text is settled, whatever follows them. There is one step lemma for
each way in which written content goes on, and the induction is on how it is written. -/

namespace CiteStyle

namespace Xml

/-! ## Names without namespaces -/

theorem allDistinct_of_nodup {α : Type} [BEq α] [LawfulBEq α] {l : List α} (h : l.Nodup) :
    allDistinct l = true := by
  induction l with
  | nil => rfl
  | cons a l ih =>
    obtain ⟨ha, hl⟩ := List.nodup_cons.mp h
    rw [allDistinct, ih hl, Bool.and_true, Bool.not_eq_true', ← Bool.not_eq_true,
      List.contains_iff_mem]
    exact ha

variable {t : Table String}

theorem declared?_of_mem (ht : ∀ a ∈ t.entries, a.1 ≠ "xmlns") :
    ∀ a ∈ t.entries.map unqualified, a.name.declared? = none := by
  intro a ha
  obtain ⟨b, hb, rfl⟩ := List.mem_map.mp ha
  exact declared?_unqualified (ht b hb)

theorem enter_unqualified (scope : Scope) (ht : ∀ a ∈ t.entries, a.1 ≠ "xmlns") :
    scope.enter (t.entries.map unqualified) = scope := by
  have hplain := declared?_of_mem ht
  generalize t.entries.map unqualified = attributes at hplain
  induction attributes with
  | nil => rfl
  | cons a attributes ih =>
    obtain ⟨ha, hplain⟩ := List.forall_mem_cons.mp hplain
    rw [Scope.enter, List.foldl_cons, ha]
    exact ih hplain

theorem plainAttributes_unqualified (ht : ∀ a ∈ t.entries, a.1 ≠ "xmlns") :
    plainAttributes (t.entries.map unqualified) = t.entries.map unqualified := by
  refine List.filter_eq_self.mpr fun a ha => ?_
  rw [declared?_of_mem ht a ha]
  rfl

theorem attributeTable_unqualified (ht : ∀ a ∈ t.entries, a.1 ≠ "xmlns") :
    attributeTable (t.entries.map unqualified) = t := by
  rw [attributeTable, plainAttributes_unqualified ht, List.map_map]
  exact (congrArg Table.ofList (List.map_id _)).trans t.ofList_entries

theorem accepts_unqualified (scope : Scope) (tag : String)
    (ht : ∀ a ∈ t.entries, a.1 ≠ "xmlns") :
    scope.accepts ⟨none, tag⟩ (t.entries.map unqualified) = true := by
  have hnames : (t.entries.map unqualified).map Attribute.name =
      t.keys.map (QName.mk none) := by
    rw [Table.keys, List.map_map, List.map_map]
    rfl
  have hbinds : (t.keys.map (QName.mk none)).all scope.binds = true := by
    rw [List.all_map]
    exact List.all_eq_true.mpr fun _ _ => rfl
  have hdistinct : (t.keys.map (QName.mk none)).Nodup :=
    List.Nodup.map (fun a b h => congrArg QName.base h) t.distinct
  have hexpanded : ((t.keys.map (QName.mk none)).map scope.expand).Nodup := by
    rw [List.map_map]
    exact List.Nodup.map (fun a b h => (Prod.mk.inj h).2) t.distinct
  rw [Scope.accepts, plainAttributes_unqualified ht, hnames, hbinds,
    allDistinct_of_nodup hdistinct, allDistinct_of_nodup hexpanded]
  rfl

def Frame.opened (e : Element) (line : Int) (scope : Scope) : Frame :=
  ⟨⟨none, e.tag⟩, e.attributes, line, scope, [], []⟩

theorem openElement_unqualified {e : Element} (he : e.PlainTag) {top : Frame} {below : List Frame}
    (line : Int) (hdepth : below.length + 2 ≤ maxDepth) (closed : Bool) :
    openElement line top below ⟨none, e.tag⟩ (e.attributes.entries.map unqualified) closed =
      if closed then some (top.settle.push ⟨e.tag, e.attributes, [], line⟩, below)
      else some (.opened e line top.scope, top.settle :: below) := by
  have hnames : ∀ a ∈ e.attributes.entries, a.1 ≠ "xmlns" := fun a ha => (he.names a ha).2
  rw [openElement, enter_unqualified _ hnames, accepts_unqualified _ _ hnames,
    attributeTable_unqualified hnames]
  simp only [Bool.true_and, decide_eq_true_eq, if_pos hdepth]
  rfl

/-! ## Open elements -/

section Frames

variable {f : Frame}

def Frame.append (f : Frame) (nodes : List Node) : Frame :=
  { f with children := nodes.reverse ++ f.children }

theorem Frame.write_write (s u : List Char) : (f.write s).write u = f.write (s ++ u) := by
  rw [write, write, write, List.reverse_append, List.append_assoc]

theorem Frame.text_settle_push (f : Frame) (d : Element) : (f.settle.push d).text = [] := by
  unfold settle push
  split <;> rfl

theorem Frame.settle_of_text_eq_nil (h : f.text = []) : f.settle = f := by
  rw [settle, if_pos (by rw [h]; rfl), ← h]

theorem Frame.settle_write_gap {gap : List Char} {afterText : Bool} (hgap : IsGap afterText gap)
    (htext : afterText = false → f.text = []) : (f.write gap).settle = f.settle := by
  cases afterText with
  | true =>
    -- A gap would change the pending text, and there is none.
    rw [hgap.apart rfl]
    rfl
  | false =>
    have hblank : Text.isAllBlank (f.write gap).text = true := by
      rw [write, htext rfl, List.append_nil]
      refine List.all_eq_true.mpr fun c hc => ?_
      exact isBlank_of_isSpace (isSpace_of_isFiller (hgap.filler c (List.mem_reverse.mp hc)))
    rw [settle_of_text_eq_nil (htext rfl), settle, if_pos hblank, write, ← htext rfl]

theorem Frame.settle_write_text {value : String} (htext : f.text = [])
    (hvalue : Text.isAllBlank value.toList = false) :
    (f.write value.toList).settle = f.settle.append [.text value] := by
  have hblank : Text.isAllBlank (f.write value.toList).text = false := by
    rw [write, htext, List.append_nil, Text.isAllBlank, List.all_reverse]
    exact hvalue
  rw [settle_of_text_eq_nil htext, settle, if_neg (by rw [hblank]; exact Bool.false_ne_true), write,
    htext, List.append_nil, List.reverse_reverse, String.ofList_toList, append]
  simp [htext]

theorem Frame.settle_push (d : Element) (nodes : List Node) :
    (f.settle.push d).settle.append nodes = f.settle.append (d.toNode :: nodes) := by
  rw [settle_of_text_eq_nil (f.text_settle_push d), append, append, push, List.reverse_cons,
    List.append_assoc, List.singleton_append]

theorem Frame.close_of_settle {e : Element} {line : Int} {scope : Scope} {nodes : List Node}
    (h : f.settle = (opened e line scope).append nodes) :
    f.close = ⟨e.tag, e.attributes, nodes, line⟩ := by
  have hclose : f.close =
      ⟨f.settle.name.base, f.settle.attributes, f.settle.children.reverse, f.settle.line⟩ := by
    rw [close]
    unfold settle
    split <;> rfl
  rw [hclose, h, append]
  simp [opened]

theorem Frame.name_of_settle {e : Element} {line : Int} {scope : Scope} {nodes : List Node}
    (h : f.settle = (opened e line scope).append nodes) : f.name = ⟨none, e.tag⟩ := by
  have hname : f.settle.name = f.name := by
    unfold settle
    split <;> rfl
  rw [← hname, h]
  rfl

end Frames

/-! ## Content -/

theorem content_of_token_text {setting : Setting} {s piece r : List Char}
    (h : token setting.entities s = .ok (.text piece, r)) (top : Frame) (below : List Frame) :
    content setting top below s = content setting (top.write piece) below r := by
  cases s with
  | nil => cases h
  | cons c s => rw [content_cons, h]

theorem content_gap (setting : Setting) (top : Frame) (below : List Frame) {gap r : List Char}
    (hgap : ∀ c ∈ gap, isFiller c = true) :
    content setting top below (gap ++ r) = content setting (top.write gap) below r := by
  induction gap generalizing top with
  | nil => rfl
  | cons c gap ih =>
    obtain ⟨hc, hgap⟩ := List.forall_mem_cons.mp hgap
    rw [List.cons_append, content_of_token_text (token_filler _ hc), ih _ hgap, Frame.write_write,
      List.singleton_append]

theorem content_text (setting : Setting) (top : Frame) (below : List Frame)
    {s written r : List Char} (h : TextWritten s written) (hs : ∀ c ∈ s, isChar c = true) :
    content setting top below (written ++ '<' :: r) =
      content setting (top.write s) below ('<' :: r) := by
  induction h generalizing top with
  | nil => rfl
  | @cons c s p written hp hwritten ih =>
    obtain ⟨hc, hs⟩ := List.forall_mem_cons.mp hs
    have htoken := token_character (r := written ++ '<' :: r) setting.entities hp hc
      hwritten.no_sectionEnd
    rw [List.append_assoc, content_of_token_text htoken, ih _ hs, Frame.write_write,
      List.singleton_append]

def afterElement (setting : Setting) (e : Element) (r : List Char) :
    List Frame → Except Stop Ending
  | [] => .ok (.closed e r)
  | f :: below => content setting (f.push e) below r

theorem content_closing {setting : Setting} {top : Frame} {below : List Frame} {tag : String}
    {r : List Char} (htag : isName tag.toList = true) (htop : top.name = ⟨none, tag⟩) :
    content setting top below (closingTag tag ++ r) = afterElement setting top.close r below := by
  have htoken := token_closing (r := r) setting.entities htag
  have hname : tag = top.name.written := by rw [htop]; rfl
  rw [closingTag, List.cons_append] at htoken ⊢
  rw [content_cons, htoken]
  refine (if_pos hname).trans ?_
  cases below <;> rfl

theorem content_opening {setting : Setting} {top : Frame} {below : List Frame} {e : Element}
    {gap attributes r : List Char} {afterText : Bool} (he : e.PlainTag)
    (hgap : IsGap afterText gap) (htext : afterText = false → top.text = [])
    (hattributes : AttributesWritten e.attributes.entries attributes)
    (hdepth : below.length + 2 ≤ maxDepth) (closed : Bool) :
    content setting top below (gap ++ (openingTag e.tag attributes closed ++ r)) =
      if closed then
        content setting (top.settle.push ⟨e.tag, e.attributes, [], setting.lineOf r⟩) below r
      else content setting (.opened e (setting.lineOf r) top.scope) (top.settle :: below) r := by
  have htoken := token_opening (r := r) setting.entities he hattributes closed
  rw [content_gap setting top below hgap.filler]
  rw [openingTag, List.cons_append] at htoken ⊢
  rw [content_cons, htoken]
  simp only [openElement_unqualified he _ hdepth, Frame.settle_write_gap hgap htext]
  cases closed <;> rfl

theorem Setting.lineOf_eq {setting : Setting} {s r : List Char}
    (h : setting.lineCount = 1 + (s ++ r).count '\n') :
    setting.lineOf r = 1 + s.count '\n' := by
  rw [List.count_append] at h
  unfold lineOf
  omega

/-- Written children are read back: what is read behind them is read with these children added to
the open element, each on its line. -/
def ReadBack (setting : Setting) (before : List Char) (afterText : Bool) (nodes : List Node)
    (s : List Char) (placed : List Node) : Prop :=
  ∀ (r : List Char) (top : Frame) (below : List Frame),
    below.length + 1 + depthOf nodes ≤ maxDepth →
    -- Lines are counted back from the end, so the whole text is needed to know them.
    setting.lineCount = 1 + (before ++ (s ++ '<' :: r)).count '\n' →
    (afterText = false → top.text = []) →
    ∃ top', content setting top below (s ++ '<' :: r) = content setting top' below ('<' :: r) ∧
      top'.settle = top.settle.append placed

section Steps

variable {setting : Setting} {before gap attributes written inside rest : List Char}
  {afterText : Bool} {value : String} {e : Element} {nodes children placed : List Node}

theorem readBack_nil (hgap : IsGap afterText gap) :
    ReadBack setting before afterText [] gap [] := by
  intro r top below _ _ htext
  exact ⟨_, content_gap setting top below hgap.filler, Frame.settle_write_gap hgap htext⟩

/-- Nothing stands between a text and the next tag. -/
theorem ContentWritten.begins_after_text (h : ContentWritten before true nodes written placed)
    (r : List Char) : ∃ u, written ++ '<' :: r = '<' :: u := by
  cases h with
  | nil hgap =>
    rw [hgap.apart rfl]
    exact ⟨_, rfl⟩
  | element hgap _ _ _ =>
    rw [hgap.apart rfl]
    exact ⟨_, rfl⟩
  | empty hgap _ _ _ =>
    rw [hgap.apart rfl]
    exact ⟨_, rfl⟩

theorem readBack_text (hstorable : (Node.text value).Storable)
    (hvalue : TextWritten value.toList written)
    (hbegins : ∀ r, ∃ u, rest ++ '<' :: r = '<' :: u)
    (ih : ReadBack setting (before ++ written) true nodes rest placed) :
    ReadBack setting before false (.text value :: nodes) (written ++ rest)
      (.text value :: placed) := by
  intro r top below hdepth hlines htext
  obtain ⟨hblank, hchars⟩ := Node.storable_text_iff.mp hstorable
  obtain ⟨u, hu⟩ := hbegins r
  have hbelow : below.length + 1 + depthOf nodes ≤ maxDepth := by
    simp only [depthOf] at hdepth
    omega
  -- The text stays pending until the next tag, and no white space comes before that.
  obtain ⟨top', hcontent, hsettle⟩ := ih r (top.write value.toList) below hbelow
    (by simpa using hlines) (fun h => absurd h (by decide))
  refine ⟨top', ?_, ?_⟩
  · rw [List.append_assoc, hu, content_text setting top below hvalue hchars, ← hu, hcontent]
  · rw [hsettle, Frame.settle_write_text (htext rfl) hblank]
    simp [Frame.append]

/-- The children of an element are read back, and behind its end tag it is complete. -/
theorem ReadBack.complete (ih : ReadBack setting before false e.children inside children)
    (he : e.PlainTag) {below : List Frame} (line : Int) (scope : Scope) (r : List Char)
    (hdepth : below.length + 1 + depthOf e.children ≤ maxDepth)
    (hlines : setting.lineCount =
      1 + (before ++ (inside ++ (closingTag e.tag ++ r))).count '\n') :
    content setting (.opened e line scope) below (inside ++ (closingTag e.tag ++ r)) =
      afterElement setting ⟨e.tag, e.attributes, children, line⟩ r below := by
  obtain ⟨top, hcontent, hsettle⟩ := ih ('/' :: (e.tag.toList ++ ['>'] ++ r))
    (.opened e line scope) below hdepth hlines fun _ => rfl
  have hclose : top.close = ⟨e.tag, e.attributes, children, line⟩ := Frame.close_of_settle hsettle
  rw [← hclose]
  exact hcontent.trans (content_closing he.tag (Frame.name_of_settle hsettle))

/-- Children behind an element are read back if the element is read. -/
theorem readBack_cons {head : List Char} {d : Element}
    (hread : ∀ r top below, below.length + 1 + e.toNode.depth ≤ maxDepth →
      setting.lineCount = 1 + (before ++ (head ++ r)).count '\n' →
      (afterText = false → top.text = []) →
      content setting top below (head ++ r) = content setting (top.settle.push d) below r)
    (ih : ReadBack setting (before ++ head) false nodes rest placed) :
    ReadBack setting before afterText (e.toNode :: nodes) (head ++ rest) (d.toNode :: placed) := by
  intro r top below hdepth hlines htext
  obtain ⟨helement, hnodes⟩ : below.length + 1 + e.toNode.depth ≤ maxDepth ∧
      below.length + 1 + depthOf nodes ≤ maxDepth := by
    simp only [depthOf] at hdepth
    omega
  rw [List.append_assoc] at hlines ⊢
  obtain ⟨top', hcontent, hsettle⟩ := ih r (top.settle.push d) below hnodes
    (by rwa [List.append_assoc]) fun _ => top.text_settle_push d
  refine ⟨top', ?_, ?_⟩
  · rw [hread _ top below helement hlines htext, hcontent]
  · rw [hsettle, Frame.settle_push]

theorem readBack_element (he : e.PlainTag) (hgap : IsGap afterText gap)
    (hattributes : AttributesWritten e.attributes.entries attributes)
    (ihinside : ReadBack setting (before ++ (gap ++ openingTag e.tag attributes false)) false
      e.children inside children)
    (ihrest : ReadBack setting
      (before ++ (gap ++ (openingTag e.tag attributes false ++ (inside ++ closingTag e.tag))))
      false nodes rest placed) :
    ReadBack setting before afterText (e.toNode :: nodes)
      (gap ++ (openingTag e.tag attributes false ++ (inside ++ closingTag e.tag)) ++ rest)
      ((Element.mk e.tag e.attributes children
        (1 + (before ++ (gap ++ openingTag e.tag attributes false)).count '\n')).toNode ::
          placed) := by
  refine readBack_cons (fun r top below hdepth hlines htext => ?_) ihrest
  obtain ⟨hopen, hinside⟩ : below.length + 2 ≤ maxDepth ∧
      (below.length + 1) + 1 + depthOf e.children ≤ maxDepth := by
    simp only [Element.toNode, Node.depth] at hdepth
    omega
  simp only [List.append_assoc] at hlines ⊢
  rw [← List.append_assoc gap, ← List.append_assoc before] at hlines
  rw [content_opening he hgap htext hattributes hopen, Setting.lineOf_eq hlines]
  exact ihinside.complete he _ _ r hinside hlines

theorem readBack_empty (he : e.PlainTag) (hgap : IsGap afterText gap)
    (hattributes : AttributesWritten e.attributes.entries attributes)
    (ih : ReadBack setting (before ++ (gap ++ openingTag e.tag attributes true)) false nodes rest
      placed) :
    ReadBack setting before afterText (e.toNode :: nodes)
      (gap ++ openingTag e.tag attributes true ++ rest)
      ((Element.mk e.tag e.attributes []
        (1 + (before ++ (gap ++ openingTag e.tag attributes true)).count '\n')).toNode ::
          placed) := by
  refine readBack_cons (fun r top below hdepth hlines htext => ?_) ih
  have hopen : below.length + 2 ≤ maxDepth := by
    simp only [Element.toNode, Node.depth] at hdepth
    omega
  rw [← List.append_assoc] at hlines
  rw [List.append_assoc, content_opening he hgap htext hattributes hopen, Setting.lineOf_eq hlines]
  rfl

end Steps

/-- **Written content is read back.** Every way in which content goes on keeps what follows it
readable, so all of it is read, to any depth that the reader allows. -/
theorem ContentWritten.readBack {setting : Setting} {before s : List Char} {afterText : Bool}
    {nodes placed : List Node} (h : ContentWritten before afterText nodes s placed)
    (hstorable : ∀ n ∈ nodes, n.Storable) :
    ReadBack setting before afterText nodes s placed := by
  induction h with
  | nil hgap => exact readBack_nil hgap
  | text hvalue hrest ih =>
    obtain ⟨hvalue', hnodes⟩ := List.forall_mem_cons.mp hstorable
    exact readBack_text hvalue' hvalue hrest.begins_after_text (ih hnodes)
  | element hgap hattributes _ _ ihinside ihrest =>
    obtain ⟨he, hnodes⟩ := List.forall_mem_cons.mp hstorable
    obtain ⟨htag, -, hchildren⟩ := Element.storable_iff.mp he
    exact readBack_element htag hgap hattributes (ihinside hchildren) (ihrest hnodes)
  | empty hgap _ hattributes _ ih =>
    obtain ⟨he, hnodes⟩ := List.forall_mem_cons.mp hstorable
    exact readBack_empty (Element.storable_iff.mp he).1 hgap hattributes (ih hnodes)

/-! ## Written texts have no carriage returns -/

theorem joinLineEnds_eq_self {s : List Char} (h : '\r' ∉ s) : joinLineEnds s = s := by
  fun_induction joinLineEnds s with
  | case1 => rfl
  | case2 => exact absurd List.mem_cons_self h
  | case3 c rest _ ih =>
    rw [ih fun hr => h (List.mem_cons_of_mem c hr)]

theorem return_not_mem_name {s : List Char} (h : isName s = true) : '\r' ∉ s := by
  obtain ⟨c, t, rfl, hc, ht⟩ := isName_iff.mp h
  intro hr
  rcases List.mem_cons.mp hr with rfl | hr
  · exact absurd hc (by decide)
  · exact absurd (ht _ hr) (by decide)

theorem return_not_mem_filler {s : List Char} (h : ∀ c ∈ s, isFiller c = true) : '\r' ∉ s :=
  fun hr => absurd (h _ hr) (by decide)

theorem CharWritten.return_not_mem {c : Char} {p : List Char} (h : CharWritten c p) : '\r' ∉ p := by
  cases h with
  | plain h =>
    intro hr
    obtain rfl := List.mem_singleton.mp hr
    exact h (by decide)
  | named h => simp [return_not_mem_name (isName_of_predefined? h)]
  | decimal h _ =>
    have hdigits : '\r' ∉ _ := fun hr => absurd (h _ hr) (by decide)
    simp [hdigits]
  | hexadecimal h _ =>
    have hdigits : '\r' ∉ _ := fun hr => absurd (h _ hr) (by decide)
    simp [hdigits]

theorem TextWritten.return_not_mem {s written : List Char} (h : TextWritten s written) :
    '\r' ∉ written := by
  induction h with
  | nil => exact List.not_mem_nil
  | cons hc _ ih =>
    rw [List.mem_append, not_or]
    exact ⟨hc.return_not_mem, ih⟩

theorem AttributesWritten.return_not_mem {entries : List (String × String)} {written : List Char}
    (h : AttributesWritten entries written) (hnames : ∀ a ∈ entries, isName a.1.toList = true) :
    '\r' ∉ written := by
  induction h with
  | nil hspace => exact return_not_mem_filler hspace
  | cons hspace _ hvalue _ ih =>
    obtain ⟨hname, hnames⟩ := List.forall_mem_cons.mp hnames
    simp [return_not_mem_filler hspace, return_not_mem_name hname, hvalue.return_not_mem, ih hnames]

theorem return_not_mem_openingTag {e : Element} {attributes : List Char} (he : e.PlainTag)
    (h : AttributesWritten e.attributes.entries attributes) (closed : Bool) :
    '\r' ∉ openingTag e.tag attributes closed := by
  have hattributes := h.return_not_mem fun a ha => (he.names a ha).1
  cases closed <;> simp [openingTag, tagEnd, return_not_mem_name he.tag, hattributes]

theorem ContentWritten.return_not_mem {before s : List Char} {afterText : Bool}
    {nodes placed : List Node} (h : ContentWritten before afterText nodes s placed)
    (hstorable : ∀ n ∈ nodes, n.Storable) : '\r' ∉ s := by
  induction h with
  | nil hgap => exact return_not_mem_filler hgap.filler
  | text hvalue _ ih =>
    obtain ⟨-, hnodes⟩ := List.forall_mem_cons.mp hstorable
    simp [hvalue.return_not_mem, ih hnodes]
  | element hgap hattributes _ _ ihinside ihrest =>
    obtain ⟨he, hnodes⟩ := List.forall_mem_cons.mp hstorable
    obtain ⟨htag, -, hchildren⟩ := Element.storable_iff.mp he
    simp [return_not_mem_filler hgap.filler, return_not_mem_openingTag htag hattributes,
      ihinside hchildren, closingTag, return_not_mem_name htag.tag, ihrest hnodes]
  | empty hgap _ hattributes _ ih =>
    obtain ⟨he, hnodes⟩ := List.forall_mem_cons.mp hstorable
    simp [return_not_mem_filler hgap.filler,
      return_not_mem_openingTag (Element.storable_iff.mp he).1 hattributes, ih hnodes]

/-! ## Documents -/

theorem rootElement_opening {setting : Setting} {e : Element} {attributes r : List Char}
    (he : e.PlainTag) (hattributes : AttributesWritten e.attributes.entries attributes)
    (closed : Bool) :
    rootElement setting (e.tag.toList ++ (attributes ++ (tagEnd closed ++ r))) =
      if closed then .ok (⟨e.tag, e.attributes, [], setting.lineOf r⟩, r)
      else
        match content setting (.opened e (setting.lineOf r) .document) [] r with
        | .error e => .error e
        | .ok (.closed root t) => .ok (root, t)
        | .ok (.unfinished _) => .error ⟨[]⟩ := by
  have hnames : ∀ a ∈ e.attributes.entries, a.1 ≠ "xmlns" := fun a ha => (he.names a ha).2
  rw [rootElement, startTag_written setting.entities he hattributes closed]
  simp only [enter_unqualified _ hnames, accepts_unqualified _ _ hnames,
    attributeTable_unqualified hnames, if_true]
  rfl

theorem rootElement_element {entities : Entities} {s gap attributes inside r : List Char}
    {e : Element} {children : List Node} (he : e.PlainTag)
    (hs : s = gap ++ openingTag e.tag attributes false ++ (inside ++ (closingTag e.tag ++ r)))
    (hattributes : AttributesWritten e.attributes.entries attributes)
    (hinside : ReadBack (.ofText entities s) (gap ++ openingTag e.tag attributes false) false
      e.children inside children) (hdepth : 1 + depthOf e.children ≤ maxDepth) :
    rootElement (.ofText entities s) (e.tag.toList ++ (attributes ++ (tagEnd false ++
      (inside ++ (closingTag e.tag ++ r))))) =
      .ok (⟨e.tag, e.attributes, children,
        1 + (gap ++ openingTag e.tag attributes false).count '\n'⟩, r) := by
  have hlines : (Setting.ofText entities s).lineCount =
      1 + ((gap ++ openingTag e.tag attributes false) ++ (inside ++ (closingTag e.tag ++ r))).count
        '\n' := by
    rw [← hs]
    rfl
  rw [rootElement_opening he hattributes, Setting.lineOf_eq hlines, if_neg Bool.false_ne_true,
    hinside.complete he _ _ r (by simpa using hdepth) hlines]
  rfl

theorem rootElement_empty {entities : Entities} {s gap attributes r : List Char} {e : Element}
    (he : e.PlainTag) (hs : s = gap ++ openingTag e.tag attributes true ++ r)
    (hattributes : AttributesWritten e.attributes.entries attributes) :
    rootElement (.ofText entities s) (e.tag.toList ++ (attributes ++ (tagEnd true ++ r))) =
      .ok (⟨e.tag, e.attributes, [],
        1 + (gap ++ openingTag e.tag attributes true).count '\n'⟩, r) := by
  have hlines : (Setting.ofText entities s).lineCount =
      1 + ((gap ++ openingTag e.tag attributes true) ++ r).count '\n' := by
    rw [← hs]
    rfl
  rw [rootElement_opening he hattributes, Setting.lineOf_eq hlines]
  rfl

/-- A text that holds one element: white space, the element, and white space again. -/
theorem ContentWritten.single {s : List Char} {e d : Element}
    (h : ContentWritten [] false [e.toNode] s [d.toNode]) (he : e.toNode.Storable)
    (hdepth : e.toNode.depth ≤ maxDepth) :
    ∃ gap u tail, s = gap ++ '<' :: (e.tag.toList ++ u) ∧ (∀ c ∈ gap, isFiller c = true) ∧
      (∀ c ∈ tail, isFiller c = true) ∧
      ∀ entities, rootElement (.ofText entities s) (e.tag.toList ++ u) = .ok (d, tail) := by
  obtain ⟨htag, -, hchildren⟩ := Element.storable_iff.mp he
  have hinside : 1 + depthOf e.children ≤ maxDepth := hdepth
  generalize hnodes : [e.toNode] = nodes at h
  generalize hplaced : [d.toNode] = placed at h
  cases h with
  | nil => cases hnodes
  | text => cases hnodes
  | @element _ gap attributes inside rest _ e' _ children _ hgap hattributes hcontent hrest =>
    obtain ⟨hnode, rfl⟩ := List.cons.inj hnodes
    obtain rfl : e = e' := Element.eq_of_toNode_eq hnode
    obtain rfl := Element.eq_of_toNode_eq (List.cons.inj hplaced).1
    cases hrest with
    | nil htail =>
      refine ⟨gap, attributes ++ (tagEnd false ++ (inside ++ (closingTag e.tag ++ rest))), rest,
        by simp [openingTag], hgap.filler, htail.filler, fun entities => ?_⟩
      exact rootElement_element htag (by simp) hattributes (hcontent.readBack hchildren) hinside
  | @empty _ gap attributes rest _ e' _ _ hgap hnone hattributes hrest =>
    obtain ⟨hnode, rfl⟩ := List.cons.inj hnodes
    obtain rfl : e = e' := Element.eq_of_toNode_eq hnode
    obtain rfl := Element.eq_of_toNode_eq (List.cons.inj hplaced).1
    cases hrest with
    | nil htail =>
      refine ⟨gap, attributes ++ (tagEnd true ++ rest), rest, by simp [openingTag], hgap.filler,
        htail.filler, fun entities => ?_⟩
      exact rootElement_empty htag rfl hattributes

theorem not_opening {tag : List Char} (htag : isName tag = true) (u : List Char) :
    ¬ declarationOpening <+: '<' :: (tag ++ u) := by
  rintro ⟨r, hr⟩
  exact name_append_ne htag (by decide) (List.cons.inj hr).2.symm

theorem skipMisc_element {gap tag : List Char} (hgap : ∀ c ∈ gap, isFiller c = true)
    (htag : isName tag = true) (u : List Char) :
    skipMisc (gap ++ '<' :: (tag ++ u)) = .ok ('<' :: (tag ++ u)) := by
  rw [skipMisc_append fun d hd => isSpace_of_isFiller (hgap d hd), skipMisc]
  split
  · next h => exact absurd (List.cons.inj h).2 (name_append_ne htag (by decide))
  · next h => exact absurd (List.cons.inj h).2 (name_append_ne htag (by decide))
  · rfl

theorem skipMisc_filler {tail : List Char} (htail : ∀ c ∈ tail, isFiller c = true) :
    skipMisc tail = .ok [] := by
  have hskip := skipMisc_append (fun c hc => isSpace_of_isFiller (htail c hc)) []
  rw [List.append_nil] at hskip
  rw [hskip, skipMisc]
  rfl

theorem document_single {gap tag u tail : List Char} {d : Element}
    (hgap : ∀ c ∈ gap, isFiller c = true) (htag : isName tag = true)
    (htail : ∀ c ∈ tail, isFiller c = true)
    (hroot : ∀ entities, rootElement (.ofText entities (gap ++ '<' :: (tag ++ u))) (tag ++ u) =
      .ok (d, tail)) : document (gap ++ '<' :: (tag ++ u)) = .ok d := by
  have hspace : ∀ c ∈ gap, isSpace c = true := fun c hc => isSpace_of_isFiller (hgap c hc)
  have hdeclares := startsDeclaration_eq_false (not_opening_append hspace (not_opening htag u))
  have hdocType : skip? "<!DOCTYPE".toList ('<' :: (tag ++ u)) = none := by
    cases hs : skip? "<!DOCTYPE".toList ('<' :: (tag ++ u)) with
    | none => rfl
    | some r =>
      have hr := skip?_eq_some_iff.mp hs
      exact absurd (List.cons.inj hr).2 (name_append_ne htag (by decide))
  have hprolog (standalone : Bool) : prolog standalone (gap ++ '<' :: (tag ++ u)) =
      .ok ({}, '<' :: (tag ++ u)) := by
    rw [prolog, skipMisc_element hgap htag]
    simp only [bind, Except.bind, hdocType]
    rfl
  rw [document, hdeclares]
  simp only [Bool.false_eq_true, if_false, pure_bind, hprolog]
  simp only [bind, Except.bind, hroot, skipMisc_filler htail]
  rfl

theorem read_single {gap tag u tail : List Char} {d : Element}
    (hgap : ∀ c ∈ gap, isFiller c = true) (htag : isName tag = true)
    (htail : ∀ c ∈ tail, isFiller c = true) (hreturn : '\r' ∉ gap ++ '<' :: (tag ++ u))
    (hroot : ∀ entities, rootElement (.ofText entities (gap ++ '<' :: (tag ++ u))) (tag ++ u) =
      .ok (d, tail)) : read (gap ++ '<' :: (tag ++ u)) = .ok d := by
  have hmark : skipMark (gap ++ '<' :: (tag ++ u)) = gap ++ '<' :: (tag ++ u) :=
    skipMark_append (fun c hc => isSpace_of_isFiller (hgap c hc)) rfl
  rw [read, hmark, joinLineEnds_eq_self hreturn, document_single hgap htag htail hroot]
  rfl

end Xml

/-- A tree is read from its text, with its elements on the lines where they stand. -/
theorem Document.parse_of_writtenAs {e placed : Element} {s : String}
    (h : e.WrittenAs s.toList placed) (he : e.toNode.Storable)
    (hdepth : e.toNode.depth ≤ Xml.maxDepth) : (Document.text s).parse = .ok placed := by
  have htag := (Element.storable_iff.mp he).1.tag
  have hreturn := h.return_not_mem (List.forall_mem_singleton.mpr he)
  obtain ⟨gap, u, tail, hs, hgap, htail, hroot⟩ := Xml.ContentWritten.single h he hdepth
  rw [hs] at hroot hreturn
  have hblank : ∀ c ∈ gap, Text.isBlank c = true := fun c hc =>
    isBlank_of_isSpace (Xml.isSpace_of_isFiller (hgap c hc))
  have hopen : OpensNoDeclaration s.toList := by
    rw [OpensNoDeclaration, hs, Text.trimStart, List.dropWhile_append_of_pos hblank]
    exact Xml.not_opening htag u
  refine Document.parse_eq_ok_iff.mpr ⟨?_, ?_⟩
  · rw [Document.source, hs, Text.isAllBlank, List.all_append, List.all_cons,
      show Text.isBlank '<' = false by decide, Bool.false_and, Bool.and_false]
  · rw [Document.readable, blankDeclaration, hopen.afterDeclaration?, hs]
    exact Xml.read_single hgap htag htail hreturn hroot

/-- **Every tree is read back from every text of it.** A tree that a text can hold, and that is not
too deep, has a text, and whatever text it is written as, the same tree is read from it: tags,
attributes in their order, children and texts, with every element on the line on which its start tag
ends. -/
theorem written_tree_readBack {e : Element} (hstorable : e.toNode.Storable)
    (hdepth : e.toNode.depth ≤ Xml.maxDepth) :
    (∃ placed, e.WrittenAs e.toNode.written placed) ∧
    ∀ (s : String) (placed : Element), e.WrittenAs s.toList placed →
      (Document.text s).parse = .ok placed ∧ placed.unplaced = e.unplaced := by
  refine ⟨Element.exists_writtenAs hstorable, fun s placed h => ?_⟩
  refine ⟨Document.parse_of_writtenAs h hstorable hdepth, Element.eq_of_toNode_eq ?_⟩
  have hshape := (List.cons.inj h.map_unplaced).1
  rw [Element.toNode_unplaced, Element.toNode_unplaced]
  exact hshape

def quotedSingle : Element := ⟨"single", {}, [.text "1 < 2"], 0⟩

def quotedTerm : Element := ⟨"term", .ofList [("name", "\"\n")], [quotedSingle.toNode], 0⟩

/-- A text of the term, with white space inside its start tag and around the element inside. -/
def quotedText : String :=
  "\n<term\n name=\"&quot;&#10;\">\n\t<single>1 &lt; 2</single>\n</term>\n"

/-- The term on the lines of that text. -/
def placedTerm : Element :=
  ⟨"term", .ofList [("name", "\"\n")], [.element "single" {} [.text "1 < 2"] 4], 3⟩

theorem quotedTerm_readBack :
    quotedTerm.toNode.Storable ∧ quotedTerm.toNode.depth ≤ Xml.maxDepth ∧
    quotedTerm.WrittenAs quotedText.toList placedTerm ∧
    (Document.text quotedText).parse = .ok placedTerm ∧
    placedTerm.unplaced = quotedTerm.unplaced := by
  have hsingle : quotedSingle.toNode.Storable :=
    .element ⟨by decide, by decide, by decide⟩ (List.isChain_singleton _)
      (List.forall_mem_singleton.mpr (.text (by decide) (List.all_eq_true.mp (by decide))))
  have hstorable : quotedTerm.toNode.Storable :=
    .element ⟨by decide, by decide,
      List.forall_mem_singleton.mpr (List.all_eq_true.mp (by decide))⟩ (List.isChain_singleton _)
      (List.forall_mem_singleton.mpr hsingle)
  have hdepth : quotedTerm.toNode.depth ≤ Xml.maxDepth := by decide
  have hgap (afterText : Bool) : Xml.IsGap afterText [] :=
    ⟨List.all_eq_true.mp (by decide), fun _ => rfl⟩
  have hfeed : Xml.IsGap false ['\n'] := ⟨List.all_eq_true.mp (by decide), by decide⟩
  have hindent : Xml.IsGap false ['\n', '\t'] := ⟨List.all_eq_true.mp (by decide), by decide⟩
  have hname : Xml.AttributesWritten quotedTerm.attributes.entries
      (['\n', ' '] ++ ("name".toList ++ '=' :: '"' :: ("\"\n".toList.flatMap Xml.escaped ++
        '"' :: []))) :=
    .cons (List.all_eq_true.mp (by decide)) (by decide) (Xml.textWritten_escaped _)
      (.nil (List.all_eq_true.mp (by decide)))
  have hnone : Xml.AttributesWritten quotedSingle.attributes.entries [] :=
    .nil (List.all_eq_true.mp (by decide))
  have hwritten : quotedTerm.WrittenAs quotedText.toList placedTerm := by
    obtain ⟨s, hs, h⟩ : ∃ s, s = quotedText.toList ∧
        Xml.ContentWritten [] false [quotedTerm.toNode] s [placedTerm.toNode] :=
      ⟨_, by decide +kernel, .element (e := quotedTerm) hfeed hname
        (.element (e := quotedSingle) hindent hnone
          (.text (Xml.textWritten_escaped _) (.nil (hgap true))) (.nil hfeed)) (.nil hfeed)⟩
    exact hs ▸ h
  exact ⟨hstorable, hdepth, hwritten, (written_tree_readBack hstorable hdepth).2 _ _ hwritten⟩

end CiteStyle
