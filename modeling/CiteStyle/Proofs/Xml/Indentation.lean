import CiteStyle.Proofs.Tree
import CiteStyle.Proofs.Xml.Rest

/-! # White space before a document

A reader counts lines back from the end of the text, so white space before a document moves its
elements down by the lines that end in it, and does nothing else (`read_append_eq_ok_iff`). The
induction is on the content of an element, with all open elements moved down together. -/

namespace CiteStyle

def Node.movedDown (lines : Int) : Node → Node := Node.mapLines (· + lines)

def Element.movedDown (lines : Int) : Element → Element := Element.mapLines (· + lines)

theorem Element.toNode_movedDown (lines : Int) (e : Element) :
    (e.movedDown lines).toNode = e.toNode.movedDown lines := e.toNode_mapLines (· + lines)

namespace Xml

/-! ## Open elements -/

def Frame.movedDown (lines : Int) (f : Frame) : Frame :=
  { f with line := f.line + lines, children := f.children.map (Node.movedDown lines) }

variable {lines : Int} {f : Frame}

theorem Frame.settle_movedDown : (f.movedDown lines).settle = f.settle.movedDown lines := by
  have htext : (f.movedDown lines).text = f.text := rfl
  unfold settle
  rw [htext]
  split <;> rfl

theorem Frame.push_movedDown (child : Element) :
    (f.movedDown lines).push (child.movedDown lines) = (f.push child).movedDown lines := by
  unfold push
  rw [Element.toNode_movedDown]
  rfl

theorem Frame.close_movedDown : (f.movedDown lines).close = f.close.movedDown lines := by
  unfold close
  rw [settle_movedDown, Element.movedDown, Element.mapLines, movedDown, List.map_reverse]
  rfl

theorem openElement_movedDown (line : Int) (top : Frame) (below : List Frame) (name : QName)
    (attributes : List Attribute) (closed : Bool) :
    openElement (line + lines) (top.movedDown lines) (below.map (Frame.movedDown lines)) name
        attributes closed =
      (openElement line top below name attributes closed).map fun (top', below') =>
        (top'.movedDown lines, below'.map (Frame.movedDown lines)) := by
  have hnew (scope : Scope) :
      (⟨name, attributeTable attributes, line + lines, scope, [], []⟩ : Frame) =
        Frame.movedDown lines ⟨name, attributeTable attributes, line, scope, [], []⟩ := rfl
  have hscope : (top.movedDown lines).scope = top.scope := rfl
  unfold openElement
  dsimp only
  rw [List.length_map, hscope, hnew, Frame.settle_movedDown, Frame.close_movedDown,
    Frame.push_movedDown]
  split
  · split <;> rfl
  · rfl

/-! ## Content -/

/-- A setting in which that many more lines are counted. -/
def Setting.movedDown (lines : Int) (setting : Setting) : Setting :=
  { setting with lineCount := setting.lineCount + lines }

theorem Setting.lineOf_movedDown (setting : Setting) (s : List Char) :
    (setting.movedDown lines).lineOf s = setting.lineOf s + lines := by
  unfold lineOf movedDown
  dsimp only
  omega

def Ending.movedDown (lines : Int) : Ending → Ending
  | .closed root rest => .closed (root.movedDown lines) rest
  | .unfinished depth => .unfinished depth

theorem content_movedDown (lines : Int) (setting : Setting) (top : Frame) (below : List Frame)
    (s : List Char) :
    content (setting.movedDown lines) (top.movedDown lines) (below.map (Frame.movedDown lines)) s =
      (content setting top below s).map (Ending.movedDown lines) := by
  have hentities : (setting.movedDown lines).entities = setting.entities := rfl
  fun_induction content setting top below s with
  | case1 top below =>
    rw [content, List.length_map]
    rfl
  | case2 top below c cs e he =>
    rw [content_cons, hentities, he]
    rfl
  | case3 top below c cs piece r hr ih =>
    rw [content_cons, hentities, hr]
    exact ih
  | case4 top below c cs r hr ih =>
    rw [← Frame.settle_movedDown] at ih
    rw [content_cons, hentities, hr]
    exact ih
  | case5 top below c cs name r hr hrefer ih =>
    rw [← Frame.settle_movedDown] at ih
    rw [content_cons, hentities, hr]
    exact (if_pos hrefer).trans ih
  | case6 top below c cs name r hr hrefer =>
    rw [content_cons, hentities, hr]
    exact if_neg hrefer
  | case7 top below c cs name attributes closed r hr top' below' hopen ih =>
    rw [content_cons, hentities, hr]
    dsimp only
    rw [Setting.lineOf_movedDown, openElement_movedDown, hopen]
    exact ih
  | case8 top below c cs name attributes closed r hr hopen =>
    rw [content_cons, hentities, hr]
    dsimp only
    rw [Setting.lineOf_movedDown, openElement_movedDown, hopen]
    rfl
  | case9 top c cs r hr =>
    rw [content_cons, hentities, hr]
    exact (if_pos rfl).trans (by rw [Frame.close_movedDown]; rfl)
  | case10 top c cs r f fs hr ih =>
    rw [← Frame.push_movedDown, ← Frame.close_movedDown] at ih
    rw [content_cons, hentities, hr]
    exact (if_pos rfl).trans ih
  | case11 top below c cs name r hr hname =>
    rw [content_cons, hentities, hr]
    exact if_neg hname

theorem rootElement_movedDown (setting : Setting) (s : List Char) :
    rootElement (setting.movedDown lines) s =
      (rootElement setting s).map fun (root, rest) => (root.movedDown lines, rest) := by
  have hentities : (setting.movedDown lines).entities = setting.entities := rfl
  have hnew (scope : Scope) (name : QName) (attributes : List Attribute) (r : List Char) :
      (⟨name, attributeTable attributes, setting.lineOf r + lines, scope, [], []⟩ : Frame) =
        Frame.movedDown lines
          ⟨name, attributeTable attributes, setting.lineOf r, scope, [], []⟩ := rfl
  unfold rootElement
  rw [hentities]
  split
  · rfl
  · next name attributes closed r hr =>
    dsimp only
    split
    · rw [Setting.lineOf_movedDown, hnew]
      split
      · rw [Frame.close_movedDown]
        rfl
      · have hcontent := content_movedDown lines setting
          ⟨name, attributeTable attributes, setting.lineOf r,
            Scope.document.enter attributes, [], []⟩ [] r
        rw [List.map_nil] at hcontent
        rw [hcontent]
        cases content setting _ [] r with
        | error e => rfl
        | ok ending => cases ending <;> rfl
    · rfl

/-! ## Documents -/

theorem skipSpace_append {space : List Char} (hspace : ∀ c ∈ space, isSpace c = true)
    (s : List Char) : skipSpace (space ++ s) = skipSpace s :=
  List.dropWhile_append_of_pos hspace

theorem skipMisc_append {space : List Char} (hspace : ∀ c ∈ space, isSpace c = true)
    (s : List Char) : skipMisc (space ++ s) = skipMisc s := by
  rw [skipMisc, skipSpace_append hspace, ← skipMisc]

theorem startsDeclaration_eq_false {s : List Char} (h : ¬ declarationOpening <+: s) :
    startsDeclaration s = false := by
  have hnone : skip? declarationOpening s = none := by
    cases hs : skip? declarationOpening s with
    | none => rfl
    | some r => exact absurd ⟨r, (skip?_eq_some_iff.mp hs).symm⟩ h
  rw [startsDeclaration, hnone]
  rfl

/-- No opening stands where white space stands before it. -/
theorem not_opening_append {space s : List Char} (hspace : ∀ c ∈ space, isSpace c = true)
    (hs : ¬ declarationOpening <+: s) : ¬ declarationOpening <+: space ++ s := by
  cases space with
  | nil => exact hs
  | cons c space =>
    intro h
    obtain ⟨rfl, -⟩ := List.cons_prefix_cons.mp h
    exact absurd (hspace _ List.mem_cons_self) (by decide)

theorem document_append {space s : List Char} (hspace : ∀ c ∈ space, isSpace c = true)
    (hs : ¬ declarationOpening <+: s) :
    document (space ++ s) = (document s).map (Element.movedDown (space.count '\n')) := by
  have hsetting (entities : Entities) : Setting.ofText entities (space ++ s) =
      (Setting.ofText entities s).movedDown (space.count '\n') := by
    rw [Setting.ofText, Setting.ofText, Setting.movedDown, List.count_append]
    congr 1
    dsimp only
    omega
  have hprolog (standalone : Bool) : prolog standalone (space ++ s) = prolog standalone s := by
    rw [prolog, skipMisc_append hspace, prolog]
  unfold document
  rw [startsDeclaration_eq_false hs, startsDeclaration_eq_false (not_opening_append hspace hs)]
  simp only [Bool.false_eq_true, if_false, pure_bind, hprolog, hsetting, rootElement_movedDown]
  cases prolog ({} : Declaration).standalone s with
  | error e => rfl
  | ok p =>
    obtain ⟨entities, t⟩ := p
    simp only [Except.bind, bind]
    split
    · cases rootElement (.ofText entities s) _ with
      | error e => rfl
      | ok q =>
        obtain ⟨root, v⟩ := q
        simp only [Except.map]
        cases skipMisc v with
        | error e => rfl
        | ok rest =>
          dsimp only
          split <;> rfl
    · rfl

/-! ## Line ends -/

theorem mem_of_mem_joinLineEnds {s : List Char} {c : Char} (h : c ∈ joinLineEnds s) : c ∈ s := by
  fun_induction joinLineEnds s with
  | case1 => exact h
  | case2 rest ih =>
    rcases List.mem_cons.mp h with rfl | h
    · simp
    · simp [ih h]
  | case3 d rest _ ih =>
    rcases List.mem_cons.mp h with rfl | h
    · exact List.mem_cons_self
    · exact List.mem_cons_of_mem d (ih h)

theorem count_joinLineEnds {c : Char} (hc : c ≠ '\r') (s : List Char) :
    (joinLineEnds s).count c = s.count c := by
  fun_induction joinLineEnds s with
  | case1 => rfl
  | case2 rest ih => rw [List.count_cons, List.count_cons_of_ne hc.symm, List.count_cons, ih]
  | case3 d rest _ ih => rw [List.count_cons, List.count_cons, ih]

/-- Line ends are joined in two parts of a text apart unless one is cut in two. -/
theorem joinLineEnds_append {s t : List Char} (h : s.getLast? = some '\r' → t.head? ≠ some '\n') :
    joinLineEnds (s ++ t) = joinLineEnds s ++ joinLineEnds t := by
  have hrest {c : Char} {r : List Char} (hr : (c :: r).getLast? = some '\r' → t.head? ≠ some '\n') :
      r.getLast? = some '\r' → t.head? ≠ some '\n' := by
    cases r with
    | nil => simp
    | cons d r => rwa [List.getLast?_cons_cons] at hr
  fun_induction joinLineEnds s with
  | case1 => rfl
  | case2 rest ih =>
    rw [List.cons_append, List.cons_append, joinLineEnds, ih (hrest (hrest h)), List.cons_append]
  | case3 c rest hc ih =>
    have hpair : ∀ r, c = '\r' → rest ++ t = '\n' :: r → False := by
      rintro r rfl hr
      cases rest with
      | nil => exact h rfl (congrArg List.head? hr)
      | cons d rest =>
        obtain ⟨rfl, -⟩ := List.cons.inj hr
        exact hc rest rfl rfl
    rw [List.cons_append, joinLineEnds.eq_3 _ _ hpair, ih (hrest h), List.cons_append]

/-- What is no line end stands at the beginning of a text before and after line ends are joined. -/
theorem prefix_of_prefix_joinLineEnds {beginning s : List Char}
    (hb : '\r' ∉ beginning ∧ '\n' ∉ beginning) (h : beginning <+: joinLineEnds s) :
    beginning <+: s := by
  induction beginning generalizing s with
  | nil => exact List.nil_prefix
  | cons a beginning ih =>
    obtain ⟨hr, hn⟩ := hb
    unfold joinLineEnds at h
    split at h
    · cases List.eq_nil_of_prefix_nil h
    · obtain ⟨rfl, -⟩ := List.cons_prefix_cons.mp h
      exact absurd List.mem_cons_self hn
    · obtain ⟨rfl, hrest⟩ := List.cons_prefix_cons.mp h
      have hb : '\r' ∉ beginning ∧ '\n' ∉ beginning :=
        ⟨fun hm => hr (List.mem_cons_of_mem _ hm), fun hm => hn (List.mem_cons_of_mem _ hm)⟩
      exact List.cons_prefix_cons.mpr ⟨rfl, ih hb hrest⟩

/-! ## Whole texts -/

theorem skipMark_append {space s : List Char} (hspace : ∀ c ∈ space, isSpace c = true)
    (hs : skipMark s = s) : skipMark (space ++ s) = space ++ s := by
  cases space with
  | nil => exact hs
  | cons c space =>
    refine if_neg fun hmark => ?_
    have hlow := hspace c List.mem_cons_self
    simp only [isSpace, Bool.or_eq_true, beq_iff_eq] at hlow
    rcases hlow with ((rfl | rfl) | rfl) | rfl <;> cases hmark

/-- **White space before a document moves it down.** A text without byte order mark and declaration
is read if it is read after white space, and the lines are those of the text alone and those that
end in the white space. -/
theorem read_append_eq_ok_iff {space s : List Char} {root : Element}
    (hspace : ∀ c ∈ space, isSpace c = true) (hlast : space.getLast? ≠ some '\r')
    (hmark : skipMark s = s) (hs : ¬ declarationOpening <+: s) :
    read (space ++ s) = .ok root ↔
      ∃ e, read s = .ok e ∧ e.movedDown (space.count '\n') = root := by
  have hopening : '\r' ∉ declarationOpening ∧ '\n' ∉ declarationOpening := by decide
  have hread : (document (joinLineEnds (space ++ s))) =
      (document (joinLineEnds s)).map (Element.movedDown (space.count '\n')) := by
    rw [joinLineEnds_append fun h => absurd h hlast,
      ← count_joinLineEnds (show '\n' ≠ '\r' by decide) space]
    exact document_append (fun c hc => hspace c (mem_of_mem_joinLineEnds hc))
      fun h => hs (prefix_of_prefix_joinLineEnds hopening h)
  simp only [read_eq_ok_iff]
  rw [skipMark_append hspace hmark, hmark, hread]
  constructor
  · intro h
    exact exists_of_map_eq_ok h
  · rintro ⟨e, h, rfl⟩
    rw [h]
    rfl

end Xml

end CiteStyle
