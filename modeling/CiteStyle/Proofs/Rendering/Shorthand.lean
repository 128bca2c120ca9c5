import CiteStyle.Proofs.Rendering.Counting
import CiteStyle.Proofs.Rendering.Position

/-! # Shorthands spelled out

As a substitute, `names` without elements inside stands for its variables under the settings of the
element around it. Written in full, with copies of the children that the settings come from, it is
compiled and run on its own. Both show the same (`shorthand_spelledOut`), unless names are only
counted: in full the substitute counts its names itself, and the element around it takes their
number for one name. -/

namespace CiteStyle

/-! ## The same settings in full -/

def settingTags : List String := ["name", "et-al", "label"]

/-- The tags and attributes of parts. -/
def partCopies (parts : List Element) : List (String × Table String) :=
  parts.map fun part => (part.tag, part.attributes)

/-- What settings look at in a child: its attributes and its parts. -/
def Element.setting (e : Element) : Table String × List (String × Table String) :=
  (e.attributes, partCopies e.elements)

/-- An element that spells out the shorthand `e`: `names` for the same variables, with copies of the
children that count in `n`, and without substitutes. -/
structure Element.SpellsOut (full n e : Element) : Prop where
  tag : full.tag = "names"
  attributes : full.attributes = e.attributes
  children : ∀ c ∈ full.elements, c.tag ∈ settingTags
  copies : ∀ tag ∈ settingTags, (lastTagged tag full.elements).map Element.setting =
    (lastTagged tag n.elements).map Element.setting

theorem partEntries_eq_map (parts : List Element) :
    partEntries parts = (partCopies parts).map fun c => ((c.2.get? "name").getD "", c.2) := by
  rw [partCopies, List.map_map]
  rfl

theorem NamesAccepted.isShorthand_eq_false {e : Element} (h : NamesAccepted e) :
    isShorthand e.tag e.children = false := by
  rw [Bool.eq_false_iff]
  intro hs
  rw [isShorthand, Bool.and_eq_true, List.isEmpty_iff] at hs
  have he : e.elements = [] := hs.2
  have hn := h.nameOrLabel
  rw [he] at hn
  exact hn.elim (absurd rfl) (absurd rfl)

namespace Element.SpellsOut

variable {full n e : Element}

theorem copies_attributes (h : full.SpellsOut n e) {tag : String} (ht : tag ∈ settingTags) :
    (lastTagged tag full.elements).map Element.attributes =
      (lastTagged tag n.elements).map Element.attributes := by
  have hc := congrArg (Option.map Prod.fst) (h.copies tag ht)
  rw [Option.map_map, Option.map_map] at hc
  exact hc

theorem copies_parts (h : full.SpellsOut n e) :
    partCopies (((lastTagged "name" full.elements).map Element.elements).getD []) =
      partCopies (((lastTagged "name" n.elements).map Element.elements).getD []) := by
  have hc := h.copies "name" (by decide)
  generalize lastTagged "name" full.elements = a at hc ⊢
  generalize lastTagged "name" n.elements = b at hc ⊢
  cases a <;> cases b
  · rfl
  · cases hc
  · cases hc
  · exact congrArg Prod.snd (Option.some.inj hc)

theorem lastTagged_ne_none_iff (h : full.SpellsOut n e) {tag : String} (ht : tag ∈ settingTags) :
    lastTagged tag full.elements ≠ none ↔ lastTagged tag n.elements ≠ none := by
  rw [Ne, Ne, ← Option.map_eq_none_iff (f := Element.setting), h.copies tag ht,
    Option.map_eq_none_iff]

theorem namesSettings_eq (h : full.SpellsOut n e) :
    full.namesSettings = { n.namesSettings with names := e.attributes } := by
  rw [Element.namesSettings, Element.namesSettings, h.attributes,
    h.copies_attributes (by decide : "name" ∈ settingTags),
    h.copies_attributes (by decide : "et-al" ∈ settingTags),
    h.copies_attributes (by decide : "label" ∈ settingTags), partEntries_eq_map,
    h.copies_parts, ← partEntries_eq_map]

theorem accepted (h : full.SpellsOut n e) (hn : NamesAccepted n)
    (hv : variableList e.attributes ≠ []) : NamesAccepted full where
  listed := by rw [h.attributes]; exact hv
  children c hc := (by decide : settingTags ⊆ namesChildTags) (h.children c hc)
  nameOrLabel := by
    rw [h.lastTagged_ne_none_iff (by decide), h.lastTagged_ne_none_iff (by decide)]
    exact hn.nameOrLabel
  parts part hp := by
    have hc : (part.tag, part.attributes) ∈
        partCopies (((lastTagged "name" full.elements).map Element.elements).getD []) :=
      List.mem_map_of_mem hp
    rw [h.copies_parts] at hc
    obtain ⟨original, ho, he⟩ := List.mem_map.mp hc
    rw [← (Prod.mk.inj he).1]
    exact hn.parts original ho

theorem substituteElements_eq_nil (h : full.SpellsOut n e) :
    substituteElements full.elements = [] := by
  have ht : tagged "substitute" full.elements = [] :=
    List.eq_nil_iff_forall_not_mem.mpr fun c hc => by
      obtain ⟨hc, hs⟩ := mem_tagged.mp hc
      exact absurd (hs ▸ h.children c hc) (by decide)
  rw [substituteElements, ht, List.flatMap_nil]

theorem compile (h : full.SpellsOut n e) (hn : NamesAccepted n)
    (hv : variableList e.attributes ≠ []) :
    full.toNode.compile = .ok (.names (variableList e.attributes)
      { n.namesSettings with names := e.attributes } []) := by
  refine (compile_names_eq_ok_iff h.tag).mpr ⟨h.accepted hn hv, [], ?_, ?_⟩
  · rw [h.substituteElements_eq_nil]
    exact .nil
  · rw [h.namesSettings_eq, h.attributes, List.map_nil]

/-- As a substitute it is compiled, and has no substitutes of its own. -/
theorem standsFor (h : full.SpellsOut n e) (hn : NamesAccepted n)
    (hv : variableList e.attributes ≠ []) :
    StandsFor full (.full (.names (variableList e.attributes)
      { n.namesSettings with names := e.attributes } [])) :=
  .full (h.accepted hn hv).isShorthand_eq_false (h.compile hn hv)

end Element.SpellsOut

/-! ## What names show -/

/-- What is shown of the value that names come to: the value, or the number of names in it. -/
def NamesSettings.shown (prims : Primitives) (ctx : Context) (settings : NamesSettings)
    (r : Rendered) : Rendered :=
  if settings.countsOnly then r.counted (prims.countNames ctx r) else r

section

variable (prims : Primitives) (ctx : Context) (vars : List String) (settings : NamesSettings)

theorem namesOutput_eq (outputs : List Output) :
    namesOutput prims ctx vars settings outputs = .rendered
      (if ctx.suppressAuthor then .empty
      else settings.shown prims ctx
        (if (prims.nameList ctx vars settings).isEmpty then
          (outputs.findSome? Output.asSubstitute?).getD .empty
        else prims.nameList ctx vars settings)) := by
  unfold namesOutput NamesSettings.shown
  cases ctx.suppressAuthor <;> cases settings.countsOnly <;> rfl

variable (calls : Calls)

/-- A substitute is reached: names are rendered, there are none, and what is tried before it shows
nothing. -/
structure Reached (pre : List Program) : Prop where
  rendered : ctx.suppressAuthor = false
  missing : (prims.nameList ctx vars settings).isEmpty = true
  blank : ∀ q ∈ pre, (q.output prims calls ctx).asSubstitute? = none

variable {prims ctx vars settings calls} {pre : List Program}

theorem Reached.findSome?_eq (h : Reached prims ctx vars settings calls pre) :
    (pre.map (·.output prims calls ctx)).findSome? Output.asSubstitute? = none := by
  rw [List.findSome?_eq_none_iff, List.forall_mem_map]
  exact h.blank

/-- A substitute that is not reached makes no difference. -/
theorem output_names_of_not_reached (h : ¬ Reached prims ctx vars settings calls pre)
    (more more' : List Program) :
    (Program.names vars settings (pre ++ more')).output prims calls ctx =
      (Program.names vars settings (pre ++ more)).output prims calls ctx := by
  rw [output_names, output_names, namesOutput_eq, namesOutput_eq, List.map_append, List.map_append,
    List.findSome?_append, List.findSome?_append]
  cases ha : ctx.suppressAuthor with
  | true => rfl
  | false =>
    cases hown : (prims.nameList ctx vars settings).isEmpty with
    | false => rfl
    | true =>
      cases hpre : (pre.map (·.output prims calls ctx)).findSome? Output.asSubstitute? with
      | some v => rfl
      | none =>
        rw [List.findSome?_eq_none_iff, List.forall_mem_map] at hpre
        exact absurd ⟨ha, hown, hpre⟩ h

/-- The first substitute with something to show is what the names come to. -/
theorem Reached.output_eq (h : Reached prims ctx vars settings calls pre) {q : Program}
    {v : Rendered} (hq : (q.output prims calls ctx).asSubstitute? = some v) (post : List Program) :
    (Program.names vars settings (pre ++ q :: post)).output prims calls ctx =
      .rendered (settings.shown prims ctx v) := by
  rw [output_names, namesOutput_eq, List.map_append, List.map_cons, List.findSome?_append,
    h.findSome?_eq, List.findSome?_cons, hq, h.rendered, h.missing]
  rfl

/-- A substitute that shows nothing makes no difference. -/
theorem output_names_of_blank {q q' : Program}
    (hq : (q.output prims calls ctx).asSubstitute? = none)
    (hq' : (q'.output prims calls ctx).asSubstitute? = none) (post : List Program) :
    (Program.names vars settings (pre ++ q' :: post)).output prims calls ctx =
      (Program.names vars settings (pre ++ q :: post)).output prims calls ctx := by
  simp only [output_names, namesOutput_eq, List.map_append, List.map_cons, List.findSome?_append,
    List.findSome?_cons, hq, hq']

end

/-! ## Names as plain text lists and counts them -/

/-- Names are listed and counted as for plain text; elements may be rendered in any way. -/
structure Primitives.NamesAsText (prims : Primitives) : Prop where
  nameList : prims.nameList = Context.nameList
  countNames : prims.countNames = Context.countNames

theorem plainText_namesAsText : Primitives.plainText.NamesAsText := ⟨rfl, rfl⟩

theorem nameList_congr (ctx : Context) (vars : List String) {settings settings' : NamesSettings}
    (h : settings'.name = settings.name) :
    ctx.nameList vars settings' = ctx.nameList vars settings := by
  rw [Context.nameList, Context.nameList, h]

theorem kind_nameList {ctx : Context} {vars : List String} {settings : NamesSettings}
    (h : (ctx.nameList vars settings).isEmpty = false) :
    (ctx.nameList vars settings).kind = .presentVariable := by
  revert h
  unfold Context.nameList
  split
  · intro h
    cases h
  · intro _
    rfl

/-- Counting names again does no harm: there is at most one, or the number that is given in place of
counting is zero where there are none and only there. -/
def Context.CountsAlike (ctx : Context) (names : Rendered) : Prop :=
  match ctx.count with
  | none => ctx.countNames names ≤ 1
  | some k => k = 0 ↔ names.isEmpty = true

section

variable {prims : Primitives} {ctx : Context} {settings : NamesSettings} {listed : List String}
  {attributes : Table String} {calls : Calls}

/-- A value counts as none when it is empty and only then, if it is as empty as the names. -/
def Context.CountsEmpty (ctx : Context) (names : Rendered) : Prop :=
  ∀ r : Rendered, r.isEmpty = names.isEmpty → (ctx.countNames r = 0 ↔ r.isEmpty = true)

theorem isEmpty_shown (hp : prims.NamesAsText) {names r : Rendered}
    (h : settings.countsOnly = true → ctx.CountsEmpty names) (hr : r.isEmpty = names.isEmpty) :
    (settings.shown prims ctx r).isEmpty = names.isEmpty := by
  rw [NamesSettings.shown]
  split
  · next hc =>
    rw [isEmpty_counted, ← hr, Bool.eq_iff_iff, decide_eq_true_iff, hp.countNames, h hc r hr]
  · exact hr

theorem output_spelledOut (hp : prims.NamesAsText) (ha : ctx.suppressAuthor = false) :
    (Program.names listed { settings with names := attributes } []).output prims calls ctx =
      .rendered (settings.shown prims ctx (if (ctx.nameList listed settings).isEmpty then .empty
        else ctx.nameList listed settings)) := by
  have hn : ctx.nameList listed { settings with names := attributes } =
      ctx.nameList listed settings := nameList_congr ctx listed rfl
  rw [output_names, namesOutput_eq, ha, hp.nameList, hn]
  rfl

theorem asSubstitute?_nameList (hp : prims.NamesAsText) (calls : Calls) (ctx : Context)
    (listed : List String) (settings : NamesSettings) :
    ((Program.nameList listed settings).output prims calls ctx).asSubstitute? =
      if (ctx.nameList listed settings).isEmpty then none
      else some { ctx.nameList listed settings with substituted := true } := by
  rw [output_nameList, hp.nameList, Output.asSubstitute?]

/-- Names from a `names` element of their own are taken as a substitute if there are any. -/
theorem asSubstitute?_spelledOut (hp : prims.NamesAsText) (calls : Calls)
    (attributes : Table String) (ha : ctx.suppressAuthor = false)
    (h : settings.countsOnly = true → ctx.CountsEmpty (ctx.nameList listed settings)) :
    ((Program.names listed { settings with names := attributes } []).output prims calls
        ctx).asSubstitute? =
      if (ctx.nameList listed settings).isEmpty then none
      else some
        { settings.shown prims ctx (ctx.nameList listed settings) with substituted := true } := by
  rw [output_spelledOut hp ha, Output.asSubstitute?]
  cases hr : (ctx.nameList listed settings).isEmpty with
  | true => simp [isEmpty_shown hp h (r := .empty) hr.symm, hr]
  | false => simp [isEmpty_shown hp h rfl, hr]

theorem countsEmpty_of_count_eq_none (hc : ctx.count = none) (names : Rendered) :
    ctx.CountsEmpty names := by
  intro r _
  cases hr : r.isEmpty with
  | true => simp [countNames_of_isEmpty hc hr]
  | false =>
    have hpos := pieceCount_pos r.text
    rw [countNames_of_not_isEmpty hc hr]
    constructor
    · intro h
      omega
    · intro h
      cases h

theorem Context.CountsAlike.countsEmpty {names : Rendered} (h : ctx.CountsAlike names) :
    ctx.CountsEmpty names := by
  unfold Context.CountsAlike at h
  cases hc : ctx.count with
  | none => exact countsEmpty_of_count_eq_none hc names
  | some k =>
    intro r hr
    rw [hc] at h
    rw [countNames_of_count hc, hr]
    exact h

theorem shown_of_not_countsOnly (prims : Primitives) (ctx : Context)
    (hs : settings.countsOnly = false) (r : Rendered) : settings.shown prims ctx r = r := by
  rw [NamesSettings.shown, hs]
  rfl

theorem shown_of_countsOnly (hp : prims.NamesAsText) (ctx : Context)
    (hs : settings.countsOnly = true) (r : Rendered) :
    settings.shown prims ctx r = r.counted (ctx.countNames r) := by
  rw [NamesSettings.shown, hs, hp.countNames]
  rfl

section

variable {names : Rendered} (hne : names.isEmpty = false)
include hne

/-- Names that are there, counted: their number as a substitute, and one if their number has been
counted again. -/
theorem shown_counted (hp : prims.NamesAsText) (hs : settings.countsOnly = true)
    (hc : ctx.count = none) :
    settings.shown prims ctx { names with substituted := true } =
        ⟨some (toString (ctx.countNames names)), names.kind, true⟩ ∧
      settings.shown prims ctx { settings.shown prims ctx names with substituted := true } =
        ⟨some "1", names.kind, true⟩ := by
  have hnumeral : (⟨some (pieceCount names.text).repr, names.kind, true⟩ : Rendered).isEmpty =
      false := beq_eq_false_iff_ne.mpr Nat.repr_ne_empty
  constructor
  · rw [shown_of_countsOnly hp ctx hs, countNames_of_not_isEmpty hc hne]
    exact counted_countNames hc (r := { names with substituted := true }) hne
  · rw [shown_of_countsOnly hp ctx hs, shown_of_countsOnly hp ctx hs, counted_countNames hc hne,
      counted_countNames hc hnumeral, Rendered.text, Option.getD_some, pieceCount_repr]
    rfl

/-- What is shown once more stays the same, unless more than one name is counted. -/
theorem shown_shown (hp : prims.NamesAsText)
    (h : settings.countsOnly = false ∨ ctx.CountsAlike names) :
    settings.shown prims ctx { settings.shown prims ctx names with substituted := true } =
      settings.shown prims ctx { names with substituted := true } := by
  cases hs : settings.countsOnly with
  | false => rw [shown_of_not_countsOnly prims ctx hs names]
  | true =>
    -- counting a second time: of one name it gives one again, and a given number stays itself
    have ha := h.resolve_left (by rw [hs]; exact Bool.noConfusion)
    unfold Context.CountsAlike at ha
    cases hc : ctx.count with
    | none =>
      rw [hc] at ha
      have hone : ctx.countNames names = 1 := by
        have hpos := pieceCount_pos names.text
        have hcount := countNames_of_not_isEmpty hc hne
        omega
      obtain ⟨hv, hv'⟩ := shown_counted hne hp hs hc
      rw [hv', hv, hone]
      rfl
    | some k =>
      simp only [shown_of_countsOnly hp ctx hs, countNames_of_count hc, Rendered.counted]
      split <;> rfl

end

/-- Nothing changes where names are not only counted or counting them twice does no harm. -/
theorem output_eq_of_countsAlike (hp : prims.NamesAsText) (vars : List String)
    (pre post : List Program)
    (h : settings.countsOnly = false ∨ ctx.CountsAlike (ctx.nameList listed settings)) :
    (Program.names vars settings (pre ++ .names listed { settings with names := attributes } [] ::
        post)).output prims calls ctx =
      (Program.names vars settings (pre ++ .nameList listed settings :: post)).output prims calls
        ctx := by
  by_cases hr : Reached prims ctx vars settings calls pre
  · have hempty : settings.countsOnly = true → ctx.CountsEmpty (ctx.nameList listed settings) :=
      fun hs => (h.resolve_left (by rw [hs]; exact Bool.noConfusion)).countsEmpty
    have hbare := asSubstitute?_nameList hp calls ctx listed settings
    have hfull := asSubstitute?_spelledOut hp calls attributes hr.rendered hempty
    cases hne : (ctx.nameList listed settings).isEmpty with
    | true =>
      rw [hne] at hbare hfull
      exact output_names_of_blank hbare hfull post
    | false =>
      rw [hne] at hbare hfull
      rw [hr.output_eq hbare, hr.output_eq hfull, shown_shown hne hp h]
  · exact output_names_of_not_reached hr _ _

/-- If names are only counted, one is shown instead of their number where a shorthand is spelled
out. -/
theorem output_counted (hp : prims.NamesAsText) {vars : List String} {pre : List Program}
    (hr : Reached prims ctx vars settings calls pre) (post : List Program)
    (hs : settings.countsOnly = true) (hc : ctx.count = none)
    (hn : 1 < ctx.countNames (ctx.nameList listed settings)) :
    (Program.names vars settings (pre ++ .nameList listed settings :: post)).output prims calls
        ctx = .rendered ⟨some (toString (ctx.countNames (ctx.nameList listed settings))),
          .presentVariable, true⟩ ∧
      (Program.names vars settings (pre ++ .names listed { settings with names := attributes } [] ::
          post)).output prims calls ctx = .rendered ⟨some "1", .presentVariable, true⟩ := by
  have hne : (ctx.nameList listed settings).isEmpty = false := by
    rw [Bool.eq_false_iff]
    intro he
    rw [countNames_of_isEmpty hc he] at hn
    exact absurd hn (by decide)
  have hbare := asSubstitute?_nameList hp calls ctx listed settings
  have hfull := asSubstitute?_spelledOut hp calls attributes hr.rendered
    fun _ => countsEmpty_of_count_eq_none hc (ctx.nameList listed settings)
  rw [hne] at hbare hfull
  obtain ⟨hv, hv'⟩ := shown_counted hne hp hs hc
  rw [hr.output_eq hbare, hr.output_eq hfull, hv, hv', kind_nameList hne]
  exact ⟨rfl, rfl⟩

end

/-! ## A shorthand and the element that spells it out -/

/-- The position is inside the `substitute` child of a `names` element. -/
def Frame.InSubstitute : Frame → Prop
  | generic .. => False
  | substitute .. => True

/-- The elements that are tried before the position. -/
def Frame.triedBefore : Frame → List Element
  | generic .. => []
  | substitute _ partsBefore _ _ _ before _ _ =>
    substituteElements (Node.elements partsBefore) ++ Node.elements before

theorem compile_spelledOut {f : Frame} {e full : Element} {p : Program} (hf : f.InSubstitute)
    (hs : isShorthand e.tag e.children = true) (hfull : full.SpellsOut (f.around e) e)
    (hp : (f.around e).toNode.compile = .ok p) :
    let settings := (f.around e).namesSettings
    ∃ before post, List.Forall₂ StandsFor f.triedBefore before ∧
      p = .names (variableList (f.around e).attributes) settings
        (before.map (·.program settings) ++
          .nameList (variableList e.attributes) settings :: post) ∧
      (f.around full).toNode.compile =
        .ok (.names (variableList (f.around e).attributes) settings
          (before.map (·.program settings) ++
            .names (variableList e.attributes) { settings with names := e.attributes } [] ::
            post)) := by
  cases f with
  | generic => exact hf.elim
  | substitute names partsBefore partsAfter namesLine attributes before after line =>
    let s : Element := ⟨"substitute", attributes, before ++ e.toNode :: after, line⟩
    let s' : Element := ⟨"substitute", attributes, before ++ full.toNode :: after, line⟩
    have hswap := Element.SwapsSubstitute.of_children names partsBefore partsAfter namesLine s s'
      rfl rfl
    obtain ⟨hn, -⟩ := (compile_names_eq_ok_iff hswap.tag).mp hp
    obtain ⟨pre, sub, post, hpre, hsub, rfl, hall⟩ := hswap.compile_eq
      (elements_append_toNode partsBefore partsAfter s)
      (elements_append_toNode partsBefore partsAfter s')
      (elements_append_toNode before after e) (elements_append_toNode before after full) hp
    cases hsub with
    | shorthand _ hv => exact ⟨pre, post, hpre, rfl, hall _ (hfull.standsFor hn hv)⟩
    | full hs' _ => rw [hs] at hs'; cases hs'

/-- **A shorthand means the names that it spells out to.** With copies of the settings around it in
place of the shorthand, an element compiles and shows the same. Where names are only counted this
holds as long as the place is not reached or counting twice does no harm. If it is reached, with
more than one name there and no number given in place of counting, then their number is shown with
the shorthand, and one with the names spelled out. -/
theorem shorthand_spelledOut {f : Frame} {e full : Element} {p : Program} (hf : f.InSubstitute)
    (hs : isShorthand e.tag e.children = true) (hfull : full.SpellsOut (f.around e) e)
    (hp : (f.around e).toNode.compile = .ok p) :
    ∃ p' before, (f.around full).toNode.compile = .ok p' ∧
      List.Forall₂ StandsFor f.triedBefore before ∧
      ∀ (prims : Primitives) (calls : Calls) (ctx : Context), prims.NamesAsText →
        let settings := (f.around e).namesSettings
        let names := ctx.nameList (variableList e.attributes) settings
        let reached := Reached prims ctx (variableList (f.around e).attributes) settings calls
          (before.map (·.program settings))
        (settings.countsOnly = false ∨ ¬ reached ∨ ctx.CountsAlike names →
          p'.output prims calls ctx = p.output prims calls ctx) ∧
        (settings.countsOnly = true → reached → ctx.count = none → 1 < ctx.countNames names →
          p.output prims calls ctx =
              .rendered ⟨some (toString (ctx.countNames names)), .presentVariable, true⟩ ∧
            p'.output prims calls ctx = .rendered ⟨some "1", .presentVariable, true⟩) := by
  obtain ⟨before, post, hbefore, rfl, hp'⟩ := compile_spelledOut hf hs hfull hp
  refine ⟨_, before, hp', hbefore, fun prims calls ctx hprims => ⟨fun h => ?_, ?_⟩⟩
  · obtain hcount | hr | halike := h
    · exact output_eq_of_countsAlike hprims _ _ post (.inl hcount)
    · exact output_names_of_not_reached hr _ _
    · exact output_eq_of_countsAlike hprims _ _ post (.inr halike)
  · exact fun hcount hr hc hn => output_counted hprims hr post hcount hc hn

def countedAuthors : Frame :=
  .substitute (.ofList [("variable", "author")])
    [.element "name" (.ofList [("form", "count")]) [] 1] [] 1 {} [] [] 2

def bareEditors : Element := ⟨"names", .ofList [("variable", "editor")], [], 3⟩

def countedEditors : Element :=
  { bareEditors with children := [.element "name" (.ofList [("form", "count")]) [] 3] }

def editedBy (names : List String) : Context where
  item := .ofList [("editor", .many names)]

theorem editedBy_counted (names : List String)
    (h : ∀ name ∈ names, name ≠ "" ∧ ',' ∉ name.toList) :
    (editedBy names).countNames ((editedBy names).nameList (variableList bareEditors.attributes)
      (countedAuthors.around bareEditors).namesSettings) = names.length := by
  have hvars : variableList bareEditors.attributes = ["editor"] := by decide +kernel
  have hnames : (editedBy names).names ["editor"] = names := List.append_nil names
  have hdelimiter : (countedAuthors.around bareEditors).namesSettings.name.get? "delimiter" =
      none := by decide +kernel
  have hfree : ∀ name ∈ (editedBy names).names ["editor"], name ≠ "" ∧ ',' ∉ name.toList := by
    rw [hnames]
    exact h
  have hcount : (editedBy names).count = none := rfl
  rw [hvars, countNames_nameList hcount hdelimiter hfree, hnames]

/-- A single editor is counted alike in both ways, two editors are not. -/
theorem countedEditors_spelledOut :
    ∃ p p', countedAuthors.InSubstitute ∧
      isShorthand bareEditors.tag bareEditors.children = true ∧
      countedEditors.SpellsOut (countedAuthors.around bareEditors) bareEditors ∧
      (countedAuthors.around bareEditors).toNode.compile = .ok p ∧
      (countedAuthors.around countedEditors).toNode.compile = .ok p' ∧
      p'.output .plainText (fun _ => none) (editedBy ["A"]) =
        p.output .plainText (fun _ => none) (editedBy ["A"]) ∧
      p.output .plainText (fun _ => none) (editedBy ["A", "B"]) =
        .rendered ⟨some "2", .presentVariable, true⟩ ∧
      p'.output .plainText (fun _ => none) (editedBy ["A", "B"]) =
        .rendered ⟨some "1", .presentVariable, true⟩ := by
  have hs : isShorthand bareEditors.tag bareEditors.children = true := by decide
  have hfull : countedEditors.SpellsOut (countedAuthors.around bareEditors) bareEditors :=
    ⟨rfl, rfl, by decide +kernel, by decide +kernel⟩
  obtain ⟨p, hp⟩ : ∃ p, (countedAuthors.around bareEditors).toNode.compile = .ok p := ⟨_, rfl⟩
  obtain ⟨p', before, hp', hbefore, h⟩ :=
    shorthand_spelledOut (f := countedAuthors) trivial hs hfull hp
  have hone := editedBy_counted ["A"] (by decide +kernel)
  have htwo := editedBy_counted ["A", "B"] (by decide +kernel)
  obtain ⟨hsame, -⟩ := h .plainText (fun _ => none) (editedBy ["A"]) plainText_namesAsText
  obtain ⟨-, hdiffer⟩ := h .plainText (fun _ => none) (editedBy ["A", "B"]) plainText_namesAsText
  cases hbefore
  have hout := hdiffer (by decide +kernel) ⟨rfl, by decide +kernel, List.forall_mem_nil _⟩ rfl
  rw [htwo] at hout
  obtain ⟨ho, ho'⟩ := hout (by decide)
  exact ⟨p, p', trivial, hs, hfull, hp, hp', hsame (.inr (.inr (Int.le_of_eq hone))), ho, ho'⟩

/-- Where names are not only counted, a shorthand may be spelled out anywhere in a tree. -/
theorem fillAll_spelledOut {prims : Primitives} (hprims : prims.NamesAsText)
    (calls : Context → Calls) {f : Frame} {e full : Element} (hf : f.InSubstitute)
    (hs : isShorthand e.tag e.children = true) (hfull : full.SpellsOut (f.around e) e)
    (hcount : (f.around e).namesSettings.countsOnly = false) (fs : List Frame) :
    (fillAll fs (f.around e)).Replaces prims calls (fillAll fs (f.around full)) := by
  refine fillAll_replaces ⟨isShorthand_around f e, isShorthand_around f full, fun p hp => ?_⟩ fs
  obtain ⟨before, post, -, rfl, hp'⟩ := compile_spelledOut hf hs hfull hp
  exact ⟨_, hp', fun ctx => output_eq_of_countsAlike hprims _ _ post (.inl hcount)⟩

end CiteStyle
