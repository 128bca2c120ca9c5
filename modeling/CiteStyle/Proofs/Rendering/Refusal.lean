import CiteStyle.Proofs.Rules

/-! # Which element a refused tree is refused for

A tree that does not compile is refused for one of its elements, which breaks a rule in the role in
which the compiler comes to it (`compile_blames`). Without `names` elements it comes to all
elements in document order, so the first one that breaks a rule is blamed (`compile_blames_first`).
With them it does not: the parts of the last `name` are looked at after everything else. -/

namespace CiteStyle

/-- The elements that the compiler comes to in a tree, with their roles. Below `names`, elements
stand for what is rendered only inside `substitute`. -/
inductive Node.Visits : Node → Role → Element → Prop
  | top (e : Element) : Visits e.toNode .rendered e
  | child {e d : Element} {c : Node} {r : Role} (ht : e.tag ∈ genericTags) (hc : c ∈ e.children)
      (hd : c.Visits r d) : Visits e.toNode r d
  | inNames {e c : Element} (ht : e.tag = "names") (hc : c ∈ e.elements) :
      Visits e.toNode .inNames c
  | inName {e name part : Element} (ht : e.tag = "names")
      (hn : lastTagged "name" e.elements = some name) (hp : part ∈ name.elements) :
      Visits e.toNode .inName part
  | shorthand {e c : Element} (ht : e.tag = "names") (hc : c ∈ substituteElements e.elements)
      (hs : isShorthand c.tag c.children = true) : Visits e.toNode .shorthand c
  | substitute {e c d : Element} {r : Role} (ht : e.tag = "names")
      (hc : c ∈ substituteElements e.elements) (hs : isShorthand c.tag c.children = false)
      (hd : c.toNode.Visits r d) : Visits e.toNode r d

theorem Node.Visits.contains {n : Node} {r : Role} {e : Element} (h : n.Visits r e) :
    n.Contains e := by
  have hsubstitute {e c d : Element} (hc : c ∈ substituteElements e.elements)
      (hd : c.toNode.Contains d) : e.toNode.Contains d := by
    obtain ⟨s, hs, -, hcs⟩ := mem_substituteElements_iff.mp hc
    exact .inside (mem_elements_iff.mp hs) (.inside (mem_elements_iff.mp hcs) hd)
  induction h with
  | top e => exact .top e
  | child _ hc _ ih => exact .inside hc ih
  | inNames _ hc => exact .inside (mem_elements_iff.mp hc) (.top _)
  | inName _ hn hp =>
    have hname := (mem_tagged.mp (List.mem_of_getLast? hn)).1
    exact .inside (mem_elements_iff.mp hname) (.inside (mem_elements_iff.mp hp) (.top _))
  | shorthand _ hc _ => exact hsubstitute hc (.top _)
  | substitute _ hc _ _ ih => exact hsubstitute hc ih

/-! ## One element -/

theorem blames_of_namesVariables {e : Element} {m : Misplacement} {r : Role}
    (ht : e.tag = "names") (hr : r = .rendered ∨ r = .shorthand)
    (h : namesVariables e.attributes e.line = .error m) : m.Blames r e := by
  have hv : ¬ e.ListsVariables := by
    rw [listsVariables_iff, not_not]
    by_contra hne
    rw [namesVariables_eq_ok_iff.mpr ⟨hne, rfl⟩] at h
    cases h
  unfold namesVariables at h
  split at h
  · obtain rfl := Except.error.inj h
    exact ⟨.withoutVariable hr ht hv, ht.symm, rfl⟩
  · cases h

theorem nameParts_blames {parts : List Element} {m : Misplacement}
    (h : nameParts parts = .error m) : ∃ part ∈ parts, m.Blames .inName part := by
  induction parts with
  | nil => cases h
  | cons part rest ih =>
    rw [nameParts] at h
    split at h
    · next hr =>
      obtain rfl := Except.error.inj h
      exact ⟨part, List.mem_cons_self, blames_of_resolve hr _⟩
    · next t hr =>
      split at h
      · split at h
        · next hrest =>
          obtain rfl := Except.error.inj h
          exact List.exists_mem_cons_of_exists (ih hrest)
        · cases h
      · next hne =>
        obtain rfl := Except.error.inj h
        have ht : part.tag ≠ "name-part" := fun ht =>
          hne (Except.ok.inj (hr.symm.trans (resolve_eq_ok_iff (t := .namePart).mpr ht.symm)))
        exact ⟨part, List.mem_cons_self, (Breaks.inName (isKnown_of_resolve hr) ht).blames⟩

/-- How a substitute is refused: it lists no variables, or it does not compile. -/
inductive SubstituteRefused (m : Misplacement) (c : Element) : Prop
  | shorthand (hs : isShorthand c.tag c.children = true) (hb : m.Blames .shorthand c)
  | full (hs : isShorthand c.tag c.children = false) (hc : c.toNode.compile = .error m)

theorem compileSubstitutes_eq_error {nodes : List Node} {m : Misplacement}
    (h : compileSubstitutes nodes = .error m) :
    ∃ c ∈ Node.elements nodes, SubstituteRefused m c := by
  induction nodes with
  | nil => rw [compileSubstitutes] at h; cases h
  | cons node rest ih =>
    cases node using Node.textOrElement with
    | text value => rw [compileSubstitutes] at h; exact ih h
    | element e =>
      rw [Element.toNode, compileSubstitutes] at h
      rw [Element.toNode, Node.elements_element]
      split at h
      · next hs =>
        split at h
        · next hv =>
          obtain rfl := Except.error.inj h
          have ht := (isShorthand_iff.mp hs).1
          exact ⟨e, List.mem_cons_self, .shorthand hs (blames_of_namesVariables ht (.inr rfl) hv)⟩
        · split at h
          · next hr =>
            obtain rfl := Except.error.inj h
            exact List.exists_mem_cons_of_exists (ih hr)
          · cases h
      · next hs =>
        split at h
        · next hc =>
          obtain rfl := Except.error.inj h
          exact ⟨e, List.mem_cons_self, .full (Bool.eq_false_iff.mpr hs) hc⟩
        · split at h
          · next hr =>
            obtain rfl := Except.error.inj h
            exact List.exists_mem_cons_of_exists (ih hr)
          · cases h

/-- How a child of `names` is refused: it may not stand there, or it is for a substitute. -/
inductive NamesChildRefused (m : Misplacement) (c : Element) : Prop
  | child (hb : m.Blames .inNames c)
  | substitute {s : Element} (ht : c.tag = "substitute") (hs : s ∈ c.elements)
      (hb : SubstituteRefused m s)

theorem gatherNames_eq_error {nodes : List Node} {parts : NamesParts} {m : Misplacement}
    (h : gatherNames parts nodes = .error m) :
    ∃ c ∈ Node.elements nodes, NamesChildRefused m c := by
  induction nodes generalizing parts with
  | nil => rw [gatherNames] at h; cases h
  | cons node rest ih =>
    cases node using Node.textOrElement with
    | text value => rw [gatherNames] at h; exact ih h
    | element e =>
      rw [Element.toNode, gatherNames] at h
      rw [Element.toNode, Node.elements_element]
      split at h
      · next hr =>
        obtain rfl := Except.error.inj h
        exact ⟨e, List.mem_cons_self, .child (blames_of_resolve hr _)⟩
      · exact List.exists_mem_cons_of_exists (ih h)
      · exact List.exists_mem_cons_of_exists (ih h)
      · exact List.exists_mem_cons_of_exists (ih h)
      · next hr =>
        split at h
        · next hs =>
          obtain rfl := Except.error.inj h
          obtain ⟨c, hc, hb⟩ := compileSubstitutes_eq_error hs
          have ht : e.tag = "substitute" := (resolveTag_eq_ok_iff.mp hr).symm
          exact ⟨e, List.mem_cons_self, .substitute ht hc hb⟩
        · exact List.exists_mem_cons_of_exists (ih h)
      · next t hname hlabel hetal hsub hr =>
        obtain rfl := Except.error.inj h
        have ht : e.tag ∉ namesChildTags := by
          refine tag_not_mem_of_resolve [.name, .label, .etAl, .substitute] hr ?_
          simp only [List.mem_cons, List.not_mem_nil, or_false, not_or]
          exact ⟨hname, hlabel, hetal, hsub⟩
        have hb := (Breaks.inNames (isKnown_of_resolve hr) ht).blames
        exact ⟨e, List.mem_cons_self, .child hb⟩

/-- What has been gathered is refused for lack of a name and label, or for a part of its name. -/
theorem NamesParts.program_eq_error {parts : NamesParts} {vars : List String}
    {attributes : Table String} {line : Int} {m : Misplacement}
    (h : parts.program vars attributes line = .error m) :
    parts.name = none ∧ parts.label = none ∧ m = ⟨.withoutNameOrLabel, "names", line⟩ ∨
      ∃ name, parts.name = some name ∧ ∃ part ∈ name.elements, m.Blames .inName part := by
  unfold NamesParts.program at h
  split at h
  · next hnone =>
    obtain ⟨hname, hlabel⟩ := Bool.and_eq_true_iff.mp hnone
    exact .inl ⟨Option.isNone_iff_eq_none.mp hname, Option.isNone_iff_eq_none.mp hlabel,
      (Except.error.inj h).symm⟩
  · split at h
    · next hp =>
      obtain rfl := Except.error.inj h
      cases hn : parts.name with
      | none => rw [hn] at hp; cases hp
      | some name =>
        rw [hn] at hp
        exact .inr ⟨name, rfl, nameParts_blames hp⟩
    · cases h

theorem compile_names_eq_error {e : Element} {m : Misplacement} (ht : e.tag = "names")
    (h : e.toNode.compile = .error m) : m.Blames .rendered e ∨
      (∃ c ∈ e.elements, NamesChildRefused m c) ∨
      ∃ name, lastTagged "name" e.elements = some name ∧
        ∃ part ∈ name.elements, m.Blames .inName part := by
  have hr : resolveTag e.tag e.line = .ok .names := resolveTag_eq_ok_iff.mpr ht.symm
  rw [Element.toNode, Node.compile, hr] at h
  simp only [if_true] at h
  split at h
  · next hv =>
    obtain rfl := Except.error.inj h
    exact .inl (blames_of_namesVariables ht (.inl rfl) hv)
  · split at h
    · next hg =>
      obtain rfl := Except.error.inj h
      exact .inr (.inl (gatherNames_eq_error hg))
    · next parts hg =>
      obtain ⟨-, hga⟩ := gatherNames_eq_ok hg
      have hname := hga.name
      have hlabel := hga.label
      rw [Option.or_none] at hname hlabel
      obtain ⟨hnn, hnl, rfl⟩ | ⟨name, hn, hp⟩ := NamesParts.program_eq_error h
      · have hnoName := lastTagged_eq_none_iff.mp (hname.symm.trans hnn)
        have hnoLabel :=
          lastTagged_eq_none_iff.mp (Option.map_eq_none_iff.mp (hlabel.symm.trans hnl))
        exact .inl ⟨.withoutNameOrLabel ht fun c hc => ⟨hnoName c hc, hnoLabel c hc⟩, ht.symm, rfl⟩
      · exact .inr (.inr ⟨name, hname.symm.trans hn, hp⟩)

/-- An element of another tag than `names` is refused itself, or its children are. -/
theorem compile_other_eq_error {e : Element} {m : Misplacement} (hn : e.tag ≠ "names")
    (h : e.toNode.compile = .error m) :
    m.Blames .rendered e ∨ e.tag ∈ genericTags ∧ compileAll e.children = .error m := by
  rw [Element.toNode, Node.compile] at h
  split at h
  · next hr =>
    obtain rfl := Except.error.inj h
    exact .inl (blames_of_resolve hr _)
  · next t hr =>
    have ht : t.toString = e.tag := resolveTag_eq_ok_iff.mp hr
    split at h
    · next hnames => rw [← ht, hnames] at hn; exact absurd rfl hn
    · split at h
      · next ho =>
        obtain rfl := Except.error.inj h
        have ho : e.tag ∈ namesOnlyTags := ht ▸ (toString_mem_namesOnlyTags_iff t).mpr ho
        exact .inl (Breaks.outsideNames ho).blames
      · next ho =>
        have ho : e.tag ∉ namesOnlyTags := ht ▸ mt (toString_mem_namesOnlyTags_iff t).mp ho
        split at h
        · next hg =>
          split at h
          · next hc =>
            obtain rfl := Except.error.inj h
            exact .inr ⟨mem_genericTags_iff.mpr ⟨t, ht, hg⟩, hc⟩
          · cases h
        · next hg =>
          obtain rfl := Except.error.inj h
          have hg : e.tag ∉ genericTags := ht ▸ mt (toString_mem_genericTags_iff t).mp hg
          exact .inl (Breaks.notRendering ⟨t, ht⟩ hn ho hg).blames

/-! ## Whole trees -/

theorem compileAll_eq_error {nodes : List Node} {m : Misplacement}
    (h : compileAll nodes = .error m) : ∃ before n after, nodes = before ++ n :: after ∧
      (∀ c ∈ before, ∃ p, c.compile = .ok p) ∧ n.compile = .error m := by
  induction nodes with
  | nil => cases h
  | cons n rest ih =>
    rw [compileAll] at h
    split at h
    · next hn =>
      obtain rfl := Except.error.inj h
      exact ⟨[], n, rest, rfl, fun _ hc => absurd hc List.not_mem_nil, hn⟩
    · next p hn =>
      split at h
      · next hr =>
        obtain rfl := Except.error.inj h
        obtain ⟨before, n', after, rfl, hbefore, hn'⟩ := ih hr
        exact ⟨n :: before, n', after, rfl, List.forall_mem_cons.mpr ⟨⟨p, hn⟩, hbefore⟩, hn'⟩
      · cases h

theorem exists_element_of_compile_eq_error {n : Node} {m : Misplacement}
    (h : n.compile = .error m) : ∃ e : Element, n = e.toNode := by
  cases n using Node.textOrElement with
  | text value => rw [Node.compile] at h; cases h
  | element e => exact ⟨e, rfl⟩

/-- **A refused tree is refused for one of its elements.** -/
theorem compile_blames {n : Node} {m : Misplacement} (h : n.compile = .error m) :
    ∃ r e, n.Visits r e ∧ m.Blames r e := by
  obtain ⟨e, rfl⟩ := exists_element_of_compile_eq_error h
  -- over all elements inside, since a substitute stands two levels down from its `names`
  induction e using Element.induction with
  | h e ih =>
    by_cases ht : e.tag = "names"
    · obtain hb | ⟨c, hc, hb⟩ | ⟨name, hn, part, hp, hb⟩ := compile_names_eq_error ht h
      · exact ⟨_, e, .top e, hb⟩
      · cases hb with
        | child hb => exact ⟨_, c, .inNames ht hc, hb⟩
        | @substitute s hct hs hb =>
          have hsub := mem_substituteElements_iff.mpr ⟨c, hc, hct, hs⟩
          cases hb with
          | shorthand hshort hb => exact ⟨_, s, .shorthand ht hsub hshort, hb⟩
          | full hfull hcompile =>
            have hinside := Node.Contains.inside (mem_elements_iff.mp hs) (.top s)
            obtain ⟨r, d, hd, hb⟩ := ih _ (mem_elements_iff.mp hc) s hinside hcompile
            exact ⟨r, d, .substitute ht hsub hfull hd, hb⟩
      · exact ⟨_, part, .inName ht hn hp, hb⟩
    · obtain hb | ⟨hg, hc⟩ := compile_other_eq_error ht h
      · exact ⟨_, e, .top e, hb⟩
      · obtain ⟨before, n, after, hchildren, -, hn⟩ := compileAll_eq_error hc
        obtain ⟨c, rfl⟩ := exists_element_of_compile_eq_error hn
        have hmem : c.toNode ∈ e.children := by simp [hchildren]
        obtain ⟨r, d, hd, hb⟩ := ih _ hmem c (.top c) hn
        exact ⟨r, d, .child hg hmem hd, hb⟩

theorem allElementsOf_append (before after : List Node) :
    allElementsOf (before ++ after) = allElementsOf before ++ allElementsOf after := by
  induction before with
  | nil => rfl
  | cons n rest ih => rw [List.cons_append, allElementsOf, ih, allElementsOf, List.append_assoc]

theorem allElements_toNode (e : Element) :
    e.toNode.allElements = e :: allElementsOf e.children := by
  rw [Element.toNode, Node.allElements]

def Node.WithoutNames (n : Node) : Prop := ∀ e, n.Contains e → e.tag ≠ "names"

theorem Node.WithoutNames.child {e : Element} {c : Node} (h : e.toNode.WithoutNames)
    (hc : c ∈ e.children) : c.WithoutNames := fun d hd => h d (.inside hc hd)

/-- Without `names` elements, all elements of a tree that compiles are generic. -/
theorem mem_genericTags_of_compile {n : Node} {p : Program} (hn : n.WithoutNames)
    (h : n.compile = .ok p) : ∀ d ∈ n.allElements, d.tag ∈ genericTags := by
  cases n using Node.textOrElement with
  | text value => simp [Node.allElements]
  | element e =>
    induction e using Element.induction generalizing p with
    | h e ih =>
      obtain ⟨hg, hchildren⟩ := (compile_generic_isOk_iff (hn e (.top e))).mp ⟨p, h⟩
      rw [allElements_toNode]
      refine List.forall_mem_cons.mpr ⟨hg, fun d hd => ?_⟩
      obtain ⟨c, hc, hdc⟩ := mem_allElementsOf_iff.mp hd
      obtain ⟨q, hq⟩ := hchildren c hc
      cases c using Node.textOrElement with
      | text value => simp [Node.allElements] at hdc
      | element x => exact ih _ hc x (.top x) (hn.child hc) hq d hdc

/-- **Without `names` elements, the first element that breaks a rule is blamed.** -/
theorem compile_blames_first {n : Node} {m : Misplacement} (hn : n.WithoutNames)
    (h : n.compile = .error m) : ∃ before e after, n.allElements = before ++ e :: after ∧
      (∀ d ∈ before, ∀ v, ¬ Breaks .rendered d v) ∧ m.Blames .rendered e := by
  obtain ⟨e, rfl⟩ := exists_element_of_compile_eq_error h
  induction e using Element.induction with
  | h e ih =>
    rw [allElements_toNode]
    obtain hb | ⟨hg, hc⟩ := compile_other_eq_error (hn e (.top e)) h
    · exact ⟨[], e, _, rfl, fun _ hd => absurd hd List.not_mem_nil, hb⟩
    · obtain ⟨before, n, after, hchildren, hbefore, hcompile⟩ := compileAll_eq_error hc
      obtain ⟨c, rfl⟩ := exists_element_of_compile_eq_error hcompile
      have hmem : c.toNode ∈ e.children := by simp [hchildren]
      obtain ⟨pre, d, post, hall, hpre, hb⟩ := ih _ hmem c (.top c) (hn.child hmem) hcompile
      refine ⟨e :: (allElementsOf before ++ pre), d, post ++ allElementsOf after, ?_, ?_, hb⟩
      · rw [hchildren, allElementsOf_append, allElementsOf, hall]
        simp only [List.cons_append, List.append_assoc]
      · refine List.forall_mem_cons.mpr ⟨not_breaks_of_mem_genericTags hg, fun x hx => ?_⟩
        obtain hx | hx := List.mem_append.mp hx
        · obtain ⟨k, hk, hxk⟩ := mem_allElementsOf_iff.mp hx
          obtain ⟨q, hq⟩ := hbefore k hk
          have hkmem : k ∈ e.children := by simp [hchildren, hk]
          exact not_breaks_of_mem_genericTags
            (mem_genericTags_of_compile (hn.child hkmem) hq x hxk)
        · exact hpre x hx

end CiteStyle
