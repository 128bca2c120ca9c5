import CiteStyle.Fragment
import Mathlib.Data.List.Forall2
import Mathlib.Data.Option.Basic

/-! # The parts of a citation or bibliography

Which children of a `citation` or `bibliography` element its sorting and layout come from, and that
nothing else decides whether it compiles. What follows the layout is told of and has no other
effect (`fragment_positional`). -/

namespace CiteStyle

/-! ## Compiling the parts -/

theorem map_eq_ok_iff {ε α β : Type} {x : Except ε α} {f : α → β} {b : β} :
    x.map f = .ok b ↔ ∃ a, x = .ok a ∧ b = f a := by
  cases x <;> simp [Except.map, eq_comm]

theorem map_eq_error_iff {ε α β : Type} {x : Except ε α} {f : α → β} {e : ε} :
    x.map f = .error e ↔ x = .error e := by
  cases x <;> simp [Except.map]

theorem compileSort?_eq_ok_iff {sort : Element} {sorting : Option Sorting} :
    compileSort? (some sort) = .ok sorting ↔
      ∃ keys, sort.toNode.compile = .ok keys ∧ sorting = some ⟨keys, sortDirections sort⟩ := by
  rw [compileSort?, map_eq_ok_iff]
  simp only [compileSort, map_eq_ok_iff]
  constructor
  · rintro ⟨_, ⟨keys, hk, rfl⟩, rfl⟩
    exact ⟨keys, hk, rfl⟩
  · rintro ⟨keys, hk, rfl⟩
    exact ⟨_, ⟨keys, hk, rfl⟩, rfl⟩

theorem compileLayout_eq_ok_iff {sort : Option Element} {layout : Element} {a : Arrangement} :
    compileLayout sort layout = .ok a ↔ ∃ sorting program, compileSort? sort = .ok sorting ∧
      layout.toNode.compile = .ok program ∧ a = ⟨program, layout.attributes, sorting⟩ := by
  unfold compileLayout
  split
  · next m hm => simp [hm]
  · next sorting hs => simp [hs, map_eq_ok_iff]

theorem exists_compileSort?_iff {sort : Option Element} :
    (∃ sorting, compileSort? sort = .ok sorting) ↔
      ∀ s ∈ sort, ∃ keys, s.toNode.compile = .ok keys := by
  cases sort with
  | none => exact ⟨fun _ => nofun, fun _ => ⟨none, rfl⟩⟩
  | some s =>
    simp only [compileSort?_eq_ok_iff, Option.mem_some_iff, forall_eq']
    exact ⟨fun ⟨_, keys, hk, _⟩ => ⟨keys, hk⟩, fun ⟨keys, hk⟩ => ⟨_, keys, hk, rfl⟩⟩

theorem exists_compileLayout_iff {sort : Option Element} {layout : Element} :
    (∃ a, compileLayout sort layout = .ok a) ↔
      (∀ s ∈ sort, ∃ keys, s.toNode.compile = .ok keys) ∧
        ∃ program, layout.toNode.compile = .ok program := by
  rw [← exists_compileSort?_iff]
  constructor
  · rintro ⟨a, ha⟩
    obtain ⟨sorting, program, hs, hp, -⟩ := compileLayout_eq_ok_iff.mp ha
    exact ⟨⟨sorting, hs⟩, program, hp⟩
  · rintro ⟨⟨sorting, hs⟩, program, hp⟩
    exact ⟨_, compileLayout_eq_ok_iff.mpr ⟨sorting, program, hs, hp, rfl⟩⟩

/-! ## The places of the parts -/

theorem splitSort_elements {es rest : List Element} {sort : Option Element}
    (h : splitSort es = (sort, rest)) :
    es = sort.toList ++ rest ∧ ∀ s ∈ sort, s.tag = "sort" := by
  unfold splitSort at h
  split at h
  · split at h
    · next hs => cases h; simp [hs]
    · cases h; simp
  · cases h; simp

/-- Some elements begin with a layout, perhaps with a `sort` right before it; the extras follow. -/
structure Begins (es : List Element) (sort : Option Element) (layout : Element)
    (extras : List Element) : Prop where
  elements : es = sort.toList ++ layout :: extras
  sortTag : ∀ s ∈ sort, s.tag = "sort"
  layoutTag : layout.tag = "layout"

/-- There is a layout in its place. -/
def HasBeginning (es : List Element) : Prop := ∃ sort layout extras, Begins es sort layout extras

theorem Begins.splitSort_eq {es extras : List Element} {sort : Option Element} {layout : Element}
    (h : Begins es sort layout extras) : splitSort es = (sort, layout :: extras) := by
  obtain ⟨rfl, hs, ht⟩ := h
  cases sort with
  | none => simp [splitSort, ht]
  | some s => simp [splitSort, hs s rfl]

theorem begins_of_splitSort {es extras : List Element} {sort : Option Element} {layout : Element}
    (h : splitSort es = (sort, layout :: extras)) (ht : layout.tag = "layout") :
    Begins es sort layout extras := by
  obtain ⟨hes, hs⟩ := splitSort_elements h
  exact ⟨hes, hs, ht⟩

theorem fragment_of_begins {e : Element} {sort : Option Element} {layout : Element}
    {extras : List Element} (h : Begins e.elements sort layout extras) :
    e.fragment = ⟨extras.map fun x => .ignoredElement x.tag e.tag x.line,
      (compileLayout sort layout).map fun a => ⟨e.attributes, a⟩⟩ := by
  unfold Element.fragment
  rw [h.splitSort_eq]
  exact if_pos h.layoutTag

theorem fragment_of_not_hasBeginning {e : Element} (h : ¬ HasBeginning e.elements) :
    e.fragment = .fail ⟨.withoutLayout, e.tag, e.line⟩ := by
  unfold Element.fragment
  split
  · rfl
  · next sort layout extras hsplit =>
    exact if_neg fun ht => h ⟨sort, layout, extras, begins_of_splitSort hsplit ht⟩

theorem fragment_eq_ok_iff_begins {e : Element} {f : Fragment} :
    e.fragment.result = .ok f ↔ ∃ sort layout extras a, Begins e.elements sort layout extras ∧
      compileLayout sort layout = .ok a ∧ f = ⟨e.attributes, a⟩ := by
  constructor
  · intro hf
    by_cases hb : HasBeginning e.elements
    · obtain ⟨sort, layout, extras, hb⟩ := hb
      rw [fragment_of_begins hb] at hf
      obtain ⟨a, ha, rfl⟩ := map_eq_ok_iff.mp hf
      exact ⟨sort, layout, extras, a, hb, ha, rfl⟩
    · rw [fragment_of_not_hasBeginning hb] at hf
      cases hf
  · rintro ⟨sort, layout, extras, a, hb, ha, rfl⟩
    rw [fragment_of_begins hb]
    exact map_eq_ok_iff.mpr ⟨a, ha, rfl⟩

/-- The arrangement that children make up: a `layout`, perhaps with a `sort` right before it, and
then anything. Sorting comes from that `sort` alone, so there are directions exactly if there is
something to sort by. -/
inductive Arranged : List Element → Arrangement → Prop
  | unsorted {layout : Element} {extras : List Element} {program : Program}
      (ht : layout.tag = "layout") (hp : layout.toNode.compile = .ok program) :
      Arranged (layout :: extras) ⟨program, layout.attributes, none⟩
  | sorted {sort layout : Element} {extras : List Element} {keys program : Program}
      (hs : sort.tag = "sort") (hk : sort.toNode.compile = .ok keys)
      (ht : layout.tag = "layout") (hp : layout.toNode.compile = .ok program) :
      Arranged (sort :: layout :: extras)
        ⟨program, layout.attributes, some ⟨keys, sortDirections sort⟩⟩

theorem arranged_iff_begins {es : List Element} {a : Arrangement} :
    Arranged es a ↔ ∃ sort layout extras, Begins es sort layout extras ∧
      compileLayout sort layout = .ok a := by
  constructor
  · intro h
    cases h with
    | unsorted ht hp =>
      exact ⟨none, _, _, ⟨rfl, nofun, ht⟩, compileLayout_eq_ok_iff.mpr ⟨none, _, rfl, hp, rfl⟩⟩
    | sorted hs hk ht hp =>
      exact ⟨some _, _, _, ⟨rfl, fun s h => Option.some.inj h ▸ hs, ht⟩,
        compileLayout_eq_ok_iff.mpr
          ⟨_, _, compileSort?_eq_ok_iff.mpr ⟨_, hk, rfl⟩, hp, rfl⟩⟩
  · rintro ⟨sort, layout, extras, ⟨rfl, hsort, ht⟩, ha⟩
    obtain ⟨sorting, program, hs, hp, rfl⟩ := compileLayout_eq_ok_iff.mp ha
    cases sort with
    | none =>
      cases hs
      exact .unsorted ht hp
    | some s =>
      obtain ⟨keys, hk, rfl⟩ := compileSort?_eq_ok_iff.mp hs
      exact .sorted (hsort s rfl) hk ht hp

/-- An element compiles exactly if its children make up an arrangement, to that and its own
attributes. -/
theorem fragment_eq_ok_iff {e : Element} {f : Fragment} :
    e.fragment.result = .ok f ↔ f.options = e.attributes ∧ Arranged e.elements f.arrangement := by
  rw [fragment_eq_ok_iff_begins, arranged_iff_begins]
  constructor
  · rintro ⟨sort, layout, extras, a, hb, ha, rfl⟩
    exact ⟨rfl, sort, layout, extras, hb, ha⟩
  · rintro ⟨hoptions, sort, layout, extras, hb, ha⟩
    exact ⟨sort, layout, extras, _, hb, ha, by rw [← hoptions]⟩

theorem exists_fragment_iff {e : Element} :
    (∃ f, e.fragment.result = .ok f) ↔ ∃ sort layout extras,
      Begins e.elements sort layout extras ∧
        (∀ s ∈ sort, ∃ keys, s.toNode.compile = .ok keys) ∧
          ∃ program, layout.toNode.compile = .ok program := by
  simp only [fragment_eq_ok_iff_begins, ← exists_compileLayout_iff]
  constructor
  · rintro ⟨_, sort, layout, extras, a, hb, ha, -⟩
    exact ⟨sort, layout, extras, hb, a, ha⟩
  · rintro ⟨sort, layout, extras, hb, a, ha⟩
    exact ⟨_, sort, layout, extras, a, hb, ha, rfl⟩

/-! ## What the parts give -/

/-- Sorting by a `sort` element: its program, and for each child element a direction, which
descends exactly if the child says so. -/
structure SortsBy (sort : Element) (sorting : Sorting) : Prop where
  program : sort.toNode.compile = .ok sorting.program
  ascending : List.Forall₂
    (fun key up => up = false ↔ key.attribute? "sort" = some "descending")
    sort.elements sorting.ascending

/-- A fragment made of the attributes of an element, a layout in it, and a `sort` if it has one:
there are sorting keys and directions exactly if there is a `sort`. -/
structure Fragment.MadeOf (f : Fragment) (e : Element) (sort : Option Element) (layout : Element) :
    Prop where
  options : f.options = e.attributes
  layoutAttributes : f.arrangement.layoutAttributes = layout.attributes
  layout : layout.toNode.compile = .ok f.arrangement.layout
  sorting : Option.Rel SortsBy sort f.arrangement.sorting

theorem sortsBy_of_compile {sort : Element} {keys : Program}
    (h : sort.toNode.compile = .ok keys) : SortsBy sort ⟨keys, sortDirections sort⟩ where
  program := h
  ascending := by
    refine List.forall₂_map_right_iff.mpr (List.forall₂_same.mpr fun key _ => ?_)
    rw [bne_eq_false_iff_eq]

theorem compileSort?_sortsBy {sort : Option Element} {sorting : Option Sorting}
    (h : compileSort? sort = .ok sorting) : Option.Rel SortsBy sort sorting := by
  cases sort with
  | none =>
    obtain rfl := Except.ok.inj h
    exact .none
  | some s =>
    obtain ⟨keys, hk, rfl⟩ := compileSort?_eq_ok_iff.mp h
    exact .some (sortsBy_of_compile hk)

theorem Begins.madeOf {e : Element} {sort : Option Element} {layout : Element}
    {extras : List Element} {f : Fragment} (h : Begins e.elements sort layout extras)
    (hf : e.fragment.result = .ok f) : f.MadeOf e sort layout := by
  rw [fragment_of_begins h] at hf
  obtain ⟨a, ha, rfl⟩ := map_eq_ok_iff.mp hf
  obtain ⟨sorting, program, hs, hp, rfl⟩ := compileLayout_eq_ok_iff.mp ha
  exact ⟨rfl, rfl, hp, compileSort?_sortsBy hs⟩

/-! ## What has no effect -/

/-- Two elements of one tag, on one line and with the same attributes, that have the same child
elements, or the same ones up to the layout and any others after it. Their texts may differ. -/
structure Element.SameUpToLayout (e e' : Element) : Prop where
  tag : e'.tag = e.tag
  attributes : e'.attributes = e.attributes
  line : e'.line = e.line
  elements : e'.elements = e.elements ∨ ∃ sort layout extras extras',
    Begins e.elements sort layout extras ∧ Begins e'.elements sort layout extras'

theorem Element.SameUpToLayout.result_eq {e e' : Element} (h : e.SameUpToLayout e') :
    e'.fragment.result = e.fragment.result := by
  obtain ⟨ht, ha, hl, helements⟩ := h
  by_cases hb : HasBeginning e.elements
  · obtain ⟨sort, layout, extras, extras', hb, hb'⟩ : ∃ sort layout extras extras',
        Begins e.elements sort layout extras ∧ Begins e'.elements sort layout extras' := by
      obtain heq | hboth := helements
      · obtain ⟨sort, layout, extras, hb⟩ := hb
        exact ⟨sort, layout, extras, extras, hb, heq ▸ hb⟩
      · exact hboth
    rw [fragment_of_begins hb, fragment_of_begins hb', ha]
  · obtain heq | ⟨sort, layout, extras, -, hbegins, -⟩ := helements
    · rw [fragment_of_not_hasBeginning hb, fragment_of_not_hasBeginning (heq ▸ hb), ht, hl]
    · exact absurd ⟨sort, layout, extras, hbegins⟩ hb

theorem fragment_log_of_begins {e : Element} {sort : Option Element} {layout : Element}
    {extras : List Element} (h : Begins e.elements sort layout extras) :
    e.fragment.log = extras.map fun x => .ignoredElement x.tag e.tag x.line := by
  rw [fragment_of_begins h]

theorem fragment_log_of_not_hasBeginning {e : Element} (h : ¬ HasBeginning e.elements) :
    e.fragment.log = [] := by
  rw [fragment_of_not_hasBeginning h]
  rfl

theorem level_of_mem_fragment_log {e : Element} {entry : LogEvent} (h : entry ∈ e.fragment.log) :
    entry.level = .warning := by
  by_cases hb : HasBeginning e.elements
  · obtain ⟨sort, layout, extras, hb⟩ := hb
    rw [fragment_log_of_begins hb] at h
    obtain ⟨x, -, rfl⟩ := List.mem_map.mp h
    rfl
  · rw [fragment_log_of_not_hasBeginning hb] at h
    cases h

/-- **The parts of a citation or bibliography, by their places.** An element compiles exactly if
its child elements begin with a layout, perhaps after a `sort`, and both compile. The fragment is
then made of them and the attributes of the element. Each element after the layout is warned of
once, in order, even if nothing compiles, and there is no other entry. Texts among the children and
the elements after the layout have no other effect: with different ones the outcome is the same. -/
theorem fragment_positional (e : Element) :
    ((∃ f, e.fragment.result = .ok f) ↔ ∃ sort layout extras,
      Begins e.elements sort layout extras ∧
        (∀ s ∈ sort, ∃ keys, s.toNode.compile = .ok keys) ∧
          ∃ program, layout.toNode.compile = .ok program) ∧
    (∀ sort layout extras, Begins e.elements sort layout extras →
      (∀ f, e.fragment.result = .ok f → f.MadeOf e sort layout) ∧
        e.fragment.log = extras.map fun x => .ignoredElement x.tag e.tag x.line) ∧
    (¬ HasBeginning e.elements → e.fragment.log = []) ∧
    (∀ entry ∈ e.fragment.log, entry.level = .warning) ∧
    ∀ e', e.SameUpToLayout e' → e'.fragment.result = e.fragment.result :=
  ⟨exists_fragment_iff, fun _ _ _ hb => ⟨fun _ hf => hb.madeOf hf, fragment_log_of_begins hb⟩,
    fragment_log_of_not_hasBeginning, fun _ => level_of_mem_fragment_log, fun _ he => he.result_eq⟩

def titleThenVolume : Element := ⟨"sort", {}, [
  .element "key" (.ofList [("variable", "title")]) [] 2,
  .element "key" (.ofList [("variable", "volume"), ("sort", "descending")]) [] 3], 2⟩

def wordLayout : Element := ⟨"layout", .ofList [("delimiter", "; ")], [.text "cited"], 4⟩

/-- A sorted citation with given nodes after its layout. -/
def sortedCitation (trailing : List Node) : Element :=
  ⟨"citation", .ofList [("collapse", "year")],
    titleThenVolume.toNode :: wordLayout.toNode :: trailing, 1⟩

def strayNodes : List Node := [.text "stray", .element "layout" {} [] 5, .element "odd" {} [] 6]

theorem sortedCitation_positional :
    (∃ f, (sortedCitation strayNodes).fragment.result = .ok f ∧
      f.MadeOf (sortedCitation strayNodes) (some titleThenVolume) wordLayout ∧
      (sortedCitation []).fragment.result = .ok f) ∧
    (sortedCitation strayNodes).fragment.log =
      [.ignoredElement "layout" "citation" 5, .ignoredElement "odd" "citation" 6] := by
  have hbegins (trailing : List Node) : Begins (sortedCitation trailing).elements
      (some titleThenVolume) wordLayout (Node.elements trailing) :=
    ⟨rfl, fun s hs => Option.some.inj hs ▸ rfl, rfl⟩
  obtain ⟨hiff, hparts, -, -, hinert⟩ := fragment_positional (sortedCitation strayNodes)
  obtain ⟨hmade, hlog⟩ := hparts _ _ _ (hbegins strayNodes)
  obtain ⟨f, hf⟩ := hiff.mpr ⟨_, _, _, hbegins strayNodes,
    fun s hs => Option.some.inj hs ▸ ⟨_, rfl⟩, _, rfl⟩
  have hsame : (sortedCitation strayNodes).SameUpToLayout (sortedCitation []) :=
    ⟨rfl, rfl, rfl, .inr ⟨_, _, _, _, hbegins strayNodes, hbegins []⟩⟩
  exact ⟨⟨f, hf, hmade f hf, (hinert _ hsame).trans hf⟩, hlog⟩

end CiteStyle
