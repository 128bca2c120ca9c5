import CiteStyle.Proofs.Rendering.Grammar
import CiteStyle.Rendering.Run

/-! # What a `names` element renders

`runFirst_tried` says what trying substitutes gives: the first one with something to show, and no
step of those after it. With what the compiler keeps of an element (`compile_names_eq_ok_iff`) this
settles its value and all steps that lead to it (`names_render`). -/

namespace CiteStyle

/-! ## What trying substitutes gives -/

theorem asSubstitute?_eq_some_iff {o : Output} {value : Rendered} :
    o.asSubstitute? = some value ↔
      ∃ won, o = .rendered won ∧ won.isEmpty = false ∧
        value = { won with substituted := true } := by
  cases o with
  | plain text => simp [Output.asSubstitute?]
  | rendered r =>
    rw [Output.asSubstitute?]
    cases hr : r.isEmpty with
    | true => simp [hr]
    | false =>
      constructor
      · intro h
        exact ⟨r, rfl, hr, (Option.some.inj h).symm⟩
      · rintro ⟨won, ho, -, rfl⟩
        obtain rfl := Output.rendered.inj ho
        rfl

/-- A run with nothing to show in place of names: a bare text or an empty value. -/
def Run.Blank (r : Run) : Prop := ∀ value, r.output = .rendered value → value.isEmpty = true

theorem blank_iff {r : Run} : r.Blank ↔ r.output.asSubstitute? = none := by
  unfold Run.Blank
  cases r.output with
  | plain text => simp [Output.asSubstitute?]
  | rendered value => simp [Output.asSubstitute?]

/-- Runs tried in order: the value that is taken and the steps on the way to it. The first run with
something to show wins and is marked as a substitute; later runs leave no step behind. -/
inductive TriedInOrder : List Run → Rendered → List Event → Prop
  | won (before after : List Run) {winner : Run} {value : Rendered}
      (hb : ∀ r ∈ before, r.Blank) (hw : winner.output = .rendered value)
      (hv : value.isEmpty = false) :
      TriedInOrder (before ++ winner :: after) { value with substituted := true }
        (before.flatMap Run.trace ++ winner.trace)
  | exhausted {runs : List Run} (h : ∀ r ∈ runs, r.Blank) :
      TriedInOrder runs .empty (runs.flatMap Run.trace)

theorem TriedInOrder.cons_blank {r : Run} {runs : List Run} {value : Rendered} {trace : List Event}
    (hr : r.Blank) (h : TriedInOrder runs value trace) :
    TriedInOrder (r :: runs) value (r.trace ++ trace) := by
  cases h with
  | won before after hb hw hv =>
    have hb' : ∀ x ∈ r :: before, x.Blank := List.forall_mem_cons.mpr ⟨hr, hb⟩
    have ht := TriedInOrder.won (r :: before) after hb' hw hv
    rwa [List.flatMap_cons, List.append_assoc] at ht
  | exhausted h =>
    have ht := TriedInOrder.exhausted (List.forall_mem_cons.mpr ⟨hr, h⟩)
    rwa [List.flatMap_cons] at ht

section

variable (prims : Primitives) (calls : Calls) (ctx : Context)

theorem runFirst_tried (ps : List Program) :
    TriedInOrder (ps.map (·.run prims calls ctx)) (runFirst prims calls ctx ps).1
      (runFirst prims calls ctx ps).2 := by
  induction ps with
  | nil =>
    rw [runFirst]
    exact .exhausted (by simp)
  | cons p rest ih =>
    rw [runFirst, List.map_cons]
    cases hs : (p.run prims calls ctx).output.asSubstitute? with
    | some value =>
      obtain ⟨won, ho, he, rfl⟩ := asSubstitute?_eq_some_iff.mp hs
      exact TriedInOrder.won [] _ (by simp) ho he
    | none => exact ih.cons_blank (blank_iff.mpr hs)

/-- The run of a substitute: a shorthand lists its variables under the settings around it. -/
def Substitute.run (settings : NamesSettings) : Substitute → Run
  | shorthand vars => ⟨.rendered (prims.nameList ctx vars settings), [.nameList vars settings]⟩
  | full p => p.run prims calls ctx

theorem map_run_program (settings : NamesSettings) (subs : List Substitute) :
    (subs.map (·.program settings)).map (·.run prims calls ctx) =
      subs.map (·.run prims calls ctx settings) := by
  rw [List.map_map]
  apply List.map_congr_left
  intro s _
  cases s with
  | shorthand vars =>
    simp only [Function.comp_apply, Substitute.program, Program.run, Substitute.run]
  | full p => rfl

end

/-! ## What the element renders -/

/-- The value of a `names` element before counting, and the steps after its own variables: their
names if there are any, else what trying the substitutes gives. -/
inductive NamesValue (primary : Rendered) (runs : List Run) : Rendered → List Event → Prop
  | listed (h : primary.isEmpty = false) : NamesValue primary runs primary []
  | replaced {value : Rendered} {trace : List Event} (h : primary.isEmpty = true)
      (ht : TriedInOrder runs value trace) : NamesValue primary runs value trace

/-- A value with the number of its names in place of them; zero is not shown. -/
def Rendered.counted (r : Rendered) (n : Int) : Rendered :=
  if n = 0 then ⟨some "", .emptyVariables, r.substituted⟩
  else ⟨some (toString n), r.kind, r.substituted⟩

/-- **A `names` element is lazy in its substitutes.** With the author left out it renders nothing
and takes no step. Otherwise its own variables come first, then its substitutes up to the one that
is taken, and, if only their number is wanted, the count of the names that were found. -/
theorem names_render {e : Element} {p : Program} (ht : e.tag = "names")
    (h : e.toNode.compile = .ok p) :
    ∃ subs, List.Forall₂ StandsFor (substituteElements e.elements) subs ∧
      ∀ (prims : Primitives) (calls : Calls) (ctx : Context),
        (ctx.suppressAuthor = true → p.run prims calls ctx = ⟨.rendered .empty, []⟩) ∧
        (ctx.suppressAuthor = false → ∃ base tried,
          NamesValue (prims.nameList ctx (variableList e.attributes) e.namesSettings)
            (subs.map (·.run prims calls ctx e.namesSettings)) base tried ∧
          p.run prims calls ctx =
            if e.namesSettings.countsOnly then
              ⟨.rendered (base.counted (prims.countNames ctx base)),
                .nameList (variableList e.attributes) e.namesSettings :: tried ++
                  [.count base.text (prims.countNames ctx base)]⟩
            else
              ⟨.rendered base, .nameList (variableList e.attributes) e.namesSettings :: tried⟩) := by
  obtain ⟨-, subs, hs, rfl⟩ := (compile_names_eq_ok_iff ht).mp h
  refine ⟨subs, hs, fun prims calls ctx => ⟨fun ha => ?_, fun ha => ?_⟩⟩
  · rw [Program.run, if_pos ha]
  · rw [Program.run, if_neg (by simp [ha])]
    have hf := runFirst_tried prims calls ctx (subs.map (·.program e.namesSettings))
    rw [map_run_program] at hf
    cases hp : (prims.nameList ctx (variableList e.attributes) e.namesSettings).isEmpty with
    | false => exact ⟨_, [], .listed hp, by simp [hp, countRun, Rendered.counted]⟩
    | true => exact ⟨_, _, .replaced hp hf, by simp [hp, countRun, Rendered.counted]⟩

def authorOrEditor : Element where
  tag := "names"
  attributes := .ofList [("variable", "author")]
  children := [
    .element "name" {} [] 1,
    .element "substitute" {} [
      .element "names" (.ofList [("variable", "editor")]) [] 2,
      .element "text" (.ofList [("value", "Anon.")]) [] 3] 2]
  line := 1

theorem authorOrEditor_render :
    ∃ p subs base tried, authorOrEditor.tag = "names" ∧ authorOrEditor.toNode.compile = .ok p ∧
      List.Forall₂ StandsFor (substituteElements authorOrEditor.elements) subs ∧
      p.run .plainText (fun _ => none) { suppressAuthor := true } = ⟨.rendered .empty, []⟩ ∧
      NamesValue (Primitives.plainText.nameList {} ["author"] authorOrEditor.namesSettings)
        (subs.map (·.run .plainText (fun _ => none) {} authorOrEditor.namesSettings)) base tried ∧
      p.run .plainText (fun _ => none) {} =
        ⟨.rendered base, .nameList ["author"] authorOrEditor.namesSettings :: tried⟩ := by
  obtain ⟨p, hp⟩ : ∃ p, authorOrEditor.toNode.compile = .ok p := ⟨_, rfl⟩
  obtain ⟨subs, hs, hr⟩ := names_render rfl hp
  obtain ⟨base, tried, hv, ht⟩ := (hr .plainText (fun _ => none) {}).2 rfl
  have hvars : variableList authorOrEditor.attributes = ["author"] := by decide +kernel
  have hcount : authorOrEditor.namesSettings.countsOnly = false := by decide +kernel
  rw [hvars] at hv ht
  rw [hcount] at ht
  exact ⟨p, subs, base, tried, rfl, hp, hs, (hr _ _ _).1 rfl, hv, ht⟩

end CiteStyle
