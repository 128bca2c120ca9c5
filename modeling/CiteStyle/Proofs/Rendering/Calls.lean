import CiteStyle.Rendering.Run

/-! # Macro calls

Which macros a program calls, and that its output depends on calls through those alone
(`output_congr`). Under acyclic macros the meaning of a call is therefore the program of the macro,
run with all macros at hand (`calls_output_of_acyclic`). -/

namespace CiteStyle

/-! ## Outputs from outputs -/

section

variable (prims : Primitives) (calls : Calls) (ctx : Context)

theorem runAll_eq_map (ps : List Program) :
    runAll prims calls ctx ps = ps.map (·.run prims calls ctx) := by
  induction ps with
  | nil => rw [runAll, List.map_nil]
  | cons p rest ih => rw [runAll, ih, List.map_cons]

def Program.output (p : Program) : Output := (p.run prims calls ctx).output

theorem output_text (value : String) :
    (Program.text value).output prims calls ctx = .plain value := by
  rw [Program.output, Program.run]

theorem output_element (tag : Tag) (attributes : Table String) (children : List Program) :
    (Program.element tag attributes children).output prims calls ctx =
      (prims.element calls ctx tag attributes (children.map (·.output prims calls ctx))).1 := by
  rw [Program.output, Program.run, runAll_eq_map, List.map_map]
  rfl

theorem runFirst_fst (ps : List Program) :
    (runFirst prims calls ctx ps).1 =
      ((ps.map (·.output prims calls ctx)).findSome? Output.asSubstitute?).getD .empty := by
  induction ps with
  | nil => rw [runFirst]; rfl
  | cons p rest ih =>
    rw [runFirst, List.map_cons, List.findSome?_cons, Program.output]
    cases hs : (p.run prims calls ctx).output.asSubstitute? with
    | some value => rfl
    | none => exact ih

theorem output_nameList (vars : List String) (settings : NamesSettings) :
    (Program.nameList vars settings).output prims calls ctx =
      .rendered (prims.nameList ctx vars settings) := by
  rw [Program.output, Program.run]

/-- The value of `names` from the outputs of its substitutes. -/
def namesOutput (vars : List String) (settings : NamesSettings) (outputs : List Output) : Output :=
  if ctx.suppressAuthor then .rendered .empty
  else
    let primary := prims.nameList ctx vars settings
    let base :=
      if primary.isEmpty then (outputs.findSome? Output.asSubstitute?).getD .empty else primary
    if settings.countsOnly then (countRun prims ctx base).output else .rendered base

theorem output_names (vars : List String) (settings : NamesSettings) (subs : List Program) :
    (Program.names vars settings subs).output prims calls ctx =
      namesOutput prims ctx vars settings (subs.map (·.output prims calls ctx)) := by
  rw [Program.output, Program.run, namesOutput, ← runFirst_fst]
  split
  · rfl
  · cases hp : (prims.nameList ctx vars settings).isEmpty <;>
      cases hc : settings.countsOnly <;> simp [hp]

end

/-! ## What a program calls -/

/-- The macro that a generic element calls. -/
def calledName? (tag : Tag) (attributes : Table String) : Option String :=
  if tag = .text ∨ tag = .key then attributes.get? "macro" else none

mutual

def Program.called : Program → List String
  | .text _ => []
  | .element tag attributes children => (calledName? tag attributes).toList ++ calledAll children
  | .nameList .. => []
  | .names _ _ substitutes => calledAll substitutes

def calledAll : List Program → List String
  | [] => []
  | p :: rest => p.called ++ calledAll rest

end

/-- What rendering with macros relies on: an element looks at the call that it names and at no
other; `text` shows the output of its macro between its affixes; the elements `macro` and `group`
join their children. -/
structure Primitives.Macros (prims : Primitives) : Prop where
  element_congr {calls calls' : Calls} (ctx : Context) {tag : Tag} {attributes : Table String}
    (children : List Output)
    (h : ∀ name, calledName? tag attributes = some name →
      (calls name).map Run.output = (calls' name).map Run.output) :
    (prims.element calls ctx tag attributes children).1 =
      (prims.element calls' ctx tag attributes children).1
  text_call {calls : Calls} (ctx : Context) {attributes : Table String} (children : List Output)
    {name : String} {output : Output} (hm : attributes.get? "macro" = some name)
    (hp : attributes.get? "plain" = none) (hc : (calls name).map Run.output = some output) :
    (prims.element calls ctx .text attributes children).1 =
      .rendered ⟨some (affix attributes output.text), output.kind?.getD .textOnly, false⟩
  definition_joins (calls : Calls) (ctx : Context) (attributes : Table String)
    (children : List Output) :
    (prims.element calls ctx .macroDefinition attributes children).1 =
      .rendered (joinChildren attributes children)
  group_joins (calls : Calls) (ctx : Context) (attributes : Table String) (children : List Output) :
    (prims.element calls ctx .group attributes children).1 =
      .rendered (joinChildren attributes children)

theorem renderText_call (calls : Calls) (ctx : Context) {attributes : Table String} {name : String}
    (hm : attributes.get? "macro" = some name) :
    (renderText calls ctx attributes).1 =
      (((calls name).map Run.output).map fun output =>
        ⟨some (affix attributes output.text), output.kind?.getD .textOnly, false⟩).getD
          ⟨some "", .emptyVariables, false⟩ := by
  unfold renderText
  rw [hm]
  cases hn : calls name <;> simp [hn]

theorem renderKey_call (calls : Calls) (ctx : Context) {attributes : Table String} {name : String}
    (children : List Output) (hm : attributes.get? "macro" = some name) :
    (renderElement calls ctx .key attributes children).1 =
      ((calls name).map Run.output).getD (.rendered .empty) := by
  unfold renderElement
  cases hn : calls name <;> simp [hm, hn]

theorem renderText_congr {calls calls' : Calls} (ctx : Context) {attributes : Table String}
    (h : ∀ name, attributes.get? "macro" = some name →
      (calls name).map Run.output = (calls' name).map Run.output) :
    (renderText calls ctx attributes).1 = (renderText calls' ctx attributes).1 := by
  cases hm : attributes.get? "macro" with
  | none => unfold renderText; rw [hm]
  | some name => rw [renderText_call calls ctx hm, renderText_call calls' ctx hm, h name hm]

/-- Rendering to plain text looks at calls as it should. -/
theorem plainText_macros : Primitives.plainText.Macros where
  element_congr {calls calls'} ctx tag attributes children h := by
    rw [Primitives.plainText]
    cases tag with
    | text =>
      have ht : (renderText calls ctx attributes).1 = (renderText calls' ctx attributes).1 :=
        renderText_congr ctx fun name hm => h name (by rw [calledName?, if_pos (.inl rfl), hm])
      simp only [renderElement, ht]
      split <;> rfl
    | key =>
      cases hm : attributes.get? "macro" with
      | none => simp only [renderElement, hm]
      | some name =>
        have hc := h name (by rw [calledName?, if_pos (.inr rfl), hm])
        rw [renderKey_call calls ctx children hm, renderKey_call calls' ctx children hm, hc]
    | _ => rfl
  text_call {calls} ctx attributes children name output hm hp hc := by
    have ht := renderText_call calls ctx hm
    rw [hc] at ht
    simp [Primitives.plainText, renderElement, hp, ht]
  definition_joins _ _ _ _ := rfl
  group_joins _ _ _ _ := rfl

/-! ## Outputs depend on the calls that are made -/

variable {prims : Primitives}

mutual

/-- The output of a program depends on calls only through those it makes. -/
theorem output_congr (hp : prims.Macros) {calls calls' : Calls} (ctx : Context) :
    ∀ p : Program, (∀ name ∈ p.called, (calls name).map Run.output = (calls' name).map Run.output) →
      p.output prims calls ctx = p.output prims calls' ctx
  | .text value, _ => by rw [output_text, output_text]
  | .element tag attributes children, h => by
    rw [Program.called] at h
    have hc := outputs_congr hp ctx children fun name hn => h name (List.mem_append_right _ hn)
    rw [output_element, output_element, hc]
    exact hp.element_congr ctx _ fun name hn =>
      h name (List.mem_append_left _ (by rw [hn]; exact List.mem_singleton_self name))
  | .nameList vars settings, _ => by rw [output_nameList, output_nameList]
  | .names vars settings substitutes, h => by
    rw [Program.called] at h
    rw [output_names, output_names, outputs_congr hp ctx substitutes h]

theorem outputs_congr (hp : prims.Macros) {calls calls' : Calls} (ctx : Context) :
    ∀ ps : List Program,
      (∀ name ∈ calledAll ps, (calls name).map Run.output = (calls' name).map Run.output) →
      ps.map (·.output prims calls ctx) = ps.map (·.output prims calls' ctx)
  | [], _ => rfl
  | p :: rest, h => by
    rw [calledAll] at h
    rw [List.map_cons, List.map_cons,
      output_congr hp ctx p fun name hn => h name (List.mem_append_left _ hn),
      outputs_congr hp ctx rest fun name hn => h name (List.mem_append_right _ hn)]

end

/-! ## Macros that do not call themselves -/

/-- Running a program may come to the call of a macro. -/
inductive Reaches (macros : Table Program) : Program → String → Prop
  | here {p : Program} {name : String} (h : name ∈ p.called) : Reaches macros p name
  | through {p q : Program} {next name : String} (h : next ∈ p.called)
      (hq : macros.get? next = some q) (hr : Reaches macros q name) : Reaches macros p name

/-- No macro calls itself, be it through others. -/
def Acyclic (macros : Table Program) : Prop :=
  ∀ name p, macros.get? name = some p → ¬ Reaches macros p name

/-- Macros do not call themselves if every call goes down in some order. -/
theorem acyclic_of_rank {macros : Table Program} (rank : String → Nat)
    (h : ∀ name p, macros.get? name = some p → ∀ next ∈ p.called, rank next < rank name) :
    Acyclic macros := by
  have hdown {p : Program} {name : String} (hr : Reaches macros p name) :
      ∀ bound, (∀ next ∈ p.called, rank next < bound) → rank name < bound := by
    induction hr with
    | here hn => intro bound hb; exact hb _ hn
    | through hn hq _ ih => intro bound hb; exact Nat.lt_trans (ih _ (h _ _ hq)) (hb _ hn)
  intro name p hm hr
  exact Nat.lt_irrefl _ (hdown hr _ (h name p hm))

theorem Reaches.of_erase {macros : Table Program} {p : Program} {name erased : String}
    (h : Reaches (macros.erase erased) p name) : Reaches macros p name := by
  induction h with
  | here h => exact .here h
  | through h hq _ ih =>
    rw [Table.get?_erase] at hq
    split at hq
    · cases hq
    · exact .through h hq ih

theorem calls_eq_map (prims : Primitives) (macros : Table Program) (ctx : Context) (name : String) :
    macros.calls prims ctx name =
      (macros.get? name).map (·.run prims ((macros.erase name).calls prims ctx) ctx) := by
  rw [Table.calls]
  split <;> next h => rw [h]; rfl

theorem calls_eq (prims : Primitives) (macros : Table Program) (ctx : Context) (name : String) :
    (macros.calls prims ctx name).map Run.output =
      (macros.get? name).map (·.output prims ((macros.erase name).calls prims ctx) ctx) := by
  rw [calls_eq_map, Option.map_map]
  rfl

/-- A macro that a program does not reach has no part in its output. -/
theorem output_erase (hp : prims.Macros) (ctx : Context) {macros : Table Program} {p : Program}
    {name : String} (h : ¬ Reaches macros p name) :
    p.output prims ((macros.erase name).calls prims ctx) ctx =
      p.output prims (macros.calls prims ctx) ctx := by
  -- on the number of macros, for every program: entering a macro erases it
  induction hs : macros.size using Nat.strongRecOn generalizing macros p with
  | _ size ih =>
    subst hs
    refine output_congr hp ctx p fun next hn => ?_
    have hne : next ≠ name := fun he => h (.here (he ▸ hn))
    rw [calls_eq, calls_eq, Table.get?_erase, if_neg hne]
    cases hq : macros.get? next with
    | none => rfl
    | some q =>
      have hq' : ¬ Reaches (macros.erase next) q name := fun hr =>
        h (.through hn hq hr.of_erase)
      simp only [Option.map_some]
      rw [Table.erase_comm, ih _ (Table.size_erase_lt hq) hq' rfl]

/-- **A call means the program of its macro**, run with all macros at hand. -/
theorem calls_output_of_acyclic (hp : prims.Macros) (ctx : Context) {macros : Table Program}
    (ha : Acyclic macros) {name : String} {p : Program} (hm : macros.get? name = some p) :
    (macros.calls prims ctx name).map Run.output =
      some (p.output prims (macros.calls prims ctx) ctx) := by
  rw [calls_eq, hm, Option.map_some, output_erase hp ctx (ha name p hm)]

end CiteStyle
